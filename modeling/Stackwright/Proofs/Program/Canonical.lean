import Mathlib
import Stackwright.Proofs.Program.ImportBlock

/-!
# Texts in canonical form

The last pass over a text leaves it as it is if its lines are settled: no line
ends with a blank, empty lines stand alone between lines with text, and none of
them is next to an end of the import block.  Settled lines are put together from
settled parts, with or without an empty line between two parts.

Main results:

- Theorem `Settled.settle_eq` and `Settled.tighten_eq`: settled lines stay as they
  are.
- Theorem `Tidy.append` and `Tidy.gap`: tidy texts are put together.
- Theorem `File.canonicalize_layout`: a tidy printed file is in canonical form.
-/

namespace Stackwright
namespace Program

/-! ## Settled lines -/

/-- A line without a line end in it and without a blank at its end. -/
structure IsTrimmed (line : List Char) : Prop where
  newline_notMem : '\n' ∉ line
  last : ∀ c ∈ line.getLast?, Text.isBlank c = false

/-- Two lines that may follow each other: at most one of them is empty, and an empty line is
neither after the start nor before the end of an import block. -/
structure Fits (a b : List Char) : Prop where
  after_empty : a = [] → b ≠ [] ∧ closesImports b = false
  before_empty : b = [] → opensImports a = false

/-- Lines that the last pass leaves as they are. -/
structure Settled (lines : List (List Char)) : Prop where
  ne_nil : lines ≠ []
  trimmed : ∀ line ∈ lines, IsTrimmed line
  chain : lines.IsChain Fits
  head : ∀ line ∈ lines.head?, line ≠ [] ∧ closesImports line = false
  last : ∀ line ∈ lines.getLast?, line ≠ [] ∧ opensImports line = false

namespace IsTrimmed

theorem nil : IsTrimmed [] where
  newline_notMem := List.not_mem_nil
  last := by simp

/-- A line on which the last character is known. -/
theorem of_getLast? {line : List Char} {c : Char} (h : '\n' ∉ line)
    (hlast : line.getLast? = some c) (hc : Text.isBlank c = false) : IsTrimmed line where
  newline_notMem := h
  last d hd := by
    cases hlast.symm.trans hd
    exact hc

theorem isLine {line : List Char} (h : IsTrimmed line) : IsLine line := by
  refine ⟨h.newline_notMem, fun hlast => ?_⟩
  exact absurd (h.last _ hlast) (by decide)

/-- A trimmed line of blanks is empty. -/
theorem eq_nil {line : List Char} (h : IsTrimmed line) (hblank : Text.isAllBlank line = true) :
    line = [] := by
  cases hlast : line.getLast? with
  | none => exact List.getLast?_eq_none_iff.1 hlast
  | some c =>
      have hc := List.all_eq_true.1 hblank c (List.mem_of_getLast? hlast)
      rw [h.last c hlast] at hc
      cases hc

end IsTrimmed

namespace Settled

variable {a b lines : List (List Char)}

/-- One line with text that is no end of an import block. -/
theorem singleton {line : List Char} (h : IsTrimmed line) (hne : line ≠ [])
    (hcloses : closesImports line = false) (hopens : opensImports line = false) :
    Settled [line] where
  ne_nil := List.cons_ne_nil _ _
  trimmed := by simpa using h
  chain := .singleton line
  head := by simpa using ⟨hne, hcloses⟩
  last := by simpa using ⟨hne, hopens⟩

/-- Lines with text whose ends are no ends of an import block. -/
theorem dense (hne : lines ≠ []) (h : ∀ line ∈ lines, IsTrimmed line ∧ line ≠ [])
    (hhead : ∀ line ∈ lines.head?, closesImports line = false)
    (hlast : ∀ line ∈ lines.getLast?, opensImports line = false) : Settled lines where
  ne_nil := hne
  trimmed line hline := (h line hline).1
  chain := by
    refine (List.pairwise_of_forall_mem_list fun x hx y hy => ?_).isChain
    exact ⟨fun hempty => absurd hempty (h x hx).2, fun hempty => absurd hempty (h y hy).2⟩
  head line hline := ⟨(h line (List.mem_of_head? hline)).2, hhead line hline⟩
  last line hline := ⟨(h line (List.mem_of_getLast? hline)).2, hlast line hline⟩

/-- Settled lines after settled lines. -/
theorem append (ha : Settled a) (hb : Settled b) : Settled (a ++ b) where
  ne_nil := fun hnil => ha.ne_nil (List.append_eq_nil_iff.1 hnil).1
  trimmed line hline := (List.mem_append.1 hline).elim (ha.trimmed line) (hb.trimmed line)
  chain := by
    apply ha.chain.append hb.chain
    intro x hx y hy
    exact ⟨fun hempty => absurd hempty (ha.last x hx).1,
      fun hempty => absurd hempty (hb.head y hy).1⟩
  head line hline := by
    rw [List.head?_append_of_ne_nil _ ha.ne_nil] at hline
    exact ha.head line hline
  last line hline := by
    rw [List.getLast?_append_of_ne_nil _ hb.ne_nil] at hline
    exact hb.last line hline

/-- Settled lines after settled lines, with an empty line between them. -/
theorem gap (ha : Settled a) (hb : Settled b) : Settled (a ++ [] :: b) := by
  have htail : ([] :: b).IsChain Fits := by
    rw [List.isChain_cons]
    refine ⟨fun y hy => ⟨fun _ => hb.head y hy, fun hempty => absurd hempty (hb.head y hy).1⟩, ?_⟩
    exact hb.chain
  constructor
  · exact fun hnil => ha.ne_nil (List.append_eq_nil_iff.1 hnil).1
  · intro line hline
    rcases List.mem_append.1 hline with hline | hline
    · exact ha.trimmed line hline
    · rcases List.mem_cons.1 hline with rfl | hline
      · exact .nil
      · exact hb.trimmed line hline
  · apply ha.chain.append htail
    intro x hx y hy
    cases hy
    exact ⟨fun hempty => absurd hempty (ha.last x hx).1, fun _ => (ha.last x hx).2⟩
  · intro line hline
    rw [List.head?_append_of_ne_nil _ ha.ne_nil] at hline
    exact ha.head line hline
  · intro line hline
    rw [List.append_cons, List.getLast?_append_of_ne_nil _ hb.ne_nil] at hline
    exact hb.last line hline

/-- A line with text that does not close an import block, before settled lines. -/
theorem cons {line : List Char} (h : IsTrimmed line) (hne : line ≠ [])
    (hcloses : closesImports line = false) (hb : Settled b) : Settled (line :: b) where
  ne_nil := List.cons_ne_nil _ _
  trimmed := List.forall_mem_cons.2 ⟨h, hb.trimmed⟩
  chain := by
    rw [List.isChain_cons]
    refine ⟨fun y hy => ⟨fun hempty => absurd hempty hne, fun hempty => ?_⟩, hb.chain⟩
    exact absurd hempty (hb.head y hy).1
  head := by simpa using ⟨hne, hcloses⟩
  last other hother := by
    rw [← List.singleton_append, List.getLast?_append_of_ne_nil _ hb.ne_nil] at hother
    exact hb.last other hother

/-- A line with text that does not open an import block, after settled lines. -/
theorem concat (ha : Settled a) {line : List Char} (h : IsTrimmed line) (hne : line ≠ [])
    (hopens : opensImports line = false) : Settled (a ++ [line]) where
  ne_nil := fun hnil => ha.ne_nil (List.append_eq_nil_iff.1 hnil).1
  trimmed other hother := by
    rcases List.mem_append.1 hother with hother | hother
    · exact ha.trimmed other hother
    · rw [List.mem_singleton.1 hother]
      exact h
  chain := by
    refine ha.chain.append (.singleton line) fun x hx y hy => ?_
    cases hy
    exact ⟨fun hempty => absurd hempty (ha.last x hx).1, fun hempty => absurd hempty hne⟩
  head other hother := by
    rw [List.head?_append_of_ne_nil _ ha.ne_nil] at hother
    exact ha.head other hother
  last := by simpa using ⟨hne, hopens⟩

end Settled

/-! ## The last pass -/

/-- A line that fits after the last one is added as it is. -/
theorem tightenStep_eq {x y : List Char} (hx : IsTrimmed x) (hy : IsTrimmed y) (h : Fits x y)
    (earlier : List (List Char)) : tightenStep (x :: earlier) y = y :: x :: earlier := by
  have hopens : ¬ (Text.isAllBlank y && opensImports x) = true := by
    rw [Bool.and_eq_true]
    rintro ⟨hblank, hopens⟩
    rw [h.before_empty (hy.eq_nil hblank)] at hopens
    cases hopens
  have hcloses : ¬ (closesImports y && Text.isAllBlank x) = true := by
    rw [Bool.and_eq_true]
    rintro ⟨hcloses, hblank⟩
    rw [(h.after_empty (hx.eq_nil hblank)).2] at hcloses
    cases hcloses
  rw [tightenStep, if_neg hopens, if_neg hcloses]

/-- Lines that fit after each other have no empty line at an end of the import block. -/
theorem tighten_eq_self {lines : List (List Char)} (htrimmed : ∀ line ∈ lines, IsTrimmed line)
    (hchain : lines.IsChain Fits) : tighten lines = lines := by
  -- The lines before are kept in reverse, so the last of them is general.
  have hfold : ∀ (rest earlier : List (List Char)) (x : List Char),
      (∀ line ∈ x :: rest, IsTrimmed line) → (x :: rest).IsChain Fits →
      rest.foldl tightenStep (x :: earlier) = rest.reverse ++ x :: earlier := by
    intro rest
    induction rest with
    | nil => exact fun _ _ _ _ => rfl
    | cons y rest ih =>
        intro earlier x htrimmed hchain
        rw [List.isChain_cons_cons] at hchain
        obtain ⟨hx, hrest⟩ := List.forall_mem_cons.1 htrimmed
        rw [List.foldl_cons, tightenStep_eq hx (hrest y List.mem_cons_self) hchain.1,
          ih (x :: earlier) y hrest hchain.2, List.reverse_cons, List.append_assoc]
        rfl
  cases lines with
  | nil => rfl
  | cons x rest =>
      have hfirst : tightenStep [] x = [x] := rfl
      rw [tighten, List.foldl_cons, hfirst, hfold rest [] x htrimmed hchain]
      simp

/-- Trimmed lines need no settling if no two empty lines follow each other and none is at an end
of the text. -/
theorem settle_eq_self {lines : List (List Char)}
    (htrimmed : ∀ line ∈ lines, ∀ c ∈ line.getLast?, Text.isBlank c = false)
    (hchain : lines.IsChain fun a b => a = [] → b ≠ []) (hhead : ∀ line ∈ lines.head?, line ≠ [])
    (hlast : ∀ line ∈ lines.getLast?, line ≠ []) : settle lines = lines := by
  have hfold : ∀ rest : List (List Char), (rest.IsChain fun a b => a = [] → b ≠ []) →
      (∀ line ∈ rest.getLast?, line ≠ []) → rest.foldr settleStep [] = rest := by
    intro rest
    induction rest with
    | nil => exact fun _ _ => rfl
    | cons x rest ih =>
        intro hchain hlast
        cases rest with
        | nil =>
            cases x with
            | nil => exact absurd rfl (hlast [] rfl)
            | cons c x => rfl
        | cons y rest =>
            rw [List.isChain_cons_cons] at hchain
            rw [List.getLast?_cons_cons] at hlast
            rw [List.foldr_cons, ih hchain.2 hlast]
            cases x with
            | cons c x => rfl
            | nil =>
                cases y with
                | cons c y => rfl
                | nil => exact absurd rfl (hchain.1 rfl)
  have htrim : lines.map Text.trimEnd = lines := by
    refine (List.map_congr_left fun line hline => ?_).trans (List.map_id lines)
    exact Text.trimEnd_eq_self (htrimmed line hline)
  rw [settle, htrim, hfold lines hchain hlast]
  cases lines with
  | nil => rfl
  | cons x rest =>
      have hx := hhead x rfl
      rw [List.dropWhile_cons_of_neg (by simpa using hx)]

namespace Settled

variable {lines : List (List Char)}

theorem tighten_eq (h : Settled lines) : tighten lines = lines :=
  tighten_eq_self h.trimmed h.chain

theorem settle_eq (h : Settled lines) : settle lines = lines :=
  settle_eq_self (fun line hline => (h.trimmed line hline).last)
    (h.chain.imp fun _ _ hfits hempty => (hfits.after_empty hempty).1)
    (fun line hline => (h.head line hline).1) fun line hline => (h.last line hline).1

end Settled

/-! ## Tidy texts -/

/-- A text of settled lines. -/
def Tidy (text : List Char) : Prop :=
  ∃ lines, text = unlines lines ∧ Settled lines

namespace Tidy

variable {a b : List Char}

/-- A tidy text after a tidy text. -/
theorem append (ha : Tidy a) (hb : Tidy b) : Tidy (a ++ b) := by
  obtain ⟨linesA, rfl, hsettledA⟩ := ha
  obtain ⟨linesB, rfl, hsettledB⟩ := hb
  exact ⟨linesA ++ linesB, (unlines_append _ _).symm, hsettledA.append hsettledB⟩

/-- A tidy text after a tidy text, with an empty line between them. -/
theorem gap (ha : Tidy a) (hb : Tidy b) : Tidy (a ++ '\n' :: b) := by
  obtain ⟨linesA, rfl, hsettledA⟩ := ha
  obtain ⟨linesB, rfl, hsettledB⟩ := hb
  refine ⟨linesA ++ [] :: linesB, ?_, hsettledA.gap hsettledB⟩
  rw [unlines_append]
  rfl

/-- Tidy texts after a tidy text. -/
theorem flatMap {α : Type} {l : List α} {f : α → List Char} (hne : l ≠ [])
    (h : ∀ x ∈ l, Tidy (f x)) : Tidy (l.flatMap f) := by
  induction l with
  | nil => exact absurd rfl hne
  | cons x rest ih =>
      have hx := h x List.mem_cons_self
      cases rest with
      | nil => simpa using hx
      | cons y rest =>
          exact hx.append (ih (List.cons_ne_nil _ _) fun z hz => h z (List.mem_cons_of_mem _ hz))

/-- The lines of a tidy text are settled, and the text is put together from them. -/
theorem lines_spec (h : Tidy a) : Settled (Text.lines a) ∧ unlines (Text.lines a) = a := by
  obtain ⟨lines, rfl, hsettled⟩ := h
  have hlines : Text.lines (unlines lines) = lines := by
    have hcut := lines_unlines_append (fun line hline => (hsettled.trimmed line hline).isLine) []
    simpa using hcut
  rw [hlines]
  exact ⟨hsettled, rfl⟩

end Tidy

/-! ## Imports that are kept -/

/-- The characters of identifiers are no blanks. -/
theorem isBlank_of_isIdentChar {c : Char} (h : isIdentChar c = true) : Text.isBlank c = false := by
  have hrange : 0x30 ≤ c.toNat ∧ c.toNat ≤ 0x7A := by
    simp only [isIdentChar, Char.isAlphanum, Char.isAlpha, Char.isUpper, Char.isLower, Char.isDigit,
      Bool.or_eq_true, Bool.and_eq_true, decide_eq_true_eq, beq_iff_eq, ge_iff_le,
      UInt32.le_iff_toNat_le] at h
    rcases h with ((h | h) | h) | rfl
    · exact ⟨Nat.le_trans (by decide) h.1, Nat.le_trans h.2 (by decide)⟩
    · exact ⟨Nat.le_trans (by decide) h.1, Nat.le_trans h.2 (by decide)⟩
    · exact ⟨Nat.le_trans (by decide) h.1, Nat.le_trans h.2 (by decide)⟩
    · decide
  rw [← Bool.not_eq_true]
  intro hblank
  simp only [Text.isBlank, Bool.or_eq_true, Bool.and_eq_true, decide_eq_true_eq, beq_iff_eq]
    at hblank
  omega

/-- Quoting a text without blanks gives a literal without blanks. -/
theorem isBlank_of_mem_quote {text : List Char} (h : ∀ c ∈ text, Text.isBlank c = false) :
    ∀ c ∈ quote text, Text.isBlank c = false := by
  have hdigit : ∀ n, Text.isBlank (hexDigit n) = false := by
    intro n
    rcases hexDigit_cases n with hn | hn
    · exact isBlank_of_isIdentChar hn
    · rw [hn]
      decide
  have hchar : ∀ c ∈ text, ∀ d ∈ quoteChar c, Text.isBlank d = false := by
    intro c hc d hd
    rcases quoteChar_cases c with ⟨x, hx, heq⟩ | ⟨n, m, heq⟩ | ⟨heq, -⟩
    · have hletters : ['"', '\\', 'n', 'r', 't'].all (!Text.isBlank ·) = true := by decide
      simp only [heq, List.mem_cons, List.not_mem_nil, or_false] at hd
      rcases hd with rfl | rfl
      · decide
      · simpa using List.all_eq_true.1 hletters d hx
    · simp only [heq, List.mem_cons, List.not_mem_nil, or_false] at hd
      rcases hd with rfl | rfl | rfl | rfl
      · decide
      · decide
      · exact hdigit n
      · exact hdigit m
    · rw [heq, List.mem_singleton] at hd
      rw [hd]
      exact h c hc
  intro c hc
  simp only [quote, List.mem_append, List.mem_cons, List.mem_flatMap, List.not_mem_nil, or_false]
    at hc
  rcases hc with (rfl | ⟨d, hd, hc⟩) | rfl
  · decide
  · exact hchar d hd c hc
  · decide

theorem unquoted_quote (text : List Char) :
    unquoted (quote text) = some (text.flatMap quoteChar) := by
  have hshape : quote text = '"' :: (text.flatMap quoteChar ++ ['"']) := rfl
  rw [hshape, unquoted, List.getLast?_concat, if_pos rfl, List.dropLast_concat]

/-- An import line binds the last segment of its path, as it is written. -/
theorem boundName_importLine {path : String} (h : ∀ c ∈ path.toList, Text.isBlank c = false) :
    boundName (importLine .source path)
      = some ((Text.splitAll '/' (path.toList.flatMap quoteChar)).getLastD []) := by
  have hblank : (quote path.toList).dropWhile (!Text.isBlank ·) = [] := by
    rw [List.dropWhile_eq_nil_iff]
    intro c hc
    rw [isBlank_of_mem_quote h c hc]
    rfl
  rw [boundName, trim_importLine]
  simp only [hblank]
  rw [unquoted_quote]
  rfl

namespace Package

/-- The import path of a package has no blanks if the module root has none. -/
theorem isBlank_of_mem_importPath {root : String} (h : ∀ c ∈ root.toList, Text.isBlank c = false)
    (p : Package) : ∀ c ∈ (p.importPath root).toList, Text.isBlank c = false := by
  have hname : ∀ c ∈ p.name.toList, Text.isBlank c = false :=
    fun c hc => isBlank_of_isIdentChar (p.isIdentChar_of_mem_name c hc)
  by_cases hsignal : p = .signal
  · subst hsignal
    have hall : "os/signal".toList.all (!Text.isBlank ·) = true := by decide
    rw [importPath]
    simpa only [List.all_eq_true, Bool.not_eq_true'] using hall
  · rw [importPath.eq_2 root p hsignal]
    split
    · exact hname
    · intro c hc
      simp only [String.toList_append, String.toList_ofList, List.mem_append, List.mem_reverse]
        at hc
      rcases hc with (hc | hc) | hc
      · exact h c (List.mem_reverse.1 ((List.dropWhile_sublist _).mem hc))
      · rw [List.mem_singleton.1 hc]
        decide
      · exact hname c hc

/-- The import of a package binds its name. -/
theorem boundName_importLine {root : String} (h : ∀ c ∈ root.toList, Text.isBlank c = false)
    (p : Package) :
    boundName (importLine .source (p.importPath root)) = some p.name.toList := by
  have hname : p.name.toList.flatMap quoteChar = p.name.toList := by
    cases p <;> decide
  rw [Program.boundName_importLine (p.isBlank_of_mem_importPath h)]
  rcases p.importPath_cases root with hpath | ⟨front, hpath⟩
  · rw [hpath, hname, Text.splitAll_of_notMem p.slash_notMem_name]
    rfl
  · have hslash : quoteChar '/' = ['/'] := by decide
    rw [hpath, List.flatMap_append, List.flatMap_cons, hname, hslash, List.singleton_append,
      Text.getLastD_splitAll_append p.slash_notMem_name]

end Package

/-- If the code outside an import block refers to what its imports bind, all of them are kept. -/
theorem ImportBlock.dropUnused_eq {b : ImportBlock} {code : List (List Char)}
    (hany : ∃ line ∈ b.entries, isUsedImport (b.outside code) line = true)
    (hall : ∀ line ∈ b.entries, isUnusedImport (b.outside code) line = false) :
    b.dropUnused code = b.before ++ b.opening :: (b.entries ++ b.closing :: b.after) := by
  have hused : b.entries.any (isUsedImport (b.outside code)) = true := List.any_eq_true.2 hany
  have hfilter : b.entries.filter (!isUnusedImport (b.outside code) ·) = b.entries := by
    rw [List.filter_eq_self]
    intro line hline
    rw [hall line hline]
    rfl
  simp [dropUnused, hused, hfilter]

namespace File

/-- The code outside the import block of a printed file refers to its packages. -/
theorem any_refersTo_outside {f : File} (h : f.wellFormed = true) {root : String}
    {block : ImportBlock} (hbefore : block.before.length = f.frontHeight + 1)
    (hentries : block.entries = importEntries .source (importGroups root f.packages))
    {p : Package} (hp : p ∈ f.packages) :
    (block.outside (Text.lines (f.layout .blank root))).any (refersTo p.name.toList) = true := by
  rw [wellFormed, Bool.and_eq_true] at h
  have hgroups := importGroups_ne_nil root (List.ne_nil_of_mem hp)
  obtain ⟨line, hline, hrefers⟩ := exists_refersTo h.2 (mem_packages.1 hp)
  rw [List.any_eq_true]
  refine ⟨line, List.mem_append_right _ ?_, hrefers⟩
  rw [hbefore, hentries, drop_lines_layout h.1 hgroups]
  exact hline

/-- The imports of a printed file are all kept. -/
theorem dropUnused_layout {f : File} (h : f.wellFormed = true) (hne : f.packages ≠ [])
    {root : String} (hroot : ∀ c ∈ root.toList, Text.isBlank c = false) {block : ImportBlock}
    (hbefore : block.before.length = f.frontHeight + 1)
    (hentries : block.entries = importEntries .source (importGroups root f.packages)) :
    block.dropUnused (Text.lines (f.layout .blank root))
      = block.before ++ block.opening :: (block.entries ++ block.closing :: block.after) := by
  have hrefers : ∀ p ∈ f.packages, (block.outside (Text.lines (f.layout .blank root))).any
      (refersTo p.name.toList) = true :=
    fun p hp => any_refersTo_outside h hbefore hentries hp
  have hpaths := flatten_importGroups_perm root f.packages
  refine ImportBlock.dropUnused_eq ?_ fun line hline => ?_
  · obtain ⟨p, hp⟩ := List.exists_mem_of_ne_nil f.packages hne
    have hline : importLine .source (p.importPath root) ∈ block.entries := by
      apply List.mem_of_mem_filter (p := (!·.isEmpty))
      rw [hentries, filter_importEntries]
      exact List.mem_map_of_mem (hpaths.mem_iff.2 (List.mem_map_of_mem hp))
    refine ⟨_, hline, ?_⟩
    rw [isUsedImport, p.boundName_importLine hroot]
    exact hrefers p hp
  · rw [hentries] at hline
    rcases mem_importEntries hline with rfl | ⟨path, hpath, rfl⟩
    · rfl
    · obtain ⟨p, hp, rfl⟩ := List.mem_map.1 (hpaths.mem_iff.1 hpath)
      rw [isUnusedImport, p.boundName_importLine hroot]
      simp only [hrefers p hp, Bool.not_true]

/-- No line of a tidy printed file is dropped with the imports. -/
theorem pruneImports_layout {f : File} (h : f.wellFormed = true) (hcomments : f.CommentsOnLines)
    (hne : f.packages ≠ []) {root : String} (hroot : ∀ c ∈ root.toList, Text.isBlank c = false)
    (htidy : Tidy (f.layout .source root)) :
    pruneImports (Text.lines (f.layout .source root)) (Text.lines (f.layout .blank root))
      = Text.lines (f.layout .source root) := by
  have hpackage : isIdentifier f.package.toList = true := by
    rw [wellFormed, Bool.and_eq_true] at h
    exact h.1
  obtain ⟨before, hlength, hlines, hfind⟩ :=
    find?_lines_layout hpackage hcomments (importGroups_ne_nil root hne)
  rw [pruneImports, hfind]
  simp only
  rw [dropUnused_layout h hne hroot hlength rfl]
  simp only
  rw [← hlines]
  exact htidy.lines_spec.1.tighten_eq

/-- A tidy printed file is in canonical form: each of its imports is referred to, and its lines
are settled. -/
theorem canonicalize_layout {f : File} (h : f.wellFormed = true) (hcomments : f.CommentsOnLines)
    (hne : f.packages ≠ []) {root : String} (hroot : ∀ c ∈ root.toList, Text.isBlank c = false)
    (htidy : Tidy (f.layout .source root)) :
    canonicalize (f.layout .source root) = .ok (f.layout .source root) := by
  obtain ⟨hsettled, hunlines⟩ := htidy.lines_spec
  rw [canonicalize, blank_layout h hcomments root]
  simp only [bind, Except.bind, pure, Except.pure]
  rw [pruneImports_layout h hcomments hne hroot htidy, hsettled.settle_eq, hunlines]

end File
end Program
end Stackwright
