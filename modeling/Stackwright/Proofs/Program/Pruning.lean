import Mathlib
import Stackwright.Proofs.Program.Canonical

/-!
# What the last pass keeps

The last pass drops lines of the import block and white space, and nothing else.  The
white space goes in two passes, each of which keeps every line with text, so what is
dropped is decided by the imports alone: a block with a used import loses the unused ones,
and a block without one goes as a whole, with whatever else stands in it.

Main results:

- Theorem `ImportBlock.find?_eq_some_iff`: which lines are the first import block.
- Theorem `textLines_settle` and `textLines_tighten`: the passes over white space keep
  the lines with text.
- Theorem `lines_canonicalize`: the lines of a canonical text.
- Theorem `canonicalize_drops_only_unused_iff`: only unused imports are dropped, exactly
  if no comment looks like one and the block has a used import or nothing to keep.
-/

namespace Stackwright
namespace Program

/-! ## The lines of an import block -/

/-- A block is the first import block of lines. -/
structure ImportBlock.Splits (b : ImportBlock) (lines : List (List Char)) : Prop where
  eq : lines = b.before ++ b.opening :: (b.entries ++ b.closing :: b.after)
  before : ∀ line ∈ b.before, opensImports line = false
  opening : opensImports b.opening = true
  entries : ∀ line ∈ b.entries, closesImports line = false
  closing : closesImports b.closing = true

/-- The block that is found is the one that splits the lines. -/
theorem ImportBlock.find?_eq_some_iff {lines : List (List Char)} {b : ImportBlock} :
    find? lines = some b ↔ b.Splits lines := by
  constructor
  · intro h
    unfold find? at h
    split at h
    · cases h
    · rename_i opening rest hrest
      split at h
      · cases h
      · rename_i closing after hafter
        cases h
        have hopening := List.head?_dropWhile_not (!opensImports ·) lines
        have hclosing := List.head?_dropWhile_not (!closesImports ·) rest
        rw [hrest] at hopening
        rw [hafter] at hclosing
        refine ⟨?_, ?_, by simpa using hopening, ?_, by simpa using hclosing⟩
        · simp only
          rw [← hafter, List.takeWhile_append_dropWhile, ← hrest, List.takeWhile_append_dropWhile]
        · intro line hline
          simpa using List.mem_takeWhile_imp hline
        · intro line hline
          simpa using List.mem_takeWhile_imp hline
  · rintro ⟨rfl, hbefore, hopening, hentries, hclosing⟩
    exact find?_eq_some hbefore hopening hentries hclosing

/-! ## Lines with text -/

/-- The lines that are not blank, without the blanks at their ends. -/
def textLines (lines : List (List Char)) : List (List Char) :=
  (lines.map Text.trimEnd).filter (!·.isEmpty)

@[simp]
theorem textLines_nil : textLines [] = [] :=
  rfl

/-- The lines with text are those of the parts. -/
theorem textLines_append (a b : List (List Char)) :
    textLines (a ++ b) = textLines a ++ textLines b := by
  simp [textLines]

theorem textLines_cons (line : List Char) (rest : List (List Char)) :
    textLines (line :: rest) = textLines [line] ++ textLines rest :=
  textLines_append [line] rest

theorem textLines_cons_inj (line : List Char) {a b : List (List Char)} :
    textLines (line :: a) = textLines (line :: b) ↔ textLines a = textLines b := by
  rw [textLines_cons line a, textLines_cons line b, List.append_cancel_left_eq]

/-- A line is blank exactly if nothing is left of it without the blanks at its end. -/
theorem isAllBlank_iff_trimEnd_eq_nil {line : List Char} :
    Text.isAllBlank line = true ↔ Text.trimEnd line = [] := by
  rw [Text.trimEnd_eq_nil_iff, Text.isAllBlank, List.all_eq_true]

theorem textLines_singleton_eq_nil_iff {line : List Char} :
    textLines [line] = [] ↔ Text.isAllBlank line = true := by
  rw [isAllBlank_iff_trimEnd_eq_nil]
  simp [textLines]

theorem textLines_eq_nil_iff {lines : List (List Char)} :
    textLines lines = [] ↔ ∀ line ∈ lines, Text.isAllBlank line = true := by
  induction lines with
  | nil => simp
  | cons line rest ih =>
      rw [textLines_cons, List.append_eq_nil_iff, textLines_singleton_eq_nil_iff, ih,
        List.forall_mem_cons]

theorem textLines_sublist {a b : List (List Char)} (h : a.Sublist b) :
    (textLines a).Sublist (textLines b) :=
  (h.map _).filter _

/-- A test that fewer lines pass selects the same lines with text exactly if all others are
blank. -/
theorem textLines_filter_eq_iff {p q : List Char → Bool} (h : ∀ line, p line = true → q line = true)
    (lines : List (List Char)) :
    textLines (lines.filter p) = textLines (lines.filter q) ↔
      ∀ line ∈ lines, q line = true → p line = true ∨ Text.isAllBlank line = true := by
  induction lines with
  | nil => simp
  | cons line rest ih =>
      rw [List.forall_mem_cons, ← ih]
      by_cases hp : p line = true
      · have hq := h line hp
        rw [List.filter_cons_of_pos hp, List.filter_cons_of_pos hq, textLines_cons_inj]
        simp [hp]
      · rw [List.filter_cons_of_neg hp]
        by_cases hq : q line = true
        · rw [List.filter_cons_of_pos hq, textLines_cons]
          by_cases hblank : Text.isAllBlank line = true
          · rw [textLines_singleton_eq_nil_iff.2 hblank]
            simp [hblank]
          · -- The line has text that the first selection lacks.
            have hfewer : rest.filter p = (rest.filter q).filter p := by
              rw [List.filter_filter]
              refine List.filter_congr fun x _ => ?_
              by_cases hx : p x = true <;> simp [hx, h x]
            have hle := (textLines_sublist
              (hfewer ▸ List.filter_sublist : (rest.filter p).Sublist (rest.filter q))).length_le
            have hpos := List.length_pos_of_ne_nil
              (fun hnil => hblank (textLines_singleton_eq_nil_iff.1 hnil))
            refine iff_of_false (fun heq => ?_) fun hall => ?_
            · have hlength := congrArg List.length heq
              rw [List.length_append] at hlength
              omega
            · rcases hall.1 hq with hall | hall
              · exact hp hall
              · exact hblank hall
        · rw [List.filter_cons_of_neg hq]
          simp [hq]

/-- Adding a line to settled ones adds its text. -/
theorem filter_settleStep (line : List Char) (rest : List (List Char)) :
    (settleStep line rest).filter (!·.isEmpty) = (line :: rest).filter (!·.isEmpty) := by
  unfold settleStep
  split <;> simp

/-- Settling adds no line. -/
theorem settleStep_sublist (line : List Char) (rest : List (List Char)) :
    (settleStep line rest).Sublist (line :: rest) := by
  unfold settleStep
  split
  · exact List.nil_sublist _
  · exact List.sublist_cons_self _ _
  · exact List.Sublist.refl _

/-- Settled lines are some of the lines, trimmed. -/
theorem settle_sublist (lines : List (List Char)) :
    (settle lines).Sublist (lines.map Text.trimEnd) := by
  have hfold : ((lines.map Text.trimEnd).foldr settleStep []).Sublist (lines.map Text.trimEnd) := by
    induction lines.map Text.trimEnd with
    | nil => exact List.Sublist.refl _
    | cons line rest ih => exact (settleStep_sublist _ _).trans (ih.cons_cons line)
  exact (List.dropWhile_sublist _).trans hfold

/-- Settled lines are trimmed. -/
theorem map_trimEnd_settle (lines : List (List Char)) :
    (settle lines).map Text.trimEnd = settle lines := by
  refine (List.map_congr_left fun line hline => ?_).trans (List.map_id _)
  obtain ⟨raw, -, rfl⟩ := List.mem_map.1 ((settle_sublist lines).subset hline)
  exact Text.trimEnd_idem raw

/-- Settling keeps the lines with text. -/
theorem textLines_settle (lines : List (List Char)) : textLines (settle lines) = textLines lines := by
  have hfold : ((lines.map Text.trimEnd).foldr settleStep []).filter (!·.isEmpty)
      = (lines.map Text.trimEnd).filter (!·.isEmpty) := by
    induction lines.map Text.trimEnd with
    | nil => rfl
    | cons line rest ih =>
        rw [List.foldr_cons, filter_settleStep, List.filter_cons, ih, List.filter_cons]
  have hdrop : ∀ rest : List (List Char),
      (rest.dropWhile List.isEmpty).filter (!·.isEmpty) = rest.filter (!·.isEmpty) := by
    intro rest
    induction rest with
    | nil => rfl
    | cons line rest ih =>
        cases line with
        | nil => simpa using ih
        | cons c line => rfl
  rw [textLines, map_trimEnd_settle, textLines, ← hfold, settle, hdrop]

/-- A line that is added to tight ones adds its text. -/
theorem textLines_tightenStep (done : List (List Char)) (line : List Char) :
    textLines (tightenStep done line).reverse = textLines done.reverse ++ textLines [line] := by
  cases done with
  | nil => rfl
  | cons last earlier =>
      rw [tightenStep]
      split
      · rename_i hblank
        rw [Bool.and_eq_true] at hblank
        rw [textLines_singleton_eq_nil_iff.2 hblank.1, List.append_nil]
      · split
        · rename_i hblank
          rw [Bool.and_eq_true] at hblank
          rw [List.reverse_cons, List.reverse_cons, textLines_append, textLines_append,
            textLines_singleton_eq_nil_iff.2 hblank.2, List.append_nil]
        · rw [List.reverse_cons, textLines_append]

/-- Dropping the empty lines inside the ends of import blocks keeps the lines with text. -/
theorem textLines_tighten (lines : List (List Char)) :
    textLines (tighten lines) = textLines lines := by
  have hfold : ∀ done : List (List Char), textLines (lines.foldl tightenStep done).reverse
      = textLines done.reverse ++ textLines lines := by
    induction lines with
    | nil => simp
    | cons line rest ih =>
        intro done
        rw [List.foldl_cons, ih, textLines_tightenStep, List.append_assoc, ← textLines_cons]
  exact hfold []

/-- Tightening adds no line. -/
theorem tightenStep_sublist (done : List (List Char)) (line : List Char) :
    (tightenStep done line).Sublist (line :: done) := by
  cases done with
  | nil => exact List.Sublist.refl _
  | cons last earlier =>
      rw [tightenStep]
      split
      · exact List.sublist_cons_self _ _
      · split
        · exact (List.sublist_cons_self _ _).cons_cons line
        · exact List.Sublist.refl _

/-- Tight lines are some of the lines. -/
theorem tighten_sublist (lines : List (List Char)) : (tighten lines).Sublist lines := by
  have hfold : ∀ done : List (List Char),
      (lines.foldl tightenStep done).reverse.Sublist (done.reverse ++ lines) := by
    induction lines with
    | nil => simp
    | cons line rest ih =>
        intro done
        have hstep := (tightenStep_sublist done line).reverse.append_right rest
        rw [List.reverse_cons, List.append_assoc, List.singleton_append] at hstep
        exact (ih _).trans hstep
  exact hfold []

/-! ## The lines of a canonical text -/

/-- The imports that are dropped are lines of the text. -/
theorem ImportBlock.Splits.dropUnused_sublist {b : ImportBlock} {lines : List (List Char)}
    (h : b.Splits lines) (code : List (List Char)) : (b.dropUnused code).Sublist lines := by
  rw [h.eq, dropUnused]
  split
  · rw [List.append_assoc, List.cons_append]
    exact (((List.filter_sublist).append_right _).cons_cons _).append_left _
  · have hafter : b.after.Sublist (b.closing :: b.after) := List.sublist_cons_self _ _
    exact ((hafter.trans (List.sublist_append_right _ _)).cons _).append_left _

/-- Pruning adds no line. -/
theorem pruneImports_sublist (lines code : List (List Char)) :
    (pruneImports lines code).Sublist lines := by
  rw [pruneImports]
  split
  · exact List.Sublist.refl _
  · rename_i b hfind
    exact (tighten_sublist _).trans ((ImportBlock.find?_eq_some_iff.1 hfind).dropUnused_sublist code)

/-- A line that is trimmed at its back. -/
theorem isTrimmed_trimEnd {line : List Char} (h : '\n' ∉ line) : IsTrimmed (Text.trimEnd line) where
  newline_notMem hmem := h ((Text.trimEnd_prefix line).subset hmem)
  last := Text.isBlank_getLast_trimEnd line

/-- The lines of a text of settled lines. -/
theorem lines_unlines_settle {lines : List (List Char)} (h : ∀ line ∈ lines, '\n' ∉ line) :
    Text.lines (unlines (settle lines)) = settle lines := by
  have hlines : ∀ line ∈ settle lines, IsLine line := by
    intro line hline
    obtain ⟨raw, hraw, rfl⟩ := List.mem_map.1 ((settle_sublist lines).subset hline)
    exact (isTrimmed_trimEnd (h raw hraw)).isLine
  have hcut := lines_unlines_append hlines []
  rwa [List.append_nil, Text.lines_nil, List.append_nil] at hcut

/-- A canonical text consists of the settled lines that are left of the text. -/
theorem lines_canonicalize {source out : List Char} (h : canonicalize source = .ok out) :
    ∃ code, blank source = .ok code ∧ out = unlines (Text.lines out) ∧
      Text.lines out = settle (pruneImports (Text.lines source) (Text.lines code)) := by
  rw [canonicalize] at h
  cases hcode : blank source with
  | error fault =>
      rw [hcode] at h
      cases h
  | ok code =>
      rw [hcode] at h
      cases h
      have hlines := lines_unlines_settle fun line hline => Text.newline_notMem_of_mem_lines
        ((pruneImports_sublist (Text.lines source) (Text.lines code)).subset hline)
      exact ⟨code, rfl, by rw [hlines], hlines⟩

/-! ## Only unused imports are dropped -/

/-- Whether a line starts with a comment. -/
def startsComment (line : List Char) : Bool :=
  ['/', '/'].isPrefixOf (Text.trim line) || ['/', '*'].isPrefixOf (Text.trim line)

/-- Whether a line of an import block is more than an unused import. -/
def isWorthKeeping (outside : List (List Char)) (line : List Char) : Bool :=
  startsComment line || !isUnusedImport outside line

/-- The lines that dropping the unused imports leaves of a block: its ends go only if nothing is left
between them. -/
def ImportBlock.remainder (b : ImportBlock) (outside : List (List Char)) : List (List Char) :=
  let kept := b.entries.filter (isWorthKeeping outside)
  if kept.all Text.isAllBlank then [] else b.opening :: kept ++ [b.closing]

/-- The lines with text that the last pass leaves of a text with an import block. -/
theorem textLines_canonicalize {source out code : List Char} {b : ImportBlock}
    (hout : canonicalize source = .ok out) (hcode : blank source = .ok code)
    (hfind : ImportBlock.find? (Text.lines source) = some b) :
    textLines (Text.lines out) = textLines (b.dropUnused (Text.lines code)) := by
  obtain ⟨code', hcode', -, hlines⟩ := lines_canonicalize hout
  cases hcode.symm.trans hcode'
  rw [hlines, textLines_settle, pruneImports, hfind, textLines_tighten]

/-- A blank line is no import. -/
theorem boundName_of_isAllBlank {line : List Char} (h : Text.isAllBlank line = true) :
    boundName line = none := by
  have htrim : Text.trim line = [] := Text.trim_of_isBlank (List.all_eq_true.1 h)
  rw [boundName, htrim]
  rfl

theorem startsComment_of_isAllBlank {line : List Char} (h : Text.isAllBlank line = true) :
    startsComment line = false := by
  have htrim : Text.trim line = [] := Text.trim_of_isBlank (List.all_eq_true.1 h)
  rw [startsComment, htrim]
  rfl

theorem isAllBlank_of_opensImports {line : List Char} (h : opensImports line = true) :
    Text.isAllBlank line = false := by
  rw [← Bool.not_eq_true]
  intro hblank
  rw [opensImports, Text.trim_of_isBlank (List.all_eq_true.1 hblank)] at h
  cases h

/-- A used import is worth keeping and has text. -/
theorem isWorthKeeping_of_isUsedImport {outside : List (List Char)} {line : List Char}
    (h : isUsedImport outside line = true) :
    isWorthKeeping outside line = true ∧ Text.isAllBlank line = false := by
  rw [isUsedImport] at h
  split at h
  · cases h
  · rename_i name hname
    refine ⟨?_, ?_⟩
    · rw [isWorthKeeping, isUnusedImport, hname]
      simp [h]
    · rw [← Bool.not_eq_true]
      intro hblank
      rw [boundName_of_isAllBlank hblank] at hname
      cases hname

namespace ImportBlock

variable {b : ImportBlock} {outside : List (List Char)}

/-- A block with a used import keeps its ends. -/
theorem remainder_of_used (h : b.entries.any (isUsedImport outside) = true) :
    b.remainder outside = b.opening :: b.entries.filter (isWorthKeeping outside) ++ [b.closing] := by
  obtain ⟨line, hline, hused⟩ := List.any_eq_true.1 h
  obtain ⟨hkeep, htext⟩ := isWorthKeeping_of_isUsedImport hused
  rw [remainder, if_neg]
  intro hblank
  rw [List.all_eq_true.1 hblank line (List.mem_filter.2 ⟨hline, hkeep⟩)] at htext
  cases htext

/-- A block leaves no text exactly if it holds nothing that is worth keeping. -/
theorem textLines_remainder_eq_nil_iff (hopening : opensImports b.opening = true) :
    textLines (b.remainder outside) = [] ↔
      ∀ line ∈ b.entries, isWorthKeeping outside line = true → Text.isAllBlank line = true := by
  have hkept : ((b.entries.filter (isWorthKeeping outside)).all Text.isAllBlank = true) ↔
      ∀ line ∈ b.entries, isWorthKeeping outside line = true → Text.isAllBlank line = true := by
    simp only [List.all_eq_true, List.mem_filter, and_imp]
  rw [← hkept, remainder]
  split
  · rename_i hblank
    simp [hblank]
  · rename_i hblank
    refine iff_of_false (fun hnil => ?_) hblank
    have hfirst := textLines_eq_nil_iff.1 hnil b.opening List.mem_cons_self
    rw [isAllBlank_of_opensImports hopening] at hfirst
    cases hfirst

/-- What stays of a text stands around what stays of its block. -/
theorem dropUnused_eq_append (code : List (List Char)) :
    b.dropUnused code = b.before
      ++ (if b.entries.any (isUsedImport (b.outside code)) then
          b.opening :: b.entries.filter (!isUnusedImport (b.outside code) ·) ++ [b.closing]
        else []) ++ b.after := by
  rw [dropUnused]
  split <;> simp

end ImportBlock

/-- Only unused imports of a block are dropped, exactly if no comment of it looks like an import that
is unused, and the block has a used import or nothing but unused ones. -/
theorem canonicalize_drops_only_unused_iff {source out code : List Char} {b : ImportBlock}
    (hout : canonicalize source = .ok out) (hcode : blank source = .ok code)
    (hfind : ImportBlock.find? (Text.lines source) = some b) :
    textLines (Text.lines out)
        = textLines (b.before ++ b.remainder (b.outside (Text.lines code)) ++ b.after) ↔
      (∀ line ∈ b.entries, startsComment line = true →
        isUnusedImport (b.outside (Text.lines code)) line = false) ∧
      (b.entries.any (isUsedImport (b.outside (Text.lines code))) = true ∨
        ∀ line ∈ b.entries, isUnusedImport (b.outside (Text.lines code)) line = true ∨
          Text.isAllBlank line = true) := by
  have hopening := (ImportBlock.find?_eq_some_iff.1 hfind).opening
  rw [textLines_canonicalize hout hcode hfind]
  rw [ImportBlock.dropUnused_eq_append, textLines_append, textLines_append, textLines_append,
    textLines_append, List.append_cancel_right_eq, List.append_cancel_left_eq]
  generalize b.outside (Text.lines code) = outside
  cases hused : b.entries.any (isUsedImport outside) with
  | true =>
      have hworth : ∀ line, (!isUnusedImport outside line) = true →
          isWorthKeeping outside line = true := by
        intro line hline
        rw [isWorthKeeping, hline, Bool.or_true]
      rw [if_pos rfl, b.remainder_of_used hused, textLines_append, textLines_append,
        List.append_cancel_right_eq, textLines_cons_inj, textLines_filter_eq_iff hworth]
      constructor
      · intro hkept
        refine ⟨fun line hline hcomment => ?_, .inl rfl⟩
        rcases hkept line hline (by rw [isWorthKeeping, hcomment, Bool.true_or]) with hstays | hblank
        · simpa using hstays
        · rw [startsComment_of_isAllBlank hblank] at hcomment
          cases hcomment
      · rintro ⟨hcomments, -⟩ line hline hkept
        rw [isWorthKeeping, Bool.or_eq_true] at hkept
        rcases hkept with hcomment | hstays
        · rw [hcomments line hline hcomment]
          exact .inl rfl
        · exact .inl hstays
  | false =>
      rw [if_neg Bool.false_ne_true, textLines_nil, eq_comm,
        b.textLines_remainder_eq_nil_iff hopening]
      constructor
      · intro hkept
        refine ⟨fun line hline hcomment => ?_, .inr fun line hline => ?_⟩
        · have hblank := hkept line hline (by rw [isWorthKeeping, hcomment, Bool.true_or])
          rw [startsComment_of_isAllBlank hblank] at hcomment
          cases hcomment
        · by_cases hunused : isUnusedImport outside line = true
          · exact .inl hunused
          · exact .inr (hkept line hline (by simp [isWorthKeeping, hunused]))
      · rintro ⟨hcomments, hused | hall⟩ line hline hkept
        · cases hused
        · rcases hall line hline with hunused | hblank
          · rw [isWorthKeeping, hunused, Bool.not_true, Bool.or_false] at hkept
            rw [hcomments line hline hkept] at hunused
            cases hunused
          · exact hblank

/-- A text with an import of each kind: one that is used, one that is not, one for its effects only,
and a comment. -/
def mixedSource : List Char :=
  "import (\n\t\"b\"\n\t_ \"c\"\n\t// a\n\t\"a\"\n)\na.X\n".toList

/-- Of these lines only the unused import is dropped. -/
theorem canonicalize_drops_only_unused_iff_mixedSource :
    ∃ out code b, canonicalize mixedSource = .ok out ∧ blank mixedSource = .ok code ∧
      ImportBlock.find? (Text.lines mixedSource) = some b ∧
      b.remainder (b.outside (Text.lines code))
        = ["import (".toList, "\t_ \"c\"".toList, "\t// a".toList, "\t\"a\"".toList, [')']] ∧
      textLines (Text.lines out)
        = textLines (b.before ++ b.remainder (b.outside (Text.lines code)) ++ b.after) := by
  have hout : canonicalize mixedSource
      = .ok "import (\n\t_ \"c\"\n\t// a\n\t\"a\"\n)\na.X\n".toList := rfl
  have hcode : blank mixedSource
      = .ok "import (\n\t   \n\t_    \n\t    \n\t   \n)\na.X\n".toList := rfl
  have hfind : ImportBlock.find? (Text.lines mixedSource) = some
      { before := []
        opening := "import (".toList
        entries := ["\t\"b\"".toList, "\t_ \"c\"".toList, "\t// a".toList, "\t\"a\"".toList]
        closing := [')']
        after := ["a.X".toList] } := rfl
  refine ⟨_, _, _, hout, hcode, hfind, rfl, ?_⟩
  rw [canonicalize_drops_only_unused_iff hout hcode hfind]
  exact ⟨by decide +kernel, .inl rfl⟩

/-- A text that imports a package for its effects only. -/
def effectSource : List Char :=
  "package main\n\nimport (\n\t_ \"embed\"\n)\n".toList

/-- A text with an import in a comment. -/
def commentSource : List Char :=
  "import (\n\t// \"fmt\"\n\t\"os\"\n)\nos.X\n".toList

/-- An import for its effects goes with its block if no other import is used, and an import in a
comment goes like one that is not used. -/
theorem canonicalize_drops_effect_import :
    canonicalize effectSource = .ok "package main\n".toList ∧
      canonicalize commentSource = .ok "import (\n\t\"os\"\n)\nos.X\n".toList :=
  ⟨rfl, rfl⟩

end Program
end Stackwright
