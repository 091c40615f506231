import Mathlib
import Stackwright.Proofs.Program.Idempotence
import Stackwright.Proofs.Program.Lexing
import Stackwright.Proofs.Program.Sweeping

/-!
# Literals of a canonical text

The last pass knows no literals.  It leaves the interpreted ones as they are, because no
blank stands in front of a line end in them, but a raw string may run over lines, and its
lines are trimmed and settled like all others.

The literals count that stand outside the import block, in the text and in its canonical
form.  Each raw string is swept as if it stood alone, so it stays as it is exactly if its
own lines do.

Main results:

- Theorem `LexedLines.settled`: the literals of settled lines.
- Theorem `literalsOutside_append`: the literals around an import block.
- Theorem `canonicalize_keeps_literals_iff`: when a canonical text has the literals of the
  text.
-/

namespace Stackwright
namespace Program

/-! ## Where literals stand -/

/-- Whether a line of a text stands outside an import block.  Lines are counted from zero. -/
def ImportBlock.isOutside (b : ImportBlock) (line : Nat) : Bool :=
  line < b.before.length || b.before.length + b.entries.length + 1 < line

theorem ImportBlock.isOutside_iff {b : ImportBlock} {line : Nat} :
    b.isOutside line = true ↔
      line < b.before.length ∨ b.before.length + b.entries.length + 1 < line := by
  simp [isOutside]

/-- The literals that start on lines with a property. -/
def literalsOn (p : Nat → Bool) (line : Nat) : List Lexeme → List Lexeme
  | [] => []
  | x :: pieces =>
      let rest := literalsOn p (line + x.text.count '\n') pieces
      if x.isLiteral && p line then x :: rest else rest

/-- The literals outside an import block, or all literals if there is none. -/
def literalsOutside (block : Option ImportBlock) (pieces : List Lexeme) : List Lexeme :=
  literalsOn (fun line => block.all (·.isOutside line)) 0 pieces

/-- What is left in a canonical text of the import block of the source, if it has a used import. -/
def keptBlock (source out : List Char) : Option ImportBlock :=
  match blank source, ImportBlock.find? (Text.lines source) with
  | .ok code, some b =>
      if b.entries.any (isUsedImport (b.outside (Text.lines code))) then
        ImportBlock.find? (Text.lines out)
      else none
  | _, _ => none

theorem literalsOn_append (p : Nat → Bool) (line : Nat) (a b : List Lexeme) :
    literalsOn p line (a ++ b)
      = literalsOn p line a ++ literalsOn p (line + (sourceOf a).count '\n') b := by
  induction a generalizing line with
  | nil => rfl
  | cons x a ih =>
      simp only [List.cons_append, literalsOn, ih, sourceOf_cons, List.count_append, Nat.add_assoc]
      split <;> rfl

/-- The literals of lexemes whose lines are alike. -/
theorem literalsOn_eq {p : Nat → Bool} {line : Nat} {pieces : List Lexeme} {keep : Bool}
    (h : ∀ n, line ≤ n → n ≤ line + (sourceOf pieces).count '\n' → p n = keep) :
    literalsOn p line pieces = if keep then literals pieces else [] := by
  induction pieces generalizing line with
  | nil => cases keep <;> rfl
  | cons x pieces ih =>
      rw [sourceOf_cons, List.count_append] at h
      have hrest : literalsOn p (line + x.text.count '\n') pieces
          = if keep then literals pieces else [] :=
        ih fun n hle hn => h n (by omega) (by omega)
      have hline := h line (le_refl _) (by omega)
      rw [literalsOn, hrest, hline]
      cases keep <;> simp [literals, List.filter_cons]

/-! ## Lexemes of whole lines -/

/-- Lexemes that make up lines. -/
structure LexedLines (pieces : List Lexeme) (lines : List (List Char)) : Prop where
  lexed : Lexed pieces []
  source : sourceOf pieces = unlines lines
  lines : ∀ line ∈ lines, '\n' ∉ line

namespace LexedLines

variable {pieces p q : List Lexeme} {lines a b : List (List Char)}

/-- Whole lines are nothing, or a line end is the last of them. -/
theorem eq_nil_or_concat (h : LexedLines pieces lines) :
    pieces = [] ∨ ∃ q, pieces = q ++ [.code '\n'] := by
  rcases List.eq_nil_or_concat lines with rfl | ⟨front, line, rfl⟩
  · cases pieces with
    | nil => exact .inl rfl
    | cons x pieces => exact absurd (List.append_eq_nil_iff.1 h.source).1 x.text_ne_nil
  · have hsource : sourceOf pieces = (unlines front ++ line) ++ ['\n'] := by
      rw [h.source]
      simp [unlines]
    obtain ⟨q, hq, -⟩ := h.lexed.exists_concat_lineEnd hsource
    exact .inr ⟨q, hq⟩

/-- Whole lines are followed by anything. -/
theorem lexed_before (h : LexedLines pieces lines) (rest : List Char) : Lexed pieces rest := by
  rcases h.eq_nil_or_concat with rfl | ⟨q, rfl⟩
  · exact lexed_nil rest
  · obtain ⟨hq, -⟩ := lexed_append.1 h.lexed
    exact lexed_append.2
      ⟨hq.mono fun d hd => .inl hd, Lexeme.lineEnd_endsBefore _, lexed_nil rest⟩

theorem append (hp : LexedLines p a) (hq : LexedLines q b) : LexedLines (p ++ q) (a ++ b) where
  lexed := lexed_append.2 ⟨hp.lexed_before _, hq.lexed⟩
  source := by rw [sourceOf_append, hp.source, hq.source, unlines_append]
  lines := List.forall_mem_append.2 ⟨hp.lines, hq.lines⟩

theorem of_standAlone {code : List Char} (h : StandAlone lines code)
    (hlines : ∀ line ∈ lines, '\n' ∉ line) : ∃ pieces, LexedLines pieces lines := by
  obtain ⟨pieces, hlexed, hsource⟩ := exists_lexed_of_blank ((StandAlone.iff_blank hlines).1 h)
  exact ⟨pieces, hlexed, hsource, hlines⟩

/-- The line ends of whole lines. -/
theorem count_source (h : LexedLines pieces lines) :
    (sourceOf pieces).count '\n' = lines.length := by
  rw [h.source, count_unlines h.lines]

/-- The literals of whole lines that are all alike. -/
theorem literalsOn_eq {f : Nat → Bool} {line : Nat} {keep : Bool} (h : LexedLines pieces lines)
    (hf : ∀ n, line ≤ n → n < line + lines.length → f n = keep) :
    literalsOn f line pieces = if keep then literals pieces else [] := by
  rcases h.eq_nil_or_concat with rfl | ⟨q, rfl⟩
  · cases keep <;> rfl
  · have hcount := h.count_source
    rw [sourceOf_append, List.count_append] at hcount
    -- No literal starts behind the last line end.
    have hlast : (sourceOf [.code '\n']).count '\n' = 1 := rfl
    have hq : literalsOn f line q = if keep then literals q else [] :=
      Program.literalsOn_eq fun n hle hn => hf n hle (by omega)
    rw [literalsOn_append, hq, literals_append]
    cases keep <;> simp [literalsOn, literals, Lexeme.isLiteral]

end LexedLines

/-- The literals around an import block. -/
theorem literalsOutside_append {b : ImportBlock} {p m q : List Lexeme} {r₁ r₂ : List (List Char)}
    (hp : LexedLines p r₁) (hbefore : r₁.length = b.before.length) (hm : LexedLines m r₂)
    (hblock : r₂.length = b.entries.length + 2) :
    literalsOutside (some b) (p ++ (m ++ q)) = literals p ++ literals q := by
  have hfront : ∀ n, 0 ≤ n → n < 0 + r₁.length → (some b).all (·.isOutside n) = true :=
    fun n _ hn => ImportBlock.isOutside_iff.2 (by omega)
  have hmiddle : ∀ n, 0 + r₁.length ≤ n → n < 0 + r₁.length + r₂.length →
      (some b).all (·.isOutside n) = false :=
    fun n hle hn => Bool.eq_false_iff.2 fun h => by
      have := ImportBlock.isOutside_iff.1 h
      omega
  have hback : ∀ n, 0 + r₁.length + r₂.length ≤ n →
      n ≤ 0 + r₁.length + r₂.length + (sourceOf q).count '\n' →
      (some b).all (·.isOutside n) = true :=
    fun n hle _ => ImportBlock.isOutside_iff.2 (by omega)
  rw [literalsOutside, literalsOn_append, literalsOn_append, hp.count_source, hm.count_source,
    hp.literalsOn_eq hfront, hm.literalsOn_eq hmiddle, literalsOn_eq hback]
  simp

/-! ## Settled lexemes -/

namespace LexedLines

variable {pieces : List Lexeme} {lines front back : List (List Char)}

/-- The literals of squashed lines. -/
theorem squashed (tight : Bool) (h : LexedLines pieces lines) :
    ∃ pieces', LexedLines pieces' (squash tight lines) ∧
      literals pieces' = (literals pieces).map (Lexeme.swept tight) := by
  -- The lines stand between line ends, as between two others.
  have hlexed : Lexed (.code '\n' :: pieces) [] := ⟨Lexeme.lineEnd_endsBefore _, h.lexed⟩
  obtain ⟨p, hsource, hp, hliterals⟩ := hlexed.swept tight
  have hcut : sourceOf (.code '\n' :: pieces) = unlines ([] :: lines) ++ [] := by
    rw [List.append_nil, sourceOf_cons, h.source]
    rfl
  rw [hcut, sweep_unlines tight (List.forall_mem_cons.2 ⟨List.not_mem_nil, h.lines⟩)
    List.not_mem_nil, List.append_nil] at hsource
  obtain ⟨pieces', rfl, hsource'⟩ := hp.exists_cons_lineEnd hsource
  exact ⟨pieces', ⟨hp.2, hsource', (thinned_squash tight lines).newline_notMem h.lines⟩, hliterals⟩

/-- Empty lines at the start hold no literal. -/
theorem drop_front (h : LexedLines pieces (front ++ lines)) (hfront : ∀ line ∈ front, line = []) :
    ∃ pieces', LexedLines pieces' lines ∧ literals pieces' = literals pieces := by
  induction front generalizing pieces with
  | nil => exact ⟨pieces, h, rfl⟩
  | cons line front ih =>
      rw [List.forall_mem_cons] at hfront
      obtain ⟨rfl, hfront⟩ := hfront
      obtain ⟨p, rfl, hp⟩ := h.lexed.exists_cons_lineEnd h.source
      obtain ⟨pieces', hpieces', hliterals⟩ :=
        ih ⟨h.lexed.2, hp, (List.forall_mem_cons.1 h.lines).2⟩ hfront
      exact ⟨pieces', hpieces', hliterals⟩

/-- Empty lines at the end hold no literal. -/
theorem drop_back (h : LexedLines pieces (lines ++ back)) (hback : ∀ line ∈ back, line = []) :
    ∃ pieces', LexedLines pieces' lines ∧ literals pieces' = literals pieces := by
  induction back using List.reverseRecOn generalizing pieces with
  | nil => exact ⟨pieces, by rwa [List.append_nil] at h, rfl⟩
  | append_singleton back line ih =>
      rw [List.forall_mem_append, List.forall_mem_singleton] at hback
      obtain ⟨hback, rfl⟩ := hback
      rw [← List.append_assoc] at h
      obtain ⟨p, rfl, hp⟩ := h.lexed.exists_concat_lineEnd (t := unlines (lines ++ back)) (by
        rw [h.source, unlines_append]
        rfl)
      have hlexed := (lexed_append.1 h.lexed).1.mono (t := []) (by simp)
      obtain ⟨pieces', hpieces', hliterals⟩ :=
        ih ⟨hlexed, hp, (List.forall_mem_append.1 h.lines).1⟩ hback
      refine ⟨pieces', hpieces', ?_⟩
      rw [hliterals, literals_append]
      exact (List.append_nil _).symm

/-- The literals of lines at the end of a text. -/
theorem squashedEnd (tight : Bool) (h : LexedLines pieces lines) :
    ∃ pieces', LexedLines pieces' (squashEnd tight lines) ∧
      literals pieces' = (literals pieces).map (Lexeme.swept tight) := by
  obtain ⟨p, hp, hliterals⟩ := h.squashed tight
  obtain ⟨back, hback, heq⟩ := exists_squash_eq tight lines
  rw [heq] at hp
  obtain ⟨pieces', hpieces', hsame⟩ := hp.drop_back hback
  exact ⟨pieces', hpieces', hsame.trans hliterals⟩

/-- The literals of lines without the empty ones at their start. -/
theorem dropWhile_isEmpty (h : LexedLines pieces lines) :
    ∃ pieces', LexedLines pieces' (lines.dropWhile List.isEmpty) ∧
      literals pieces' = literals pieces := by
  rw [← List.takeWhile_append_dropWhile (p := List.isEmpty) (l := lines)] at h
  refine h.drop_front fun line hline => ?_
  simpa using List.mem_takeWhile_imp hline

/-- The literals of settled lines. -/
theorem settled (tight : Bool) {kept : List (List Char)} (h : LexedLines pieces lines)
    (hkept : squashEnd tight lines = squashEnd tight kept) :
    ∃ pieces', LexedLines pieces' (settle (if tight then tighten kept else kept)) ∧
      literals pieces' = (literals pieces).map (Lexeme.swept tight) := by
  obtain ⟨p, hp, hliterals⟩ := h.squashedEnd tight
  rw [hkept] at hp
  obtain ⟨pieces', hpieces', hsame⟩ := hp.dropWhile_isEmpty
  exact ⟨pieces', hpieces', hsame.trans hliterals⟩

end LexedLines

/-! ## Literals around the block -/

/-- A line and the line as it stands in a text are trimmed alike. -/
theorem map_trimEnd_of_isCut {raw lines : List (List Char)} (h : List.Forall₂ IsCut raw lines) :
    raw.map Text.trimEnd = lines.map Text.trimEnd := by
  induction h with
  | nil => rfl
  | cons hline _ ih =>
      rw [List.map_cons, List.map_cons, ih]
      rcases hline with rfl | rfl
      · rfl
      · rw [Text.trimEnd_append_blanks (List.forall_mem_singleton.2 rfl)]

/-- What is dropped as a whole is blank. -/
theorem Thinned.isAllBlank {lines : List (List Char)} (h : Thinned lines []) :
    ∀ line ∈ lines, Text.isAllBlank line = true := by
  generalize hnil : ([] : List (List Char)) = rest at h
  induction h with
  | nil => simp
  | line line _ _ _ => cases hnil
  | blank hw _ ih => exact List.forall_mem_cons.2 ⟨List.all_eq_true.2 hw, ih hnil⟩

/-- A text without a block has no literals inside it. -/
theorem literalsOutside_none (pieces : List Lexeme) :
    literalsOutside none pieces = literals pieces := by
  have hall : ∀ n, 0 ≤ n → n ≤ 0 + (sourceOf pieces).count '\n' →
      (none : Option ImportBlock).all (·.isOutside n) = true := fun _ _ _ => rfl
  exact (literalsOn_eq hall).trans (if_pos rfl)

/-- The line end behind a text is no literal. -/
theorem literalsOutside_concat (block : Option ImportBlock) (pieces : List Lexeme) :
    literalsOutside block (pieces ++ [.code '\n']) = literalsOutside block pieces := by
  rw [literalsOutside, literalsOn_append]
  exact List.append_nil _

/-- The lexemes of a text with a line end behind it. -/
theorem exists_lexedLines {source code : List Char} {raw : List (List Char)}
    (hcode : blank source = .ok code) (hsource : source ++ ['\n'] = unlines raw)
    (hraw : ∀ line ∈ raw, '\n' ∉ line) :
    ∃ pieces, Lexed pieces [] ∧ sourceOf pieces = source ∧
      LexedLines (pieces ++ [.code '\n']) raw := by
  obtain ⟨pieces, hpieces, rfl⟩ := exists_lexed_of_blank hcode
  refine ⟨pieces, hpieces, rfl, lexed_append.2 ⟨hpieces.mono ?_, ?_⟩, ?_, hraw⟩
  · rintro d ⟨⟩
    exact .inr rfl
  · exact ⟨Lexeme.lineEnd_endsBefore _, trivial⟩
  · rw [sourceOf_append, ← hsource]
    rfl

/-- The literals of a canonical text without an import block. -/
theorem exists_swept_of_none {source code out : List Char} (hcode : blank source = .ok code)
    (hlines : Text.lines out = settle (Text.lines source)) :
    ∃ pieces pieces', Lexed pieces [] ∧ sourceOf pieces = source ∧
      LexedLines pieces' (Text.lines out) ∧
      literals pieces' = (literals pieces).map (Lexeme.swept false) := by
  obtain ⟨raw, extra, hraw, hrawlines, hcut, hextra⟩ := exists_raw source
  obtain ⟨pieces, hpieces, hsource, hp⟩ := exists_lexedLines hcode hraw hrawlines
  have hkept : squashEnd false (raw ++ extra) = squashEnd false (Text.lines source) := by
    rw [squashEnd_append_blank _ _ hextra.isAllBlank,
      squashEnd_congr _ (map_trimEnd_of_isCut hcut)]
  obtain ⟨pieces', hpieces', hliterals⟩ := hp.settled false hkept
  refine ⟨pieces, pieces', hpieces, hsource, by rw [hlines]; exact hpieces', ?_⟩
  rw [hliterals, literals_append]
  exact congrArg _ (List.append_nil _)

namespace ImportBlock

variable {b : ImportBlock} {source code out : List Char} {r₁ r₂ r₃ : List (List Char)}

/-- What is left of the lines behind a block does not depend on how they stand in the text. -/
theorem Cuts.squashEnd_append (h : b.Cuts source r₁ r₂ r₃) {front lines : List (List Char)}
    (hfront : front.map Text.trimEnd = lines.map Text.trimEnd) :
    squashEnd true (front ++ r₃) = squashEnd true (lines ++ b.after) := by
  obtain ⟨raw, extra, rfl, hraw, hextra⟩ := h.after
  rw [← List.append_assoc, squashEnd_append_blank _ _ hextra.isAllBlank]
  refine squashEnd_congr _ ?_
  rw [List.map_append, List.map_append, hfront, map_trimEnd_of_isCut hraw]

/-- The lexemes of a text around its block. -/
theorem StandsApart.exists_lexedLines (hapart : b.StandsApart)
    (hsplits : b.Splits (Text.lines source)) (hcuts : b.Cuts source r₁ r₂ r₃)
    (hcode : blank source = .ok code) :
    ∃ pieces p q, Lexed pieces [] ∧ sourceOf pieces = source ∧ LexedLines p r₁ ∧ LexedLines q r₃ ∧
      literalsOutside (some b) pieces = literals p ++ literals q := by
  obtain ⟨_, _, _, _, -, -, -, hfront, hblock, hrest, -⟩ :=
    hapart.exists_code hsplits hcuts hcode
  have hlines := hcuts.lines
  rw [List.forall_mem_append, List.forall_mem_append] at hlines
  obtain ⟨p, hp⟩ := LexedLines.of_standAlone hfront hlines.1
  obtain ⟨m, hm⟩ := LexedLines.of_standAlone hblock hlines.2.1
  obtain ⟨q, hq⟩ := LexedLines.of_standAlone hrest hlines.2.2
  obtain ⟨pieces, hpieces, hsource, hall⟩ := Program.exists_lexedLines hcode hcuts.eq hcuts.lines
  have hparts := hp.append (hm.append hq)
  have hsame := hall.lexed.unique hparts.lexed (hall.source.trans hparts.source.symm)
  refine ⟨pieces, p, q, hpieces, hsource, hp, hq, ?_⟩
  rw [← literalsOutside_concat, hsame]
  exact literalsOutside_append hp hcuts.before.length_eq hm (by simpa using hcuts.block.length_eq)

/-- The literals of a canonical text without the block of the source. -/
theorem StandsApart.exists_swept_of_removed (hapart : b.StandsApart)
    (hsplits : b.Splits (Text.lines source)) (hcode : blank source = .ok code)
    (hlines : Text.lines out = settle (tighten (b.before ++ b.after))) :
    ∃ pieces pieces', Lexed pieces [] ∧ sourceOf pieces = source ∧
      LexedLines pieces' (Text.lines out) ∧
      literals pieces' = (literalsOutside (some b) pieces).map (Lexeme.swept true) := by
  obtain ⟨r₁, r₂, r₃, hcuts⟩ := hsplits.exists_cuts
  obtain ⟨pieces, p, q, hpieces, hsource, hp, hq, hliterals⟩ :=
    hapart.exists_lexedLines hsplits hcuts hcode
  obtain ⟨pieces', hpieces', hswept⟩ := (hp.append hq).settled true
    (hcuts.squashEnd_append (map_trimEnd_of_isCut hcuts.before))
  refine ⟨pieces, pieces', hpieces, hsource, by rw [hlines]; exact hpieces', ?_⟩
  rw [hswept, hliterals, literals_append]

/-- The lines of a block stay a block when the text is settled. -/
theorem Splits.settled_block (h : b.Splits (Text.lines source))
    {front inner back : List (List Char)} (hfront : front ⊆ squash true b.before)
    (hinner : ∀ line ∈ inner, ∃ raw ∈ b.entries, line = Text.trimEnd raw)
    (hlines : Text.lines out
      = front ++ Text.trimEnd b.opening :: (inner ++ Text.trimEnd b.closing :: back)) :
    Splits { before := front, opening := Text.trimEnd b.opening, entries := inner,
             closing := Text.trimEnd b.closing, after := back } (Text.lines out) := by
  refine ⟨hlines, fun line hline => ?_, ?_, fun line hline => ?_, ?_⟩
  · obtain ⟨w, hw, hmem⟩ := (thinned_squash true b.before).exists_mem (hfront hline)
    rw [← opensImports_append_blanks line hw]
    exact h.before _ hmem
  · exact (opensImports_trimEnd b.opening).trans h.opening
  · obtain ⟨raw, hraw, rfl⟩ := hinner line hline
    rw [closesImports_trimEnd]
    exact h.entries raw hraw
  · exact (closesImports_trimEnd b.closing).trans h.closing

/-- The literals of a canonical text with what is left of the block of the source. -/
theorem StandsApart.exists_swept_of_kept (hapart : b.StandsApart)
    (hsplits : b.Splits (Text.lines source)) (hcode : blank source = .ok code)
    {entries : List (List Char)} (hentries : entries ⊆ b.entries)
    (hlines : Text.lines out
      = settle (tighten (b.before ++ b.opening :: (entries ++ b.closing :: b.after)))) :
    ∃ pieces pieces', Lexed pieces [] ∧ sourceOf pieces = source ∧
      LexedLines pieces' (Text.lines out) ∧
      literalsOutside (find? (Text.lines out)) pieces'
        = (literalsOutside (some b) pieces).map (Lexeme.swept true) := by
  obtain ⟨r₁, r₂, r₃, hcuts⟩ := hsplits.exists_cuts
  obtain ⟨pieces, p, q, hpieces, hsource, hp, hq, hliterals⟩ :=
    hapart.exists_lexedLines hsplits hcuts hcode
  obtain ⟨inner, hinner, hsettle⟩ :=
    exists_settle_block hsplits.opening hsplits.closing b.before entries b.after
  rw [hsettle] at hlines
  -- The lines before and behind the block have their literals.
  obtain ⟨p', hp', hpswept⟩ := hp.squashed true
  rw [squash_congr true (map_trimEnd_of_isCut hcuts.before)] at hp'
  obtain ⟨front, hfront, hfrontsame⟩ := hp'.dropWhile_isEmpty
  obtain ⟨back, hback, hbackswept⟩ := hq.squashedEnd true
  rw [← List.nil_append r₃, hcuts.squashEnd_append rfl, List.nil_append] at hback
  -- The block has none that count.
  have hkept : ∀ line ∈ inner, ∃ raw ∈ b.entries, line = Text.trimEnd raw := by
    intro line hline
    obtain ⟨raw, hraw, hline⟩ := hinner line hline
    exact ⟨raw, hentries hraw, hline⟩
  have hfound := hsplits.settled_block (List.dropWhile_suffix _).subset hkept hlines
  obtain ⟨c, hc, -⟩ := hapart.exists_standAlone hsplits
    (fun line hline => Text.newline_notMem_of_mem_lines hline) hfound
    (fun line hline => Text.newline_notMem_of_mem_lines hline) fun line hline => by
      obtain ⟨raw, hraw, rfl⟩ := hkept line hline
      obtain ⟨w, hw, heq⟩ := Text.exists_blanks_trimEnd raw
      exact ⟨w, hw, by rwa [← heq]⟩
  obtain ⟨m, hm⟩ := LexedLines.of_standAlone hc fun line hline =>
    Text.newline_notMem_of_mem_lines (hfound.subset hline)
  refine ⟨pieces, front ++ (m ++ back), hpieces, hsource, ?_, ?_⟩
  · have hall := hfront.append (hm.append hback)
    rw [hlines]
    simpa using hall
  · rw [find?_eq_some_iff.2 hfound, literalsOutside_append hfront rfl hm (by simp), hliterals,
      List.map_append, ← hpswept, ← hfrontsame, hbackswept]

end ImportBlock

/-- The literals of a canonical text: each raw string is swept as if it stood alone. -/
theorem exists_swept_canonicalize {source out : List Char} (hout : canonicalize source = .ok out)
    (hapart : ∀ b, ImportBlock.find? (Text.lines source) = some b → b.StandsApart) :
    ∃ pieces pieces', Lexed pieces [] ∧ sourceOf pieces = source ∧
      Lexed pieces' [] ∧ sourceOf pieces' = out ∧
      literalsOutside (keptBlock source out) pieces'
        = (literalsOutside (ImportBlock.find? (Text.lines source)) pieces).map
            (Lexeme.swept (ImportBlock.find? (Text.lines source)).isSome) := by
  obtain ⟨code, hcode, hunlines, hlines⟩ := lines_canonicalize hout
  cases hfind : ImportBlock.find? (Text.lines source) with
  | none =>
      rw [pruneImports, hfind] at hlines
      obtain ⟨pieces, pieces', hpieces, hsource, hpieces', hswept⟩ :=
        exists_swept_of_none hcode hlines
      refine ⟨pieces, pieces', hpieces, hsource, hpieces'.lexed,
        hpieces'.source.trans hunlines.symm, ?_⟩
      rw [keptBlock, hcode, hfind, literalsOutside_none, literalsOutside_none]
      exact hswept
  | some b =>
      have hsplits := ImportBlock.find?_eq_some_iff.1 hfind
      rw [pruneImports, hfind] at hlines
      simp only at hlines
      by_cases hused : b.entries.any (isUsedImport (b.outside (Text.lines code))) = true
      · rw [ImportBlock.dropUnused, if_pos hused, List.append_assoc] at hlines
        obtain ⟨pieces, pieces', hpieces, hsource, hpieces', hswept⟩ :=
          (hapart b hfind).exists_swept_of_kept hsplits hcode (List.filter_subset_self _) hlines
        refine ⟨pieces, pieces', hpieces, hsource, hpieces'.lexed,
          hpieces'.source.trans hunlines.symm, ?_⟩
        rw [keptBlock, hcode, hfind]
        simp only [hused, if_true]
        exact hswept
      · rw [ImportBlock.dropUnused, if_neg hused] at hlines
        obtain ⟨pieces, pieces', hpieces, hsource, hpieces', hswept⟩ :=
          (hapart b hfind).exists_swept_of_removed hsplits hcode hlines
        refine ⟨pieces, pieces', hpieces, hsource, hpieces'.lexed,
          hpieces'.source.trans hunlines.symm, ?_⟩
        rw [keptBlock, hcode, hfind]
        simp only [hused, Bool.false_eq_true, if_false, literalsOutside_none]
        exact hswept

/-- Lexemes that stay: each raw string among them has settled lines. -/
theorem map_swept_eq_self_iff {tight : Bool} {l : List Lexeme} :
    l.map (Lexeme.swept tight) = l ↔
      ∀ body, .raw body ∈ l →
        IsSteady tight (Text.splitAll '\n' (Lexeme.raw body).text) := by
  have hself := List.map_inj_left (l := l) (f := Lexeme.swept tight) (g := id)
  rw [List.map_id] at hself
  rw [hself]
  constructor
  · intro h body hbody
    exact (sweep_eq_self_iff tight body).1 (Lexeme.raw.inj (h _ hbody))
  · intro h x hx
    cases x with
    | raw body => exact congrArg Lexeme.raw ((sweep_eq_self_iff tight body).2 (h body hx))
    | _ => rfl

/-- The last pass sweeps each raw string outside the import block as if it stood alone and leaves
the other literals there as they are, in the same order.  So a canonical text has the literals of
the text exactly if the lines of its raw strings are settled. -/
theorem canonicalize_keeps_literals_iff {source out : List Char}
    (hout : canonicalize source = .ok out)
    (hapart : ∀ b, ImportBlock.find? (Text.lines source) = some b → b.StandsApart) :
    ∃ pieces pieces', Lexed pieces [] ∧ sourceOf pieces = source ∧
      Lexed pieces' [] ∧ sourceOf pieces' = out ∧
      literalsOutside (keptBlock source out) pieces'
        = (literalsOutside (ImportBlock.find? (Text.lines source)) pieces).map
            (Lexeme.swept (ImportBlock.find? (Text.lines source)).isSome) ∧
      (literalsOutside (keptBlock source out) pieces'
          = literalsOutside (ImportBlock.find? (Text.lines source)) pieces ↔
        ∀ body, .raw body ∈ literalsOutside (ImportBlock.find? (Text.lines source)) pieces →
          IsSteady (ImportBlock.find? (Text.lines source)).isSome
            (Text.splitAll '\n' (Lexeme.raw body).text)) := by
  obtain ⟨pieces, pieces', hpieces, hsource, hpieces', hsource', hswept⟩ :=
    exists_swept_canonicalize hout hapart
  refine ⟨pieces, pieces', hpieces, hsource, hpieces', hsource', hswept, ?_⟩
  rw [hswept]
  exact map_swept_eq_self_iff

/-- A text with a block, a blank at the end of a line and a raw string with an empty line. -/
def quietSource : List Char :=
  "import (\n\"a\"\n)\na.X `\n\n` \n".toList

/-- The text without the blank. -/
def quietOutput : List Char :=
  "import (\n\"a\"\n)\na.X `\n\n`\n".toList

/-- The raw string stays as it is. -/
theorem canonicalize_keeps_literals_iff_quietSource :
    canonicalize quietSource = .ok quietOutput ∧
      (∀ b, ImportBlock.find? (Text.lines quietSource) = some b → b.StandsApart) ∧
      ∃ pieces pieces', Lexed pieces [] ∧ sourceOf pieces = quietSource ∧
        Lexed pieces' [] ∧ sourceOf pieces' = quietOutput ∧
        literalsOutside (ImportBlock.find? (Text.lines quietSource)) pieces
          = [.raw ['\n', '\n']] ∧
        literalsOutside (keptBlock quietSource quietOutput) pieces' = [.raw ['\n', '\n']] := by
  have hout : canonicalize quietSource = .ok quietOutput := rfl
  have hfind : ImportBlock.find? (Text.lines quietSource) = some
      { before := []
        opening := "import (".toList
        entries := ["\"a\"".toList]
        closing := [')']
        after := ["a.X `".toList, [], "` ".toList] } := rfl
  have hapart : ∀ b, ImportBlock.find? (Text.lines quietSource) = some b → b.StandsApart := by
    rw [hfind]
    rintro b ⟨⟩
    refine ⟨⟨_, rfl, rfl⟩, ?_⟩
    rw [List.forall_mem_singleton]
    exact ⟨_, rfl⟩
  obtain ⟨pieces, pieces', hpieces, hsource, hpieces', hsource', -, hiff⟩ :=
    canonicalize_keeps_literals_iff hout hapart
  have hraw : '\x60' ∉ ['\n', '\n'] := by decide
  have hlexed : Lexed ("import (\n".toList.map .code ++ (.quoted '"' ['a'] ::
      ("\n)\na.X ".toList.map .code ++ (.raw ['\n', '\n'] :: " \n".toList.map .code)))) [] :=
    lexed_append.2 ⟨lexed_map_code (by decide) _,
      ⟨.inl rfl, .char (by decide) (by decide) (by decide) .nil⟩,
      lexed_append.2 ⟨lexed_map_code (by decide) _, hraw, lexed_map_code (by decide) _⟩⟩
  have hliterals : literalsOutside (ImportBlock.find? (Text.lines quietSource)) pieces
      = [.raw ['\n', '\n']] := by
    rw [hpieces.unique hlexed hsource]
    rfl
  refine ⟨hout, hapart, pieces, pieces', hpieces, hsource, hpieces', hsource', hliterals, ?_⟩
  rw [hliterals] at hiff
  refine hiff.2 fun body hbody => ?_
  obtain rfl : body = ['\n', '\n'] := by simpa using hbody
  exact (squash_eq_self_iff (by decide)).1 rfl

/-- The lexemes of a line with a raw string. -/
def rawLine (body : List Char) : List Lexeme :=
  "x := ".toList.map .code ++ [.raw body, .code '\n']

theorem lexed_rawLine {body : List Char} (h : '\x60' ∉ body) : Lexed (rawLine body) [] :=
  lexed_append.2
    ⟨lexed_map_code (by decide) _, h, Lexeme.lineEnd_endsBefore _, lexed_nil []⟩

/-- A blank at the end of a line of a raw string is dropped, and so is one of two empty lines. -/
theorem canonicalize_changes_rawString :
    (canonicalize (sourceOf (rawLine "a \nb".toList)) = .ok (sourceOf (rawLine "a\nb".toList)) ∧
      ImportBlock.find? (Text.lines (sourceOf (rawLine "a \nb".toList))) = none ∧
      Lexed (rawLine "a \nb".toList) [] ∧ Lexed (rawLine "a\nb".toList) [] ∧
      literalsOutside none (rawLine "a\nb".toList)
        ≠ literalsOutside none (rawLine "a \nb".toList)) ∧
    (canonicalize (sourceOf (rawLine "a\n\n\nb".toList))
        = .ok (sourceOf (rawLine "a\n\nb".toList)) ∧
      ImportBlock.find? (Text.lines (sourceOf (rawLine "a\n\n\nb".toList))) = none ∧
      Lexed (rawLine "a\n\n\nb".toList) [] ∧ Lexed (rawLine "a\n\nb".toList) [] ∧
      literalsOutside none (rawLine "a\n\nb".toList)
        ≠ literalsOutside none (rawLine "a\n\n\nb".toList)) :=
  ⟨⟨rfl, rfl, lexed_rawLine (by decide), lexed_rawLine (by decide), by decide⟩,
    ⟨rfl, rfl, lexed_rawLine (by decide), lexed_rawLine (by decide), by decide⟩⟩

end Program
end Stackwright
