import Mathlib
import Stackwright.Proofs.Program.Settling
import Stackwright.Proofs.Program.Squeezed
import Stackwright.Proofs.Program.StandAlone

/-!
# White space between backquotes

The passes over white space work line by line.  A line with text that neither opens nor
closes an import block keeps what happens before it apart from what happens behind it.  A
line with a backquote is such a line, so what becomes of the text between two backquotes
depends on nothing else: of its first line the blanks at the end go, and of the lines in
between the empty ones, so far as they follow each other or stand at an end of an import
block.  A raw string is such a text.

Main results:

- Theorem `squash_append_cons`: lines are taken apart at a line with text.
- Theorem `sweep_backquote`: a text is taken apart at a backquote.
- Theorem `Lexed.swept`: the literals of a text behind the passes over white space.
- Theorem `sweep_eq_self_iff`: the raw strings that stay as they are.
-/

namespace Stackwright
namespace Program

/-! ## Lines taken apart -/

/-- Lines without two empty lines in a row. -/
def collapse (lines : List (List Char)) : List (List Char) :=
  lines.destutter fun a b => a = [] → b ≠ []

/-- What the passes over white space leave of lines between two others with text.  If the text has
an import block, the lines are tightened first. -/
def squash (tight : Bool) (lines : List (List Char)) : List (List Char) :=
  collapse ((if tight then tighten lines else lines).map Text.trimEnd)

/-- A line with text that neither opens nor closes an import block. -/
structure IsSolid (line : List Char) : Prop where
  text : Text.isAllBlank line = false
  opens : opensImports line = false
  closes : closesImports line = false

/-- An empty line is left out in front of another one. -/
theorem collapse_cons (line : List Char) (rest : List (List Char)) :
    collapse (line :: rest) =
      if line = [] ∧ rest.head? = some [] then collapse rest else line :: collapse rest := by
  cases rest with
  | nil => simp [collapse]
  | cons next rest =>
      rw [collapse, List.destutter_cons_cons, collapse, List.destutter_cons']
      by_cases hline : line = [] ∧ next = []
      · rw [if_neg (by simp [hline]), if_pos (by simp [hline]), hline.1, hline.2]
      · rw [if_pos (by simpa using hline), if_neg (by simpa using hline)]

theorem head?_collapse (lines : List (List Char)) : (collapse lines).head? = lines.head? := by
  induction lines with
  | nil => rfl
  | cons line lines ih =>
      rw [collapse_cons]
      split
      · rename_i hempty
        rw [ih, hempty.2, hempty.1]
        rfl
      · rfl

/-- Empty lines do not follow each other over a line with text. -/
theorem collapse_append_cons (a b : List (List Char)) {line : List Char} (h : line ≠ []) :
    collapse (a ++ line :: b) = collapse a ++ line :: collapse b := by
  induction a with
  | nil =>
      rw [List.nil_append, collapse_cons, if_neg fun hempty => h hempty.1]
      rfl
  | cons first a ih =>
      have hhead : (a ++ line :: b).head? = some [] ↔ a.head? = some [] := by
        cases a <;> simp [h]
      rw [List.cons_append, collapse_cons, collapse_cons, ih]
      simp only [hhead]
      split <;> rfl

/-- Collapsing leaves lines out and adds none. -/
theorem collapse_sublist (lines : List (List Char)) : (collapse lines).Sublist lines :=
  List.destutter_sublist _ lines

/-- Before a line with text lines are settled as in the middle of a text. -/
theorem foldr_settleStep_append_cons (a b : List (List Char)) {line : List Char} (h : line ≠ []) :
    (a ++ line :: b).foldr settleStep [] = collapse a ++ line :: b.foldr settleStep [] := by
  induction a with
  | nil =>
      cases line with
      | nil => exact absurd rfl h
      | cons c line => rfl
  | cons first a ih =>
      rw [List.cons_append, List.foldr_cons, ih, collapse_cons, ← head?_collapse a]
      cases first with
      | cons c first => rfl
      | nil =>
          cases hfirst : collapse a with
          | nil =>
              cases line with
              | nil => exact absurd rfl h
              | cons c line => rfl
          | cons next rest => cases next <;> rfl

/-- At the end of a text settling drops an empty line more. -/
theorem exists_collapse_eq (lines : List (List Char)) :
    ∃ back, (∀ line ∈ back, line = []) ∧ collapse lines = lines.foldr settleStep [] ++ back := by
  induction lines with
  | nil => exact ⟨[], by simp, rfl⟩
  | cons line lines ih =>
      obtain ⟨back, hback, heq⟩ := ih
      rw [List.foldr_cons, collapse_cons, ← head?_collapse lines, heq]
      cases line with
      | cons c line => exact ⟨back, hback, rfl⟩
      | nil =>
          cases lines.foldr settleStep [] with
          | cons next rest => cases next <;> exact ⟨back, hback, rfl⟩
          | nil =>
              cases back with
              | nil => exact ⟨[[]], by simp, rfl⟩
              | cons first back =>
                  cases hback first List.mem_cons_self
                  exact ⟨[] :: back, hback, rfl⟩

/-! ### Tight lines -/

/-- A line with text is not taken back, whatever comes behind it. -/
theorem exists_tightenStep {base : List Char} (hbase : Text.isAllBlank base = false)
    (done : List (List Char)) (line : List Char) :
    ∃ done', done' ⊆ line :: done ∧ ∀ earlier : List (List Char),
      tightenStep (done ++ base :: earlier) line = done' ++ base :: earlier := by
  cases done with
  | nil =>
      by_cases hdrop : Text.isAllBlank line = true ∧ opensImports base = true
      · exact ⟨[], by simp, fun earlier => by simp [tightenStep, hdrop]⟩
      · refine ⟨[line], by simp, fun earlier => ?_⟩
        rw [List.nil_append, tightenStep, if_neg (by simpa using hdrop), if_neg (by simp [hbase])]
        rfl
  | cons last done =>
      by_cases hdrop : Text.isAllBlank line = true ∧ opensImports last = true
      · exact ⟨last :: done, by simp, fun earlier => by simp [tightenStep, hdrop]⟩
      · by_cases hback : closesImports line = true ∧ Text.isAllBlank last = true
        · refine ⟨line :: done, by simp, fun earlier => ?_⟩
          rw [List.cons_append, tightenStep, if_neg (by simpa using hdrop),
            if_pos (by simp [hback])]
          rfl
        · refine ⟨line :: last :: done, by simp, fun earlier => ?_⟩
          rw [List.cons_append, tightenStep, if_neg (by simpa using hdrop),
            if_neg (by simpa using hback)]
          rfl

/-- Lines behind a line with text leave what is before it. -/
theorem exists_foldl_tightenStep {base : List Char} (hbase : Text.isAllBlank base = false)
    (lines done : List (List Char)) :
    ∃ done', done' ⊆ lines ++ done ∧ ∀ earlier : List (List Char),
      lines.foldl tightenStep (done ++ base :: earlier) = done' ++ base :: earlier := by
  induction lines generalizing done with
  | nil => exact ⟨done, by simp, fun earlier => rfl⟩
  | cons line lines ih =>
      obtain ⟨next, hnext, hstep⟩ := exists_tightenStep hbase done line
      obtain ⟨done', hdone', hfold⟩ := ih next
      refine ⟨done', fun x hx => ?_, fun earlier => by rw [List.foldl_cons, hstep, hfold]⟩
      rcases List.mem_append.1 (hdone' hx) with hx | hx
      · simp [hx]
      · rcases List.mem_cons.1 (hnext hx) with rfl | hx
        · simp
        · simp [hx]

/-- Behind a line with text that opens no block, lines are tightened as if they stood alone. -/
theorem foldl_tightenStep_append {base : List Char} (hbase : Text.isAllBlank base = false)
    (hopens : opensImports base = false) (lines done earlier : List (List Char)) :
    lines.foldl tightenStep (done ++ base :: earlier)
      = lines.foldl tightenStep done ++ base :: earlier := by
  induction lines generalizing done with
  | nil => rfl
  | cons line lines ih =>
      have hstep : tightenStep (done ++ base :: earlier) line
          = tightenStep done line ++ base :: earlier := by
        cases done with
        | nil => simp [tightenStep, hbase, hopens]
        | cons last done =>
            simp only [List.cons_append, tightenStep]
            split
            · rfl
            · split <;> rfl
      rw [List.foldl_cons, List.foldl_cons, hstep, ih]

/-- A line with text that closes no block is added to the lines before it. -/
theorem tightenStep_eq_cons {line : List Char} (htext : Text.isAllBlank line = false)
    (hcloses : closesImports line = false) (done : List (List Char)) :
    tightenStep done line = line :: done := by
  cases done with
  | nil => rfl
  | cons last done => simp [tightenStep, htext, hcloses]

/-- Lines are tightened in two parts around a solid line. -/
theorem tighten_append_cons (a b : List (List Char)) {line : List Char} (h : IsSolid line) :
    tighten (a ++ line :: b) = tighten a ++ line :: tighten b := by
  have hback := foldl_tightenStep_append h.text h.opens b [] (a.foldl tightenStep [])
  rw [List.nil_append] at hback
  rw [tighten, List.foldl_append, List.foldl_cons, tightenStep_eq_cons h.text h.closes, hback]
  simp [tighten]

/-- The line that opens a block of imports does not close one. -/
theorem closesImports_of_opensImports {line : List Char} (h : opensImports line = true) :
    closesImports line = false := by
  rw [opensImports, beq_iff_eq] at h
  rw [closesImports, h]
  decide

theorem opensImports_of_closesImports {line : List Char} (h : closesImports line = true) :
    opensImports line = false := by
  rw [← Bool.not_eq_true]
  intro hopens
  rw [closesImports_of_opensImports hopens] at h
  cases h

/-- The end of a block takes at most one line back. -/
theorem exists_tightenStep_closing {opening closing : List Char}
    (hopening : Text.isAllBlank opening = false) (hclosing : closesImports closing = true)
    (done earlier : List (List Char)) :
    ∃ done', done' ⊆ done ∧ tightenStep (done ++ opening :: earlier) closing
      = closing :: (done' ++ opening :: earlier) := by
  have htext := isAllBlank_of_closesImports hclosing
  cases done with
  | nil => exact ⟨[], List.Subset.refl _, by simp [tightenStep, htext, hopening]⟩
  | cons last done =>
      cases hblank : Text.isAllBlank last with
      | true => exact ⟨done, by simp, by simp [tightenStep, htext, hclosing, hblank]⟩
      | false => exact ⟨last :: done, by simp, by simp [tightenStep, htext, hblank]⟩

/-- Lines are tightened before a block, in it and behind it. -/
theorem exists_tighten_block {opening closing : List Char} (hopening : opensImports opening = true)
    (hclosing : closesImports closing = true) (before entries after : List (List Char)) :
    ∃ entries', entries' ⊆ entries ∧
      tighten (before ++ opening :: (entries ++ closing :: after))
        = tighten before ++ opening :: (entries' ++ closing :: tighten after) := by
  have hopentext := isAllBlank_of_opensImports hopening
  have hclosetext := isAllBlank_of_closesImports hclosing
  obtain ⟨inner, hinner, hfold⟩ := exists_foldl_tightenStep hopentext entries []
  obtain ⟨inner', hinner', hstep⟩ :=
    exists_tightenStep_closing hopentext hclosing inner (before.foldl tightenStep [])
  have hafter := foldl_tightenStep_append hclosetext (opensImports_of_closesImports hclosing) after
    [] (inner' ++ opening :: before.foldl tightenStep [])
  have hentries := hfold (before.foldl tightenStep [])
  rw [List.nil_append] at hentries hafter
  refine ⟨inner'.reverse, fun line hline => ?_, ?_⟩
  · simpa using hinner (hinner' (List.mem_reverse.1 hline))
  · rw [tighten, List.foldl_append, List.foldl_cons,
      tightenStep_eq_cons hopentext (closesImports_of_opensImports hopening), List.foldl_append,
      hentries, List.foldl_cons, hstep, hafter]
    simp [tighten]

/-- Blanks at the end of a line do not make it blank. -/
theorem isAllBlank_trimEnd (line : List Char) :
    Text.isAllBlank (Text.trimEnd line) = Text.isAllBlank line := by
  rw [Bool.eq_iff_iff, isAllBlank_iff_trimEnd_eq_nil, isAllBlank_iff_trimEnd_eq_nil,
    Text.trimEnd_idem]

theorem opensImports_trimEnd (line : List Char) :
    opensImports (Text.trimEnd line) = opensImports line := by
  rw [opensImports, Text.trim_trimEnd, opensImports]

theorem closesImports_trimEnd (line : List Char) :
    closesImports (Text.trimEnd line) = closesImports line := by
  rw [closesImports, Text.trim_trimEnd, closesImports]

/-- Lines are tightened alike before and after they are trimmed. -/
theorem tighten_map_trimEnd (lines : List (List Char)) :
    tighten (lines.map Text.trimEnd) = (tighten lines).map Text.trimEnd := by
  have hstep : ∀ (done : List (List Char)) (line : List Char),
      tightenStep (done.map Text.trimEnd) (Text.trimEnd line)
        = (tightenStep done line).map Text.trimEnd := by
    intro done line
    cases done with
    | nil => rfl
    | cons last done =>
        simp only [List.map_cons, tightenStep, isAllBlank_trimEnd, opensImports_trimEnd,
          closesImports_trimEnd]
        split
        · rfl
        · split <;> rfl
  have hfold : ∀ done : List (List Char),
      (lines.map Text.trimEnd).foldl tightenStep (done.map Text.trimEnd)
        = (lines.foldl tightenStep done).map Text.trimEnd := by
    induction lines with
    | nil => exact fun done => rfl
    | cons line lines ih =>
        intro done
        rw [List.map_cons, List.foldl_cons, List.foldl_cons, hstep, ih]
  rw [tighten, tighten, List.map_reverse]
  exact congrArg List.reverse (hfold [])

/-! ### Squashed lines -/

/-- What is left of lines depends on them without the blanks at their ends. -/
theorem squash_congr (tight : Bool) {a b : List (List Char)}
    (h : a.map Text.trimEnd = b.map Text.trimEnd) : squash tight a = squash tight b := by
  cases tight with
  | false => exact congrArg collapse h
  | true => simp only [squash, if_true, ← tighten_map_trimEnd, h]

theorem trimEnd_ne_nil {line : List Char} (h : Text.isAllBlank line = false) :
    Text.trimEnd line ≠ [] := by
  intro hnil
  rw [← isAllBlank_iff_trimEnd_eq_nil, h] at hnil
  cases hnil

/-- Lines are taken apart at a line with text. -/
theorem squash_append_cons (tight : Bool) (a b : List (List Char)) {line : List Char}
    (h : IsSolid line) :
    squash tight (a ++ line :: b) = squash tight a ++ Text.trimEnd line :: squash tight b := by
  have hcut : (if tight then tighten (a ++ line :: b) else a ++ line :: b)
      = (if tight then tighten a else a) ++ line :: (if tight then tighten b else b) := by
    cases tight with
    | false => rfl
    | true => exact tighten_append_cons a b h
  rw [squash, hcut, List.map_append, List.map_cons,
    collapse_append_cons _ _ (trimEnd_ne_nil h.text)]
  rfl

/-- Squashed lines are thinned ones. -/
theorem thinned_squash (tight : Bool) (lines : List (List Char)) :
    Thinned lines (squash tight lines) := by
  have htight : Thinned lines (if tight then tighten lines else lines) := by
    cases tight with
    | false => exact .refl _
    | true => exact thinned_tighten lines
  have hcollapse : ∀ rest : List (List Char), Thinned rest (collapse rest) := by
    intro rest
    induction rest with
    | nil => exact .nil
    | cons line rest ih =>
        rw [collapse_cons]
        split
        · rename_i hempty
          exact .blank (by simp [hempty.1]) ih
        · exact .keep line ih
  exact htight.trans ((thinned_map_trimEnd _).trans (hcollapse _))

/-! ### The end of a text -/

/-- What the passes over white space leave of lines between a line with text and the end of a
text. -/
def squashEnd (tight : Bool) (lines : List (List Char)) : List (List Char) :=
  ((if tight then tighten lines else lines).map Text.trimEnd).foldr settleStep []

/-- Squashed lines differ from those that are squashed to their end in empty lines only. -/
theorem exists_squash_eq (tight : Bool) (lines : List (List Char)) :
    ∃ back, (∀ line ∈ back, line = []) ∧ squash tight lines = squashEnd tight lines ++ back :=
  exists_collapse_eq _

/-- Only the blanks at the ends of lines are lost before they are squashed. -/
theorem squashEnd_congr (tight : Bool) {a b : List (List Char)}
    (h : a.map Text.trimEnd = b.map Text.trimEnd) : squashEnd tight a = squashEnd tight b := by
  cases tight with
  | false => exact congrArg (List.foldr settleStep []) h
  | true => simp only [squashEnd, if_true, ← tighten_map_trimEnd, h]

/-- Blank lines at the end of a text are settled to nothing. -/
theorem foldr_settleStep_blank {back : List (List Char)}
    (h : ∀ line ∈ back, Text.isAllBlank line = true) :
    (back.map Text.trimEnd).foldr settleStep [] = [] := by
  induction back with
  | nil => rfl
  | cons line back ih =>
      rw [List.forall_mem_cons, isAllBlank_iff_trimEnd_eq_nil] at h
      rw [List.map_cons, List.foldr_cons, ih h.2, h.1]
      rfl

/-- A blank line is dropped or added to the lines before it. -/
theorem tightenStep_blank {line : List Char} (h : Text.isAllBlank line = true)
    (done : List (List Char)) :
    tightenStep done line = done ∨ tightenStep done line = line :: done := by
  cases done with
  | nil => exact .inr rfl
  | cons last done =>
      have hcloses : closesImports line = false := by
        rw [← Bool.not_eq_true]
        intro hcloses
        rw [isAllBlank_of_closesImports hcloses] at h
        cases h
      simp only [tightenStep, hcloses, Bool.false_and, Bool.false_eq_true, if_false]
      split
      · exact .inl rfl
      · exact .inr rfl

/-- Blank lines at the end leave blank lines at the end. -/
theorem exists_tighten_append_blank (lines : List (List Char)) {extra : List (List Char)}
    (h : ∀ line ∈ extra, Text.isAllBlank line = true) :
    ∃ back, (∀ line ∈ back, Text.isAllBlank line = true) ∧
      tighten (lines ++ extra) = tighten lines ++ back := by
  have hfold : ∀ done : List (List Char), ∃ back, (∀ line ∈ back, Text.isAllBlank line = true) ∧
      (extra.foldl tightenStep done).reverse = done.reverse ++ back := by
    induction extra with
    | nil => exact fun done => ⟨[], by simp, by simp⟩
    | cons line extra ih =>
        rw [List.forall_mem_cons] at h
        intro done
        obtain ⟨back, hback, heq⟩ := ih h.2 (tightenStep done line)
        rw [List.foldl_cons, heq]
        rcases tightenStep_blank h.1 done with hstep | hstep
        · exact ⟨back, hback, by rw [hstep]⟩
        · exact ⟨line :: back, List.forall_mem_cons.2 ⟨h.1, hback⟩, by simp [hstep]⟩
  rw [tighten, List.foldl_append]
  exact hfold _

/-- Blank lines at the end of a text are dropped. -/
theorem squashEnd_append_blank (tight : Bool) (lines : List (List Char))
    {extra : List (List Char)} (h : ∀ line ∈ extra, Text.isAllBlank line = true) :
    squashEnd tight (lines ++ extra) = squashEnd tight lines := by
  obtain ⟨back, hback, heq⟩ : ∃ back, (∀ line ∈ back, Text.isAllBlank line = true) ∧
      (if tight then tighten (lines ++ extra) else lines ++ extra)
        = (if tight then tighten lines else lines) ++ back := by
    cases tight with
    | false => exact ⟨extra, h, rfl⟩
    | true => exact exists_tighten_append_blank lines h
  rw [squashEnd, heq, List.map_append, List.foldr_append, foldr_settleStep_blank hback, squashEnd]

/-- The lines of a text are settled before a block, in it and behind it. -/
theorem exists_settle_block {opening closing : List Char} (hopening : opensImports opening = true)
    (hclosing : closesImports closing = true) (before entries after : List (List Char)) :
    ∃ entries', (∀ line ∈ entries', ∃ raw ∈ entries, line = Text.trimEnd raw) ∧
      settle (tighten (before ++ opening :: (entries ++ closing :: after)))
        = (squash true before).dropWhile List.isEmpty ++ Text.trimEnd opening ::
          (entries' ++ Text.trimEnd closing :: squashEnd true after) := by
  have hopen := trimEnd_ne_nil (isAllBlank_of_opensImports hopening)
  have hclose := trimEnd_ne_nil (isAllBlank_of_closesImports hclosing)
  obtain ⟨inner, hinner, heq⟩ := exists_tighten_block hopening hclosing before entries after
  refine ⟨collapse (inner.map Text.trimEnd), fun line hline => ?_, ?_⟩
  · obtain ⟨raw, hraw, rfl⟩ := List.mem_map.1 ((collapse_sublist _).subset hline)
    exact ⟨raw, hinner hraw, rfl⟩
  · have hdrop : ∀ a b : List (List Char), (a ++ Text.trimEnd opening :: b).dropWhile List.isEmpty
        = a.dropWhile List.isEmpty ++ Text.trimEnd opening :: b := by
      intro a b
      rw [List.dropWhile_append]
      split
      · rename_i hempty
        rw [List.isEmpty_iff.1 hempty, List.dropWhile_cons_of_neg (by simpa using hopen)]
        rfl
      · rfl
    rw [heq, settle, List.map_append, List.map_cons, List.map_append, List.map_cons,
      foldr_settleStep_append_cons _ _ hopen, foldr_settleStep_append_cons _ _ hclose, hdrop]
    rfl

/-! ## Texts between backquotes -/

/-- What the passes over white space leave of a text between two backquotes.  Its first line goes on
from the one, and its last line goes on to the other. -/
def sweep (tight : Bool) (text : List Char) : List Char :=
  let lines := Text.splitAll '\n' text
  match lines.dropLast with
  | [] => text
  | first :: middle => unlines (Text.trimEnd first :: squash tight middle) ++ lines.getLastD []

/-- A text of lines is cut into these lines. -/
theorem splitAll_unlines {raw : List (List Char)} {tail : List Char}
    (hraw : ∀ line ∈ raw, '\n' ∉ line) (htail : '\n' ∉ tail) :
    Text.splitAll '\n' (unlines raw ++ tail) = raw ++ [tail] := by
  induction raw with
  | nil => exact Text.splitAll_of_notMem htail
  | cons line raw ih =>
      rw [List.forall_mem_cons] at hraw
      rw [unlines_cons, List.append_assoc, List.cons_append, Text.splitAll_append,
        Text.splitAll_of_notMem hraw.1, ih hraw.2]
      rfl

/-- A text within a line is not swept. -/
theorem sweep_of_notMem (tight : Bool) {text : List Char} (h : '\n' ∉ text) :
    sweep tight text = text := by
  rw [sweep, Text.splitAll_of_notMem h]
  rfl

/-- Lines are swept at their ends, and those in the middle are squashed. -/
theorem sweep_unlines (tight : Bool) {first : List Char} {middle : List (List Char)}
    {tail : List Char} (hlines : ∀ line ∈ first :: middle, '\n' ∉ line) (htail : '\n' ∉ tail) :
    sweep tight (unlines (first :: middle) ++ tail)
      = unlines (Text.trimEnd first :: squash tight middle) ++ tail := by
  rw [sweep, splitAll_unlines hlines htail]
  simp only [List.dropLast_concat, List.getLastD_concat]

/-- A line with a backquote is solid. -/
theorem isSolid_of_backquote {line : List Char} (h : '\x60' ∈ line) : IsSolid line := by
  have hblank : Text.isBlank '\x60' = false := by decide
  have htrim : '\x60' ∈ Text.trim line := by
    obtain ⟨front, back, rfl⟩ := List.append_of_mem h
    rw [Text.trim_append_cons hblank]
    simp
  refine ⟨?_, ?_, ?_⟩
  · rw [← Bool.not_eq_true, Text.isAllBlank, List.all_eq_true]
    exact fun hall => absurd (hall _ h) (by decide)
  · rw [← Bool.not_eq_true, opensImports, beq_iff_eq]
    intro heq
    rw [heq] at htrim
    exact absurd htrim (by decide)
  · rw [← Bool.not_eq_true, closesImports, beq_iff_eq]
    intro heq
    rw [heq] at htrim
    exact absurd htrim (by decide)

/-- A text is taken apart at a backquote. -/
theorem sweep_backquote (tight : Bool) (a b : List Char) :
    sweep tight (a ++ '\x60' :: b) = sweep tight a ++ '\x60' :: sweep tight b := by
  have hblank : Text.isBlank '\x60' = false := by decide
  obtain ⟨raw, tail, rfl, hraw, htail⟩ := exists_unlines a
  obtain ⟨raw', tail', rfl, hraw', htail'⟩ := exists_unlines b
  cases raw' with
  | nil =>
      have hline : '\n' ∉ tail ++ '\x60' :: tail' := by simp [htail, htail']
      have hcut : unlines raw ++ tail ++ '\x60' :: (unlines [] ++ tail')
          = unlines raw ++ (tail ++ '\x60' :: tail') := by
        simp [unlines]
      have hback : sweep tight (unlines [] ++ tail') = tail' := sweep_of_notMem tight htail'
      rw [hcut, hback]
      cases raw with
      | nil =>
          have hfront : sweep tight (unlines [] ++ tail) = tail := sweep_of_notMem tight htail
          rw [hfront]
          exact sweep_of_notMem tight hline
      | cons first middle =>
          rw [sweep_unlines tight hraw hline, sweep_unlines tight hraw htail, List.append_assoc]
  | cons first' middle' =>
      -- The line with the backquote goes on from the last line of `a` to the first one of `b`.
      rw [List.forall_mem_cons] at hraw'
      have hline : '\n' ∉ tail ++ '\x60' :: first' := by simp [htail, hraw'.1]
      have hcut : unlines raw ++ tail ++ '\x60' :: (unlines (first' :: middle') ++ tail')
          = unlines (raw ++ (tail ++ '\x60' :: first') :: middle') ++ tail' := by
        simp [unlines]
      have hsolid : IsSolid (tail ++ '\x60' :: first') := isSolid_of_backquote (by simp)
      rw [hcut, sweep_unlines tight (List.forall_mem_cons.2 hraw') htail']
      cases raw with
      | nil =>
          have hfront : sweep tight (unlines [] ++ tail) = tail := sweep_of_notMem tight htail
          rw [List.nil_append, sweep_unlines tight (List.forall_mem_cons.2 ⟨hline, hraw'.2⟩) htail',
            hfront, Text.trimEnd_append hblank]
          simp [unlines]
      | cons first middle =>
          rw [List.forall_mem_cons] at hraw
          have hlines : ∀ line ∈ first :: (middle ++ (tail ++ '\x60' :: first') :: middle'),
              '\n' ∉ line := by
            rw [List.forall_mem_cons, List.forall_mem_append, List.forall_mem_cons]
            exact ⟨hraw.1, hraw.2, hline, hraw'.2⟩
          rw [List.cons_append, sweep_unlines tight hlines htail',
            sweep_unlines tight (List.forall_mem_cons.2 hraw) htail,
            squash_append_cons tight _ _ hsolid, Text.trimEnd_append hblank]
          simp [unlines]

/-- Blanks in front of line ends are all that goes. -/
theorem squeezed_sweep (tight : Bool) (text : List Char) : Squeezed text (sweep tight text) := by
  obtain ⟨raw, tail, rfl, hraw, htail⟩ := exists_unlines text
  cases raw with
  | nil =>
      have hswept : sweep tight (unlines [] ++ tail) = tail := sweep_of_notMem tight htail
      rw [hswept]
      exact .refl _
  | cons first middle =>
      rw [sweep_unlines tight hraw htail]
      obtain ⟨w, hw, heq⟩ := Text.exists_blanks_trimEnd first
      have hmiddle := (thinned_squash tight middle).squeezed tail
      have hfirst := Squeezed.append (.refl (Text.trimEnd first)) (hmiddle.blanks hw)
      rw [← List.append_assoc, ← heq] at hfirst
      simpa [unlines_cons] using hfirst

/-! ## Literals -/

/-- What the passes over white space leave of a lexeme outside comments. -/
def Lexeme.swept (tight : Bool) : Lexeme → Lexeme
  | .raw body => .raw (sweep tight body)
  | x => x

theorem Lexeme.swept_of_isRaw (tight : Bool) {x : Lexeme} (h : x.isRaw = false) :
    x.swept tight = x := by
  cases x with
  | raw body => cases h
  | _ => rfl

/-- The literals of lexemes are those of both parts. -/
theorem literals_append (p q : List Lexeme) : literals (p ++ q) = literals p ++ literals q :=
  List.filter_append p q

/-- The literals of a text behind the passes over white space: each raw string is swept as if it
stood alone. -/
theorem Lexed.swept (tight : Bool) {p : List Lexeme} {rest : List Char} (hp : Lexed p rest) :
    ∃ p', sourceOf p' = sweep tight (sourceOf p) ∧ Lexed p' rest ∧
      literals p' = (literals p).map (Lexeme.swept tight) := by
  -- The lexemes in front of the next raw string.
  suffices h : ∀ front : List Lexeme, (∀ x ∈ front, x.isRaw = false) → Lexed (front ++ p) rest →
      ∃ p', sourceOf p' = sweep tight (sourceOf (front ++ p)) ∧ Lexed p' rest ∧
        literals p' = (literals (front ++ p)).map (Lexeme.swept tight) from h [] (by simp) hp
  clear hp
  have hkeep : ∀ front : List Lexeme, (∀ x ∈ front, x.isRaw = false) →
      (literals front).map (Lexeme.swept tight) = literals front := by
    intro front hfront
    have hmap : (literals front).map (Lexeme.swept tight) = (literals front).map id :=
      List.map_congr_left fun x hx =>
        Lexeme.swept_of_isRaw tight (hfront x (List.mem_filter.1 hx).1)
    rw [hmap, List.map_id]
  induction p with
  | nil =>
      intro front hfront h
      rw [List.append_nil] at h ⊢
      obtain ⟨p', hsource, hp', hliterals⟩ :=
        h.squeezed hfront (squeezed_sweep tight _) fun d hd => .inl hd
      exact ⟨p', hsource, hp', by rw [hliterals, hkeep front hfront]⟩
  | cons x p ih =>
      intro front hfront h
      by_cases hx : x.isRaw = true
      · cases x with
        | raw body =>
            obtain ⟨hlex, hbody, hp⟩ := lexed_append.1 h
            obtain ⟨p₁, hsource₁, hp₁, hliterals₁⟩ := hlex.squeezed hfront (squeezed_sweep tight _)
              (r := '\x60' :: (sweep tight body ++ '\x60' :: (sweep tight (sourceOf p) ++ rest)))
              fun d hd => .inl hd
            obtain ⟨p₂, hsource₂, hp₂, hliterals₂⟩ := ih [] (by simp) hp
            rw [List.nil_append] at hsource₂ hliterals₂
            refine ⟨p₁ ++ .raw (sweep tight body) :: p₂, ?_, ?_, ?_⟩
            · simp [hsource₁, hsource₂, Lexeme.text, sweep_backquote]
            · have hends : '\x60' ∉ sweep tight body :=
                fun hmem => hbody ((squeezed_sweep tight body).subset hmem)
              exact lexed_append.2 ⟨by simpa [Lexeme.text, hsource₂] using hp₁, hends, hp₂⟩
            · rw [literals_append, literals_append, List.map_append, hkeep front hfront, hliterals₁]
              exact congrArg (fun l => literals front ++ .raw (sweep tight body) :: l) hliterals₂
        | _ => cases hx
      · rw [List.append_cons] at h ⊢
        refine ih (front ++ [x]) ?_ h
        rw [List.forall_mem_append, List.forall_mem_singleton]
        exact ⟨hfront, by simpa using hx⟩

/-! ## Raw strings that stay -/

/-- Lines that the passes over white space leave as they are between two others with text. -/
structure IsSteady (tight : Bool) (lines : List (List Char)) : Prop where
  trimmed : ∀ line ∈ lines, Text.trimEnd line = line
  apart : lines.IsChain fun a b => a = [] → b ≠ []
  inside : tight = true → lines.IsChain fun a b =>
    (b = [] → opensImports a = false) ∧ (a = [] → closesImports b = false)

/-- Squashing changes nothing exactly if the lines are steady. -/
theorem squash_eq_self_iff {tight : Bool} {lines : List (List Char)}
    (hlines : ∀ line ∈ lines, '\n' ∉ line) :
    squash tight lines = lines ↔ IsSteady tight lines := by
  constructor
  · intro h
    -- No pass adds a line, so none has dropped one.
    have hcollapse := collapse_sublist ((if tight then tighten lines else lines).map Text.trimEnd)
    have htight : (if tight then tighten lines else lines).Sublist lines := by
      cases tight with
      | false => exact .refl _
      | true => exact tighten_sublist lines
    have hlength := hcollapse.length_le
    rw [← squash, h, List.length_map] at hlength
    have hsame := htight.eq_of_length_le hlength
    rw [← squash, h, hsame] at hcollapse
    have htrim := hcollapse.eq_of_length (by simp)
    refine ⟨fun line hline => ?_, ?_, fun htrue => ?_⟩
    · rw [htrim] at hline
      obtain ⟨raw, -, rfl⟩ := List.mem_map.1 hline
      exact Text.trimEnd_idem raw
    · rw [← h]
      exact List.isChain_destutter _ _
    · rw [if_pos htrue] at hsame
      have hopens := isChain_tighten lines
      have hgap := noGap_of_tighten_eq hsame
      rw [hsame, List.isChain_iff_forall_rel_of_append_cons_cons] at hopens
      rw [NoGap, List.isChain_iff_forall_rel_of_append_cons_cons] at hgap
      rw [List.isChain_iff_forall_rel_of_append_cons_cons]
      exact fun a b front back heq => ⟨fun hb => hopens heq (hb ▸ rfl), hgap heq⟩
  · rintro ⟨htrimmed, hapart, hinside⟩
    have htrim : lines.map Text.trimEnd = lines :=
      (List.map_congr_left htrimmed).trans (List.map_id lines)
    have htight : (if tight then tighten lines else lines) = lines := by
      cases tight with
      | false => rfl
      | true =>
          refine tighten_eq_self (fun line hline => ?_) ?_
          · rw [← htrimmed line hline]
            exact isTrimmed_trimEnd (hlines line hline)
          · have hends := hinside rfl
            rw [List.isChain_iff_forall_rel_of_append_cons_cons] at hends hapart ⊢
            exact fun a b front back heq =>
              ⟨fun ha => ⟨hapart heq ha, (hends heq).2 ha⟩, (hends heq).1⟩
    rw [squash, htight, htrim, collapse, List.destutter_eq_self_iff]
    exact hapart

theorem squash_nil (tight : Bool) : squash tight [] = [] := by
  cases tight <;> rfl

/-- A raw string stays as it is exactly if its lines do: the one with the first backquote, the ones
in between and the one with the last backquote. -/
theorem sweep_eq_self_iff (tight : Bool) (body : List Char) :
    sweep tight body = body ↔ IsSteady tight (Text.splitAll '\n' (Lexeme.raw body).text) := by
  have hblank : Text.isBlank '\x60' = false := by decide
  obtain ⟨raw, tail, rfl, hraw, htail⟩ := exists_unlines body
  have hlast : '\n' ∉ tail ++ ['\x60'] := by simp [htail]
  have hsolid : IsSolid (tail ++ ['\x60']) := isSolid_of_backquote (by simp)
  cases raw with
  | nil =>
      have hline : '\n' ∉ (Lexeme.raw (unlines [] ++ tail)).text := by
        simpa [Lexeme.text, unlines] using htail
      rw [Text.splitAll_of_notMem hline]
      refine iff_of_true (sweep_of_notMem tight htail) ⟨?_, .singleton _, fun _ => .singleton _⟩
      rw [List.forall_mem_singleton]
      exact Text.trimEnd_append (by decide) ('\x60' :: tail) []
  | cons first middle =>
      have hlines := List.forall_mem_cons.1 hraw
      have hfirst : '\n' ∉ '\x60' :: first := by simp [hlines.1]
      have hsolid' : IsSolid ('\x60' :: first) := isSolid_of_backquote (by simp)
      have htext : (Lexeme.raw (unlines (first :: middle) ++ tail)).text
          = unlines (('\x60' :: first) :: middle) ++ (tail ++ ['\x60']) := by
        simp [Lexeme.text, unlines]
      have hall : ∀ line ∈ ('\x60' :: first) :: middle ++ [tail ++ ['\x60']], '\n' ∉ line :=
        List.forall_mem_append.2
          ⟨List.forall_mem_cons.2 ⟨hfirst, hlines.2⟩, List.forall_mem_singleton.2 hlast⟩
      -- The first and the last line have a backquote, so the others are squashed by themselves.
      have hsquash : squash tight (('\x60' :: first) :: middle ++ [tail ++ ['\x60']])
          = ('\x60' :: Text.trimEnd first) :: squash tight middle ++ [tail ++ ['\x60']] := by
        have hfront := squash_append_cons tight [] (middle ++ [tail ++ ['\x60']]) hsolid'
        have hback := squash_append_cons tight middle [] hsolid
        rw [List.nil_append, squash_nil, hback, squash_nil] at hfront
        rw [List.cons_append, hfront, ← List.nil_append ('\x60' :: first),
          Text.trimEnd_append hblank, Text.trimEnd_append hblank]
        rfl
      have hswept : ∀ line ∈ Text.trimEnd first :: squash tight middle, '\n' ∉ line :=
        List.forall_mem_cons.2 ⟨fun hmem => hlines.1 ((Text.trimEnd_prefix first).subset hmem),
          (thinned_squash tight middle).newline_notMem hlines.2⟩
      have hsame : unlines (Text.trimEnd first :: squash tight middle) ++ tail
            = unlines (first :: middle) ++ tail ↔
          Text.trimEnd first :: squash tight middle = first :: middle := by
        refine ⟨fun h => (List.append_left_inj [tail]).1 ?_, fun h => by rw [h]⟩
        rw [← splitAll_unlines hswept htail, h, splitAll_unlines hraw htail]
      rw [htext, splitAll_unlines (List.forall_mem_cons.2 ⟨hfirst, hlines.2⟩) hlast,
        ← squash_eq_self_iff hall, hsquash, List.append_cancel_right_eq,
        sweep_unlines tight hraw htail, hsame]
      simp only [List.cons.injEq, true_and]

end Program
end Stackwright
