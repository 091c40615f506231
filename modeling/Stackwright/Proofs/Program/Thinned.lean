import Mathlib
import Stackwright.Proofs.Program.Pruning

/-!
# Lines with fewer blanks

The passes over white space only thin a text: they drop blanks at the ends of lines, and
blank lines.  Thinned lines have their import block where the lines have it, with
imports of the same names, and thinned code refers to the same names.

Main results:

- Theorem `thinned_settle` and `thinned_tighten`: the passes over white space thin.
- Theorem `ImportBlock.Splits.thinned`: the import block of thinned lines.
- Theorem `any_refersTo_textLines`: whether code refers to a name shows in its lines with
  text.
-/

namespace Stackwright
namespace Program

/-! ## Thinned lines -/

/-- Lines without some of the blanks at their ends and without some of the blank lines. -/
inductive Thinned : List (List Char) → List (List Char) → Prop
  | nil : Thinned [] []
  | line (line : List Char) {w : List Char} {a b : List (List Char)}
      (hw : ∀ c ∈ w, Text.isBlank c = true) (h : Thinned a b) : Thinned ((line ++ w) :: a) (line :: b)
  | blank {w : List Char} {a b : List (List Char)} (hw : ∀ c ∈ w, Text.isBlank c = true)
      (h : Thinned a b) : Thinned (w :: a) b

namespace Thinned

variable {a b c d : List (List Char)}

/-- A line that stays as it is. -/
theorem keep (line : List Char) (h : Thinned a b) : Thinned (line :: a) (line :: b) := by
  have hline := Thinned.line line (w := []) (by simp) h
  rwa [List.append_nil] at hline

theorem refl (a : List (List Char)) : Thinned a a := by
  induction a with
  | nil => exact nil
  | cons line rest ih => exact keep line ih

/-- Lines are thinned part by part. -/
theorem append (h : Thinned a b) (h' : Thinned c d) : Thinned (a ++ c) (b ++ d) := by
  induction h with
  | nil => exact h'
  | line line hw _ ih => exact .line line hw ih
  | blank hw _ ih => exact .blank hw ih

/-- Thinning twice is thinning. -/
theorem trans (h : Thinned a b) (h' : Thinned b c) : Thinned a c := by
  induction h generalizing c with
  | nil => exact h'
  | @line line w a b hw _ ih =>
      cases h' with
      | @line line w' _ b hw' h' =>
          rw [List.append_assoc]
          exact .line line (fun x hx => (List.mem_append.1 hx).elim (hw' x) (hw x)) (ih h')
      | blank hw' h' =>
          exact .blank (fun x hx => (List.mem_append.1 hx).elim (hw' x) (hw x)) (ih h')
  | blank hw _ ih => exact .blank hw (ih h')

/-- Thinning works part by part. -/
theorem exists_append (h : Thinned (a ++ b) c) :
    ∃ c₁ c₂, c = c₁ ++ c₂ ∧ Thinned a c₁ ∧ Thinned b c₂ := by
  induction a generalizing c with
  | nil => exact ⟨[], c, rfl, nil, h⟩
  | cons line rest ih =>
      rw [List.cons_append] at h
      generalize hx : line :: (rest ++ b) = x at h
      cases h with
      | nil => cases hx
      | line line hw h =>
          cases hx
          obtain ⟨c₁, c₂, rfl, h₁, h₂⟩ := ih h
          exact ⟨_ :: c₁, c₂, rfl, .line _ hw h₁, h₂⟩
      | blank hw h =>
          cases hx
          obtain ⟨c₁, c₂, rfl, h₁, h₂⟩ := ih h
          exact ⟨c₁, c₂, rfl, .blank hw h₁, h₂⟩

/-- A line with text stays. -/
theorem exists_cons {line : List Char} (h : Thinned (line :: a) c)
    (htext : Text.isAllBlank line = false) :
    ∃ line' w c', c = line' :: c' ∧ line = line' ++ w ∧ (∀ x ∈ w, Text.isBlank x = true) ∧
      Thinned a c' := by
  cases h with
  | line line' hw h => exact ⟨line', _, _, rfl, rfl, hw, h⟩
  | blank hw h =>
      rw [Text.isAllBlank, List.all_eq_true.2 hw] at htext
      cases htext

/-- Every line of the thinned lines is a line without blanks at its end. -/
theorem exists_mem (h : Thinned a b) {line : List Char} (hline : line ∈ b) :
    ∃ w, (∀ x ∈ w, Text.isBlank x = true) ∧ line ++ w ∈ a := by
  induction h with
  | nil => cases hline
  | line line' hw _ ih =>
      rcases List.mem_cons.1 hline with rfl | hline
      · exact ⟨_, hw, List.mem_cons_self⟩
      · obtain ⟨w, hw, hmem⟩ := ih hline
        exact ⟨w, hw, List.mem_cons_of_mem _ hmem⟩
  | blank _ _ ih =>
      obtain ⟨w, hw, hmem⟩ := ih hline
      exact ⟨w, hw, List.mem_cons_of_mem _ hmem⟩

/-- Every line with text is a line of the thinned lines, but for blanks at its end. -/
theorem exists_of_mem (h : Thinned a b) {line : List Char} (hline : line ∈ a)
    (htext : Text.isAllBlank line = false) :
    ∃ line' w, (∀ x ∈ w, Text.isBlank x = true) ∧ line = line' ++ w ∧ line' ∈ b := by
  obtain ⟨front, back, rfl⟩ := List.append_of_mem hline
  obtain ⟨-, c₂, rfl, -, h₂⟩ := exists_append h
  obtain ⟨line', w, c', rfl, rfl, hw, -⟩ := h₂.exists_cons htext
  exact ⟨line', w, hw, rfl, by simp⟩

theorem newline_notMem (h : Thinned a b)
    (ha : ∀ line ∈ a, '\n' ∉ line) : ∀ line ∈ b, '\n' ∉ line := by
  intro line hline
  obtain ⟨w, -, hmem⟩ := h.exists_mem hline
  exact fun hnewline => ha _ hmem (List.mem_append_left _ hnewline)

/-- A line of the thinned lines, where it stands in the lines. -/
theorem exists_cons_of_append {line : List Char}
    (h : Thinned a (b ++ line :: c)) :
    ∃ a₁ w a₂, a = a₁ ++ (line ++ w) :: a₂ ∧ (∀ x ∈ w, Text.isBlank x = true) ∧ Thinned a₂ c := by
  generalize hx : b ++ line :: c = x at h
  induction h generalizing b with
  | nil => simp at hx
  | line first hw h ih =>
      cases b with
      | nil =>
          cases hx
          exact ⟨[], _, _, rfl, hw, h⟩
      | cons d b =>
          cases hx
          obtain ⟨a₁, w, a₂, rfl, hblank, h'⟩ := ih rfl
          exact ⟨_ :: a₁, w, a₂, rfl, hblank, h'⟩
  | blank hw h ih =>
      obtain ⟨a₁, w, a₂, rfl, hblank, h'⟩ := ih hx
      exact ⟨_ :: a₁, w, a₂, rfl, hblank, h'⟩

end Thinned

/-- Settling thins lines at every step. -/
theorem thinned_settleStep (line : List Char) (rest : List (List Char)) :
    Thinned (line :: rest) (settleStep line rest) := by
  unfold settleStep
  split
  · exact .blank (by simp) .nil
  · exact .blank (by simp) (.refl _)
  · exact .refl _

/-- Trimming the lines thins them. -/
theorem thinned_map_trimEnd (lines : List (List Char)) :
    Thinned lines (lines.map Text.trimEnd) := by
  induction lines with
  | nil => exact .nil
  | cons line rest ih =>
      obtain ⟨w, hw, heq⟩ := Text.exists_blanks_trimEnd line
      have hline := Thinned.line (Text.trimEnd line) hw ih
      rwa [← heq] at hline

/-- Settling thins the lines. -/
theorem thinned_settle (lines : List (List Char)) : Thinned lines (settle lines) := by
  have hfold : Thinned (lines.map Text.trimEnd) ((lines.map Text.trimEnd).foldr settleStep []) := by
    induction lines.map Text.trimEnd with
    | nil => exact .nil
    | cons line rest ih => exact (Thinned.keep line ih).trans (thinned_settleStep _ _)
  have hdrop : ∀ rest : List (List Char), Thinned rest (rest.dropWhile List.isEmpty) := by
    intro rest
    induction rest with
    | nil => exact .nil
    | cons line rest ih =>
        cases line with
        | nil => exact .blank (by simp) ih
        | cons c line => exact .refl _
  exact (thinned_map_trimEnd lines).trans (hfold.trans (hdrop _))

/-- So does tightening, which keeps its lines in reverse. -/
theorem thinned_tightenStep (done : List (List Char)) (line : List Char) :
    Thinned (done.reverse ++ [line]) (tightenStep done line).reverse := by
  cases done with
  | nil => exact .refl _
  | cons last earlier =>
      rw [tightenStep]
      split
      · rename_i hblank
        rw [Bool.and_eq_true] at hblank
        have hdrop := Thinned.blank (List.all_eq_true.1 hblank.1) .nil
        simpa using (Thinned.refl (last :: earlier).reverse).append hdrop
      · split
        · rename_i hblank
          rw [Bool.and_eq_true] at hblank
          have hdrop := Thinned.blank (List.all_eq_true.1 hblank.2) (.refl [line])
          simpa using (Thinned.refl earlier.reverse).append hdrop
        · simpa using Thinned.refl _

/-- Dropping the empty lines inside the ends of import blocks thins the lines. -/
theorem thinned_tighten (lines : List (List Char)) : Thinned lines (tighten lines) := by
  have hfold : ∀ done : List (List Char),
      Thinned (done.reverse ++ lines) (lines.foldl tightenStep done).reverse := by
    induction lines with
    | nil => simpa using fun done : List (List Char) => Thinned.refl done.reverse
    | cons line rest ih =>
        intro done
        have hstep := (thinned_tightenStep done line).append (.refl rest)
        rw [List.append_assoc, List.singleton_append] at hstep
        exact hstep.trans (ih _)
  exact hfold []

/-! ## The block of thinned lines -/

theorem opensImports_append_blanks (line : List Char) {w : List Char}
    (hw : ∀ c ∈ w, Text.isBlank c = true) : opensImports (line ++ w) = opensImports line := by
  rw [opensImports, Text.trim_append_blanks hw, opensImports]

theorem closesImports_append_blanks (line : List Char) {w : List Char}
    (hw : ∀ c ∈ w, Text.isBlank c = true) : closesImports (line ++ w) = closesImports line := by
  rw [closesImports, Text.trim_append_blanks hw, closesImports]

theorem boundName_append_blanks (line : List Char) {w : List Char}
    (hw : ∀ c ∈ w, Text.isBlank c = true) : boundName (line ++ w) = boundName line := by
  rw [boundName, Text.trim_append_blanks hw, boundName]

/-- The end of an import block is a line with text. -/
theorem isAllBlank_of_closesImports {line : List Char} (h : closesImports line = true) :
    Text.isAllBlank line = false := by
  rw [← Bool.not_eq_true]
  intro hblank
  rw [closesImports, Text.trim_of_isBlank (List.all_eq_true.1 hblank)] at h
  cases h

/-- Thinned lines have their block where the lines have it. -/
theorem ImportBlock.Splits.thinned {b : ImportBlock} {lines thin : List (List Char)}
    (h : b.Splits lines) (hthin : Thinned lines thin) :
    ∃ b' : ImportBlock, b'.Splits thin ∧ Thinned b.before b'.before ∧
      (∃ w, (∀ c ∈ w, Text.isBlank c = true) ∧ b.opening = b'.opening ++ w) ∧
      Thinned b.entries b'.entries ∧
      (∃ w, (∀ c ∈ w, Text.isBlank c = true) ∧ b.closing = b'.closing ++ w) ∧
      Thinned b.after b'.after := by
  rw [h.eq] at hthin
  obtain ⟨before, rest, rfl, hbefore, hrest⟩ := hthin.exists_append
  obtain ⟨opening, w, rest, rfl, hopening, hw, hrest⟩ :=
    hrest.exists_cons (isAllBlank_of_opensImports h.opening)
  obtain ⟨entries, rest, rfl, hentries, hrest⟩ := hrest.exists_append
  obtain ⟨closing, v, after, rfl, hclosing, hv, hafter⟩ :=
    hrest.exists_cons (isAllBlank_of_closesImports h.closing)
  refine ⟨⟨before, opening, entries, closing, after⟩, ⟨rfl, fun line hline => ?_, ?_,
    fun line hline => ?_, ?_⟩, hbefore, ⟨w, hw, hopening⟩, hentries, ⟨v, hv, hclosing⟩, hafter⟩
  · obtain ⟨x, hx, hmem⟩ := hbefore.exists_mem hline
    rw [← opensImports_append_blanks line hx]
    exact h.before _ hmem
  · rw [← opensImports_append_blanks opening hw, ← hopening]
    exact h.opening
  · obtain ⟨x, hx, hmem⟩ := hentries.exists_mem hline
    rw [← closesImports_append_blanks line hx]
    exact h.entries _ hmem
  · rw [← closesImports_append_blanks closing hv, ← hclosing]
    exact h.closing

/-- A start of a block with an end behind it is found. -/
theorem ImportBlock.exists_find? (front : List (List Char)) {rest : List (List Char)}
    {opening closing : List Char} (hopening : opensImports opening = true)
    (hclosing : closesImports closing = true) (hmem : closing ∈ rest) :
    ∃ b, ImportBlock.find? (front ++ opening :: rest) = some b := by
  obtain ⟨first, others, hdrop, hothers⟩ : ∃ first others,
      (front ++ opening :: rest).dropWhile (!opensImports ·) = first :: others ∧
        closing ∈ others := by
    rw [List.dropWhile_append]
    split
    · exact ⟨opening, rest, by simp [hopening], hmem⟩
    · rename_i hfront
      cases hdrop : front.dropWhile (!opensImports ·) with
      | nil => simp [hdrop] at hfront
      | cons first others => exact ⟨first, others ++ opening :: rest, rfl, by simp [hmem]⟩
  unfold ImportBlock.find?
  rw [hdrop]
  simp only
  cases hend : others.dropWhile (!closesImports ·) with
  | nil =>
      have hnone := List.dropWhile_eq_nil_iff.1 hend closing hothers
      rw [hclosing] at hnone
      cases hnone
  | cons last after => exact ⟨_, rfl⟩

/-- Lines without a block have none when they are thinned. -/
theorem Thinned.find?_eq_none {a b : List (List Char)} (h : Thinned a b)
    (ha : ImportBlock.find? a = none) : ImportBlock.find? b = none := by
  cases hfind : ImportBlock.find? b with
  | none => rfl
  | some block =>
      have hsplits := ImportBlock.find?_eq_some_iff.1 hfind
      rw [hsplits.eq] at h
      obtain ⟨front, w, rest, rfl, hw, hrest⟩ := h.exists_cons_of_append
      obtain ⟨entries, v, after, rfl, hv, -⟩ := hrest.exists_cons_of_append
      have hend : block.closing ++ v ∈ entries ++ (block.closing ++ v) :: after := by simp
      obtain ⟨found, hfound⟩ := ImportBlock.exists_find? front
        ((opensImports_append_blanks _ hw).trans hsplits.opening)
        ((closesImports_append_blanks _ hv).trans hsplits.closing) hend
      rw [ha] at hfound
      cases hfound

/-! ## References of thinned code -/

/-- A text without blanks starts a text exactly if it starts it without the blanks at its end. -/
theorem isPrefixOf_append_blanks {needle w : List Char}
    (hneedle : ∀ c ∈ needle, Text.isBlank c = false) (hw : ∀ c ∈ w, Text.isBlank c = true)
    (line : List Char) : needle.isPrefixOf (line ++ w) = needle.isPrefixOf line := by
  rw [Bool.eq_iff_iff, List.isPrefixOf_iff_prefix, List.isPrefixOf_iff_prefix]
  refine ⟨fun h => ?_, fun h => h.trans (List.prefix_append _ _)⟩
  rcases List.prefix_or_prefix_of_prefix h (List.prefix_append line w) with h | ⟨back, rfl⟩
  · exact h
  · cases back with
    | nil => simp
    | cons c back =>
        have hback := (List.prefix_append_right_inj line).1 h
        have hc := hw c (hback.subset List.mem_cons_self)
        rw [hneedle c (by simp)] at hc
        cases hc

/-- Blanks hold no name. -/
theorem occursAsName_blanks {needle w : List Char} (hne : needle ≠ [])
    (hneedle : ∀ c ∈ needle, Text.isBlank c = false) (hw : ∀ c ∈ w, Text.isBlank c = true)
    (skip : Nat) (previous : Option Char) : occursAsName needle skip previous w = false := by
  induction w generalizing skip previous with
  | nil => cases skip <;> rfl
  | cons c rest ih =>
      rw [List.forall_mem_cons] at hw
      cases skip with
      | succ skip => exact ih hw.2 skip (some c)
      | zero =>
          have hprefix := isPrefixOf_append_blanks hneedle (List.forall_mem_cons.2 hw) []
          rw [List.nil_append] at hprefix
          rw [occursAsName, hprefix, if_neg (by cases needle <;> simp_all)]
          exact ih hw.2 0 (some c)

/-- A name without blanks occurs in a line exactly if it does so without the blanks at its end. -/
theorem occursAsName_append_blanks {needle w : List Char} (hne : needle ≠ [])
    (hneedle : ∀ c ∈ needle, Text.isBlank c = false) (hw : ∀ c ∈ w, Text.isBlank c = true)
    (line : List Char) (skip : Nat) (previous : Option Char) :
    occursAsName needle skip previous (line ++ w) = occursAsName needle skip previous line := by
  induction line generalizing skip previous with
  | nil =>
      rw [List.nil_append, occursAsName_blanks hne hneedle hw]
      cases skip <;> rfl
  | cons c rest ih =>
      cases skip with
      | succ skip => exact ih skip (some c)
      | zero =>
          have hprefix := isPrefixOf_append_blanks hneedle hw (c :: rest)
          rw [List.cons_append] at hprefix ⊢
          rw [occursAsName, occursAsName, hprefix, ih, ih]

variable {qualifier : List Char}

theorem refersTo_append_blanks (hq : ∀ c ∈ qualifier, Text.isBlank c = false) (line : List Char)
    {w : List Char} (hw : ∀ c ∈ w, Text.isBlank c = true) :
    refersTo qualifier (line ++ w) = refersTo qualifier line := by
  have hneedle : ∀ c ∈ qualifier ++ ['.'], Text.isBlank c = false := by
    rw [List.forall_mem_append]
    exact ⟨hq, List.forall_mem_singleton.2 (by decide)⟩
  exact occursAsName_append_blanks (by simp) hneedle hw line 0 none

/-- Whether code refers to a qualifier shows in its lines with text. -/
theorem any_refersTo_textLines (hq : ∀ c ∈ qualifier, Text.isBlank c = false)
    (code : List (List Char)) :
    (textLines code).any (refersTo qualifier) = code.any (refersTo qualifier) := by
  induction code with
  | nil => rfl
  | cons line rest ih =>
      obtain ⟨w, hw, heq⟩ := Text.exists_blanks_trimEnd line
      have hline : refersTo qualifier line = refersTo qualifier (Text.trimEnd line) := by
        conv_lhs => rw [heq]
        exact refersTo_append_blanks hq _ hw
      have hfirst : (textLines [line]).any (refersTo qualifier) = refersTo qualifier line := by
        rw [hline]
        cases htrim : Text.trimEnd line with
        | nil => simp [textLines, htrim, refersTo, occursAsName]
        | cons c back => simp [textLines, htrim]
      rw [textLines_cons, List.any_append, hfirst, ih, List.any_cons]

/-- A text between quotes is part of the quoted text. -/
theorem unquoted_subset {s path : List Char} (h : unquoted s = some path) : path ⊆ s := by
  unfold unquoted at h
  split at h
  · split at h
    · cases h
      exact List.Subset.trans (List.dropLast_subset _) (List.subset_cons_self _ _)
    · cases h
  · cases h

/-- The name that an import line binds has no blanks. -/
theorem isBlank_of_boundName {line name : List Char} (h : boundName line = some name) :
    ∀ c ∈ name, Text.isBlank c = false := by
  rw [boundName] at h
  simp only at h
  split at h
  · rename_i hrest
    obtain ⟨path, hpath, rfl⟩ := Option.map_eq_some_iff.1 h
    have hline : ∀ c ∈ Text.trim line, Text.isBlank c = false := by
      simpa using List.dropWhile_eq_nil_iff.1 hrest
    intro c hc
    exact hline c (unquoted_subset hpath (Text.getLastD_splitAll_subset '/' path hc))
  · split at h
    · cases h
    · cases h
      intro c hc
      simpa using List.mem_takeWhile_imp hc

/-- Whether an import is used shows in the lines with text of the code. -/
theorem isUsedImport_congr {outside outside' : List (List Char)}
    (h : textLines outside = textLines outside') (line : List Char) :
    isUsedImport outside line = isUsedImport outside' line := by
  rw [isUsedImport, isUsedImport]
  split
  · rfl
  · rename_i name hname
    have hq := isBlank_of_boundName hname
    rw [← any_refersTo_textLines hq, h, any_refersTo_textLines hq]

/-- Whether an import is used depends only on the lines with text outside the block. -/
theorem isUnusedImport_congr {outside outside' : List (List Char)}
    (h : textLines outside = textLines outside') (line : List Char) :
    isUnusedImport outside line = isUnusedImport outside' line := by
  rw [isUnusedImport, isUnusedImport]
  split
  · rfl
  · rename_i name hname
    have hq := isBlank_of_boundName hname
    rw [← any_refersTo_textLines hq, h, any_refersTo_textLines hq]

theorem isUsedImport_append_blanks (outside : List (List Char)) (line : List Char) {w : List Char}
    (hw : ∀ c ∈ w, Text.isBlank c = true) :
    isUsedImport outside (line ++ w) = isUsedImport outside line := by
  rw [isUsedImport, boundName_append_blanks line hw, isUsedImport]

theorem isUnusedImport_append_blanks (outside : List (List Char)) (line : List Char) {w : List Char}
    (hw : ∀ c ∈ w, Text.isBlank c = true) :
    isUnusedImport outside (line ++ w) = isUnusedImport outside line := by
  rw [isUnusedImport, boundName_append_blanks line hw, isUnusedImport]

end Program
end Stackwright
