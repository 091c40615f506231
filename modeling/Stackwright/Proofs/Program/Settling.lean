import Mathlib
import Stackwright.Proofs.Program.Thinned

/-!
# Settling lines again

Settled lines are settled once and for all.  Dropping the empty lines at the ends of a
block is not: of two empty lines in front of the end only one is dropped, and settling
leaves none of the two apart, so what is left is dropped in the next run.

Main results:

- Theorem `settle_idem`: settled lines need no settling.
- Theorem `settle_pruneImports_eq_iff`: the last pass leaves lines that it has made
  exactly if it drops no import of them and they have no gap.
-/

namespace Stackwright
namespace Program

/-! ## Settled lines are settled once and for all -/

theorem isChain_settleStep {line : List Char} {rest : List (List Char)}
    (h : rest.IsChain fun a b => a = [] → b ≠ []) :
    (settleStep line rest).IsChain fun a b => a = [] → b ≠ [] := by
  unfold settleStep
  split
  · exact .nil
  · exact h
  · rename_i hnil hempty
    rw [List.isChain_cons]
    refine ⟨fun next hnext hline hblank => ?_, h⟩
    obtain ⟨back, rfl⟩ := List.head?_eq_some_iff.1 hnext
    exact hempty back hline (by rw [hblank])

theorem getLast?_settleStep {line : List Char} {rest : List (List Char)}
    (h : ∀ x ∈ rest.getLast?, x ≠ []) : ∀ x ∈ (settleStep line rest).getLast?, x ≠ [] := by
  unfold settleStep
  split
  · simp
  · exact h
  · rename_i hnil hempty
    cases rest with
    | nil => simpa using fun hline => hnil hline rfl
    | cons next rest =>
        rw [List.getLast?_cons_cons]
        exact h

/-- In settled lines no two empty lines follow each other, and none is at the end of the text. -/
theorem settle_spec (lines : List (List Char)) :
    ((settle lines).IsChain fun a b => a = [] → b ≠ []) ∧
      ∀ line ∈ (settle lines).getLast?, line ≠ [] := by
  have hfold : (((lines.map Text.trimEnd).foldr settleStep []).IsChain fun a b => a = [] → b ≠ []) ∧
      ∀ x ∈ ((lines.map Text.trimEnd).foldr settleStep []).getLast?, x ≠ [] := by
    induction lines.map Text.trimEnd with
    | nil => exact ⟨.nil, by simp⟩
    | cons line rest ih => exact ⟨isChain_settleStep ih.1, getLast?_settleStep ih.2⟩
  have hsuffix := List.dropWhile_suffix (l := (lines.map Text.trimEnd).foldr settleStep [])
    List.isEmpty
  refine ⟨hfold.1.suffix hsuffix, fun line hline => hfold.2 line ?_⟩
  obtain ⟨front, hfront⟩ := hsuffix
  rw [← hfront, List.getLast?_append_of_ne_nil _ fun hnil => ?_]
  · exact hline
  · rw [settle, hnil] at hline
    cases hline

/-- Settled lines do not start with an empty line. -/
theorem ne_nil_of_mem_head?_settle (lines : List (List Char)) :
    ∀ line ∈ (settle lines).head?, line ≠ [] := by
  intro line hline
  have hfirst := List.head?_dropWhile_not List.isEmpty
    ((lines.map Text.trimEnd).foldr settleStep [])
  rw [settle] at hline
  rw [hline] at hfirst
  simpa using hfirst

/-- Settled lines need no settling. -/
theorem settle_idem (lines : List (List Char)) : settle (settle lines) = settle lines := by
  obtain ⟨hchain, hlast⟩ := settle_spec lines
  refine settle_eq_self (fun line hline => ?_) hchain (ne_nil_of_mem_head?_settle lines) hlast
  obtain ⟨raw, -, rfl⟩ := List.mem_map.1 ((settle_sublist lines).subset hline)
  exact Text.isBlank_getLast_trimEnd raw

/-! ## Empty lines at the ends of a block -/

/-- Lines without an empty line in front of the end of an import block. -/
def NoGap (lines : List (List Char)) : Prop :=
  lines.IsChain fun a b => a = [] → closesImports b = false

/-- No blank line follows the start of an import block in tight lines. -/
theorem isChain_tighten (lines : List (List Char)) :
    (tighten lines).IsChain fun a b => Text.isAllBlank b = true → opensImports a = false := by
  -- The lines before are kept in reverse.
  have hfold : ∀ done : List (List Char),
      (done.IsChain fun b a => Text.isAllBlank b = true → opensImports a = false) →
      (lines.foldl tightenStep done).IsChain
        fun b a => Text.isAllBlank b = true → opensImports a = false := by
    induction lines with
    | nil => exact fun done hdone => hdone
    | cons line rest ih =>
        intro done hdone
        refine ih _ ?_
        cases done with
        | nil => exact .singleton line
        | cons last earlier =>
            rw [tightenStep]
            split
            · exact hdone
            · rename_i hopens
              split
              · rename_i hcloses
                rw [Bool.and_eq_true] at hcloses
                rw [List.isChain_cons] at hdone ⊢
                refine ⟨fun _ _ hblank => ?_, hdone.2⟩
                rw [isAllBlank_of_closesImports hcloses.1] at hblank
                cases hblank
              · rw [List.isChain_cons_cons]
                refine ⟨fun hblank => ?_, hdone⟩
                rw [hblank, Bool.true_and] at hopens
                simpa using hopens
  exact List.isChain_reverse.2 (hfold [] .nil)

/-- Settling brings no empty line behind the start of an import block. -/
theorem isChain_settle {lines : List (List Char)}
    (h : lines.IsChain fun a b => Text.isAllBlank b = true → opensImports a = false) :
    (settle lines).IsChain fun a b => b = [] → opensImports a = false := by
  have htrim : (lines.map Text.trimEnd).IsChain fun a b => b = [] → opensImports a = false := by
    rw [List.isChain_map]
    refine h.imp fun a b hab hb => ?_
    rw [opensImports, Text.trim_trimEnd]
    exact hab (isAllBlank_iff_trimEnd_eq_nil.2 hb)
  -- An empty line can only come first if one came first before.
  have hfold : ∀ {rest : List (List Char)},
      (rest.IsChain fun a b => b = [] → opensImports a = false) →
      ((rest.foldr settleStep []).IsChain fun a b => b = [] → opensImports a = false) ∧
        ((rest.foldr settleStep []).head? = some [] → rest.head? = some []) := by
    intro rest hrest
    induction rest with
    | nil => exact ⟨.nil, fun hhead => hhead⟩
    | cons line rest ih =>
        rw [List.isChain_cons] at hrest
        obtain ⟨hchain, hhead⟩ := ih hrest.2
        rw [List.foldr_cons]
        unfold settleStep
        split
        · exact ⟨.nil, fun hnone => by cases hnone⟩
        · exact ⟨hchain, fun _ => rfl⟩
        · rw [List.isChain_cons]
          refine ⟨⟨fun next hnext hempty => ?_, hchain⟩, fun hline => hline⟩
          rw [hempty] at hnext
          exact hrest.1 [] (hhead hnext) rfl
  exact (hfold htrim).1.suffix (List.dropWhile_suffix _)

/-- Tightening does not add lines. -/
theorem length_foldl_tightenStep_le (lines done : List (List Char)) :
    (lines.foldl tightenStep done).length ≤ done.length + lines.length := by
  induction lines generalizing done with
  | nil => simp
  | cons line rest ih =>
      have hstep := (tightenStep_sublist done line).length_le
      have hrest := ih (tightenStep done line)
      rw [List.foldl_cons, List.length_cons] at *
      omega

/-- Tight lines have no gap. -/
theorem noGap_of_tighten_eq {lines : List (List Char)} (h : tighten lines = lines) : NoGap lines := by
  rw [NoGap, List.isChain_iff_forall_rel_of_append_cons_cons]
  rintro a b front back rfl rfl
  rw [← Bool.not_eq_true]
  intro hcloses
  -- The empty line is left out, or taken back when the end of the block comes.
  have hblank : Text.isAllBlank [] = true := rfl
  have hshort : ∀ done : List (List Char),
      (tightenStep (tightenStep done []) b).length ≤ done.length + 1 := by
    intro done
    have hopens : opensImports [] = false := rfl
    have htaken : ∀ earlier : List (List Char), tightenStep ([] :: earlier) b = b :: earlier := by
      intro earlier
      rw [tightenStep, if_neg (by simp [hopens]), if_pos (by simp [hcloses, hblank])]
    cases done with
    | nil => exact (congrArg List.length (htaken [])).le
    | cons last earlier =>
        rw [tightenStep]
        split
        · exact (tightenStep_sublist _ b).length_le
        · rw [if_neg (by simp [closesImports, Text.trim_of_isBlank]), htaken]
          exact le_refl _
  have hfront := length_foldl_tightenStep_le front []
  have hback := length_foldl_tightenStep_le back
    (tightenStep (tightenStep (front.foldl tightenStep []) []) b)
  have hlength := congrArg List.length h
  rw [tighten, List.length_reverse, List.foldl_append, List.foldl_cons, List.foldl_cons] at hlength
  have hmiddle := hshort (front.foldl tightenStep [])
  simp only [List.length_append, List.length_cons, List.length_nil] at *
  omega

/-- Settled lines that are tight but for gaps stay as they are exactly if they have no gap. -/
theorem tighten_settle_eq_iff {lines : List (List Char)} (hlines : ∀ line ∈ lines, '\n' ∉ line) :
    tighten (settle (tighten lines)) = settle (tighten lines) ↔ NoGap (settle (tighten lines)) := by
  refine ⟨noGap_of_tighten_eq, fun hgap => tighten_eq_self (fun line hline => ?_) ?_⟩
  · obtain ⟨raw, hraw, rfl⟩ := List.mem_map.1 ((settle_sublist _).subset hline)
    exact isTrimmed_trimEnd (hlines raw ((tighten_sublist lines).subset hraw))
  · have hopens := isChain_settle (isChain_tighten lines)
    have hempty := (settle_spec (tighten lines)).1
    rw [List.isChain_iff_forall_rel_of_append_cons_cons] at hopens hempty ⊢
    rw [NoGap, List.isChain_iff_forall_rel_of_append_cons_cons] at hgap
    exact fun a b front back heq => ⟨fun ha => ⟨hempty heq ha, hgap heq ha⟩, hopens heq⟩

/-- Settled lines are left as they are exactly if each pass leaves them as they are. -/
theorem settle_pruneImports_eq_iff {source lines code : List (List Char)}
    (hsource : ∀ line ∈ source, '\n' ∉ line) (hlines : lines = settle (tighten source)) :
    settle (pruneImports lines code) = lines ↔
      ∀ b, ImportBlock.find? lines = some b → b.dropUnused code = lines ∧ NoGap lines := by
  have hsettled : settle lines = lines := by rw [hlines, settle_idem]
  rw [pruneImports]
  cases hfind : ImportBlock.find? lines with
  | none => simpa using hsettled
  | some b =>
      have hsublist := (ImportBlock.find?_eq_some_iff.1 hfind).dropUnused_sublist code
      simp only [Option.some.injEq, forall_eq']
      constructor
      · intro h
        -- Nothing adds a line, so nothing has taken one.
        have hsettle := (settle_sublist (tighten (b.dropUnused code))).length_le
        rw [h, List.length_map] at hsettle
        have htight := tighten_sublist (b.dropUnused code)
        have hdrop : b.dropUnused code = lines :=
          hsublist.eq_of_length_le (hsettle.trans htight.length_le)
        rw [hdrop] at htight hsettle
        exact ⟨hdrop, noGap_of_tighten_eq (htight.eq_of_length_le hsettle)⟩
      · rintro ⟨hdrop, hgap⟩
        rw [hdrop]
        rw [hlines] at hgap ⊢
        rw [(tighten_settle_eq_iff hsource).2 hgap, settle_idem]

end Program
end Stackwright
