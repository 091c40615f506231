import Mathlib.Data.List.TakeWhile
import Stackwright.Text.Split

/-!
# Cutting a text at its first or last separator

The part before the first separator is the longest start of the text without one, and
the part behind the last one the longest end.

Main results:

- Theorem `splitFirst_append`: a text is cut at a separator that no other one
  stands before.
- Theorem `splitFirst_of_not_mem`: a text without the separator is not cut.
- Theorems `splitLast_append` and `splitLast_eq_some`: where a text is cut at its last
  separator.
-/

namespace Stackwright
namespace Text

variable {sep : Char}

theorem ne_sep_of_not_mem {s : List Char} (h : sep ∉ s) : ∀ c ∈ s, (c != sep) = true := by
  intro c hc
  simpa using fun heq : c = sep => h (heq ▸ hc)

/-- A text is cut at a separator that no other one stands before. -/
theorem splitFirst_append {front : List Char} (h : sep ∉ front) (rest : List Char) :
    splitFirst sep (front ++ sep :: rest) = some (front, rest) := by
  have hfront := ne_sep_of_not_mem h
  simp [splitFirst, List.dropWhile_append_of_pos hfront, List.takeWhile_append_of_pos hfront]

/-- A text without the separator is not cut. -/
theorem splitFirst_of_not_mem {s : List Char} (h : sep ∉ s) : splitFirst sep s = none := by
  have hnone : s.dropWhile (· != sep) = [] :=
    List.dropWhile_eq_nil_iff.2 (ne_sep_of_not_mem h)
  rw [splitFirst, hnone]

/-- A text is cut at a separator that no other one stands behind. -/
theorem splitLast_append {back : List Char} (h : sep ∉ back) (front : List Char) :
    splitLast sep (front ++ sep :: back) = some (front, back) := by
  have hreverse : (front ++ sep :: back).reverse = back.reverse ++ sep :: front.reverse := by simp
  rw [splitLast, hreverse, splitFirst_append (by simpa using h)]
  simp

/-- The two parts around the last separator are the text. -/
theorem splitLast_eq_some {s front back : List Char} (h : splitLast sep s = some (front, back)) :
    s = front ++ sep :: back := by
  obtain ⟨⟨after, before⟩, hsplit, hparts⟩ := Option.map_eq_some_iff.1 h
  obtain ⟨rfl, rfl⟩ := Prod.mk.inj hparts
  have hreverse := congrArg List.reverse (splitFirst_eq_some hsplit)
  simpa using hreverse

/-- The last separator of a text that has one. -/
theorem exists_last {s : List Char} (h : sep ∈ s) :
    ∃ front back, s = front ++ sep :: back ∧ sep ∉ back := by
  obtain ⟨back, front, hs, hback⟩ := List.eq_append_cons_of_mem (List.mem_reverse.2 h)
  refine ⟨front.reverse, back.reverse, ?_, by simpa using hback⟩
  simpa using congrArg List.reverse hs

theorem splitString_append {front : String} (h : sep ∉ front.toList) {s rest : String}
    (hs : s.toList = front.toList ++ sep :: rest.toList) :
    splitString sep s = some (front, rest) := by
  simp [splitString, hs, splitFirst_append h]

theorem splitString_of_not_mem {s : String} (h : sep ∉ s.toList) : splitString sep s = none := by
  rw [splitString, splitFirst_of_not_mem h]
  rfl

end Text
end Stackwright
