/-!
# Cutting text at a character

Texts are cut at the first or the last occurrence of a character, or at all of them.

Main result:

- Theorem `splitFirst_eq_some`: the two parts around the separator are the text.
-/

namespace Stackwright
namespace Text

/-- The text before and after the first `sep`, if there is one. -/
def splitFirst (sep : Char) (s : List Char) : Option (List Char × List Char) :=
  match s.dropWhile (· != sep) with
  | [] => none
  | _ :: rest => some (s.takeWhile (· != sep), rest)

/-- The text before and after the last `sep`, if there is one. -/
def splitLast (sep : Char) (s : List Char) : Option (List Char × List Char) :=
  (splitFirst sep s.reverse).map fun (after, before) => (before.reverse, after.reverse)

/-- Puts a character at the front of the first part. -/
def consPart (c : Char) : List (List Char) → List (List Char)
  | [] => [[c]]
  | part :: rest => (c :: part) :: rest

/-- The parts between the occurrences of `sep`; there is always one part more than there are cuts. -/
def splitAll (sep : Char) (s : List Char) : List (List Char) :=
  s.foldr (fun c parts => if c = sep then [] :: parts else consPart c parts) [[]]

/-- The text after `lead`, if the text starts with it. -/
def stripLead (lead s : List Char) : Option (List Char) :=
  if lead.isPrefixOf s then some (s.drop lead.length) else none

/-- Splits at the first occurrence of `sep` in a string. -/
def splitString (sep : Char) (s : String) : Option (String × String) :=
  (splitFirst sep s.toList).map fun (a, b) => (String.ofList a, String.ofList b)

/-- The two halves of a split, put together around the separator, are the text. -/
theorem splitFirst_eq_some {sep : Char} {s a b : List Char} (h : splitFirst sep s = some (a, b)) :
    s = a ++ sep :: b := by
  unfold splitFirst at h
  split at h
  · simp at h
  · rename_i x rest hrest
    simp only [Option.some.injEq, Prod.mk.injEq] at h
    obtain ⟨rfl, rfl⟩ := h
    have hx : x = sep := by
      have := List.head?_dropWhile_not (· != sep) s
      simpa [hrest] using this
    subst hx
    rw [← hrest, List.takeWhile_append_dropWhile]

end Text
end Stackwright
