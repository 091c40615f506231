import Stackwright.Decimal.Reading

/-!
# Amounts

The number in front of a unit: one or more digits, and perhaps a point with one or more digits after it.
-/

namespace Stackwright
namespace Quantity

/-- A number as it is written: the digits before the point, and those after it if there is a point. -/
structure Amount where
  whole : List Char
  fraction : List Char
deriving DecidableEq, Repr

/-- The float nearest to an amount. -/
def Amount.value (a : Amount) : Float :=
  Decimal.scale (a.whole ++ a.fraction) (-(a.fraction.length : Int))

/-- The digits after a point, and the text after them; a point without digits is left where it is. -/
def readFraction (s : List Char) : List Char × List Char :=
  match s with
  | '.' :: more =>
      if (more.takeWhile Decimal.isDigit).isEmpty then ([], s)
      else (more.takeWhile Decimal.isDigit, more.dropWhile Decimal.isDigit)
  | _ => ([], s)

/-- The amount at the front of a text, and the text after it. -/
def readAmount (s : List Char) : Option (Amount × List Char) :=
  let whole := s.takeWhile Decimal.isDigit
  if whole.isEmpty then none
  else
    let (fraction, rest) := readFraction (s.dropWhile Decimal.isDigit)
    some (⟨whole, fraction⟩, rest)

/-- The text after a fraction is no longer than the text before it. -/
theorem length_readFraction (s : List Char) : (readFraction s).2.length ≤ s.length := by
  unfold readFraction
  split
  · split
    · exact Nat.le_refl _
    · have := (List.dropWhile_sublist (l := ‹List Char›) Decimal.isDigit).length_le
      simp only [List.length_cons]
      omega
  · exact Nat.le_refl _

/-- The text after an amount is shorter than the text before it. -/
theorem length_readAmount {s rest : List Char} {a : Amount} (h : readAmount s = some (a, rest)) :
    rest.length < s.length := by
  simp only [readAmount] at h
  split at h
  · simp at h
  · rename_i hne
    simp only [Option.some.injEq, Prod.mk.injEq] at h
    have hfrac := length_readFraction (s.dropWhile Decimal.isDigit)
    rw [h.2] at hfrac
    have hsplit := congrArg List.length (List.takeWhile_append_dropWhile (p := Decimal.isDigit) (l := s))
    have hpos : 0 < (s.takeWhile Decimal.isDigit).length := by
      simpa [List.isEmpty_iff, List.length_pos_iff] using hne
    simp only [List.length_append] at hsplit
    omega

end Quantity
end Stackwright
