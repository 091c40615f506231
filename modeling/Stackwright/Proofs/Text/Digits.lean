import Stackwright.Decimal.Reading

/-!
# Decimal digits read back

The digits that a number is written with are read as the number.

Main results:

- Theorem `digitsValue_decimal`: the value of the digits of a number.
- Theorem `isDigit_of_mem_decimal`: a number is written with digits only.
-/

namespace Stackwright
namespace Text

/-- The value of the digits of a number. -/
@[simp]
theorem digitsValue_decimal (n : Nat) : Decimal.digitsValue (decimal n) = n := by
  have hvalue : Decimal.digitsValue (decimal n) = Nat.ofDigitChars 10 (decimal n) 0 := by
    simp only [Decimal.digitsValue, Nat.ofDigitChars, Nat.mul_comm]
  rw [hvalue, decimal, Nat.ofDigitChars_ten_toDigits]

theorem decimal_ne_nil (n : Nat) : decimal n ≠ [] :=
  Nat.toDigits_ne_nil

/-- A number is written with digits only. -/
theorem isDigit_of_mem_decimal {n : Nat} {c : Char} (h : c ∈ decimal n) :
    Decimal.isDigit c = true := by
  have hdigit := Nat.isDigit_of_mem_toDigits (by decide) (by decide) h
  simpa [Char.isDigit, Decimal.isDigit, Char.le_def] using hdigit

/-- A number is written without any character that is no digit. -/
theorem notMem_decimal {c : Char} (h : Decimal.isDigit c = false) (n : Nat) : c ∉ decimal n := by
  intro hc
  rw [isDigit_of_mem_decimal hc] at h
  exact absurd h (by decide)

end Text
end Stackwright
