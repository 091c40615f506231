/-!
# Whole numbers in text

Digits of a number in a base, and the reading of whole numbers with a sign and a range.
-/

namespace Stackwright
namespace Text

/-- The decimal digits of a number. -/
def decimal (n : Nat) : List Char :=
  Nat.toDigits 10 n

/-- The decimal digits of an integer, after a minus sign if it is negative. -/
def decimalInt : Int → List Char
  | .ofNat n => decimal n
  | .negSucc n => '-' :: decimal (n + 1)

/-- The value of a digit in bases up to sixteen. -/
def digitValue (c : Char) : Option Nat :=
  if '0' ≤ c && c ≤ '9' then some (c.toNat - '0'.toNat)
  else if 'a' ≤ c && c ≤ 'f' then some (c.toNat - 'a'.toNat + 10)
  else if 'A' ≤ c && c ≤ 'F' then some (c.toNat - 'A'.toNat + 10)
  else none

/-- Appends one digit of the base to a value read so far. -/
def pushDigit (base : Nat) (value : Nat) (c : Char) : Option Nat :=
  match digitValue c with
  | some d => if d < base then some (value * base + d) else none
  | none => none

/-- The value of a text of digits; a text without digits has none. -/
def readDigits (base : Nat) (s : List Char) : Option Nat :=
  if s.isEmpty then none else s.foldlM (pushDigit base) 0

/-- A whole number below `bound`, with an optional plus sign. -/
def readNat (base bound : Nat) (s : List Char) : Option Nat :=
  let digits := match s with
    | '+' :: rest => rest
    | _ => s
  (readDigits base digits).filter (· < bound)

/-- An integer in the range of sixty-four bits, with an optional sign. -/
def readInt64 (base : Nat) (s : List Char) : Option Int :=
  match s with
  | '-' :: rest => ((readDigits base rest).filter (· ≤ Nat.pow 2 63)).map fun n => -(n : Int)
  | _ => (readNat base (Nat.pow 2 63) s).map Int.ofNat

end Text
end Stackwright
