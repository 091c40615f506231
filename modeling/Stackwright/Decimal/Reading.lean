import Stackwright.Text.Digits

/-!
# Reading a float

A decimal has an optional sign, digits with an optional point, and an optional exponent; the words for
infinity and for no number are read in any letter case. The value is the nearest float.
-/

namespace Stackwright
namespace Decimal

/-- Whether a character is a decimal digit. -/
def isDigit (c : Char) : Bool :=
  '0' ≤ c && c ≤ '9'

/-- The value of a text of decimal digits. -/
def digitsValue (s : List Char) : Nat :=
  s.foldl (fun n c => n * 10 + (c.toNat - '0'.toNat)) 0

/-- The float nearest to `digits · 10 ^ exponent`, where `digits` is written in decimal. Sizes far outside
the range are settled without computing the power. -/
def scale (digits : List Char) (exponent : Int) : Float :=
  let significant := digits.dropWhile (· == '0')
  let lead := (significant.length : Int) + exponent
  if significant.isEmpty || lead < -400 then 0.0
  else if 400 < lead then 1.0 / 0.0
  else if 0 ≤ exponent then Float.ofScientific (digitsValue significant) false exponent.toNat
  else Float.ofScientific (digitsValue significant) true (-exponent).toNat

/-- The exponent that follows the digits: nothing, or a mark, an optional sign and digits. -/
def readExponent (s : List Char) : Option Int :=
  match s with
  | [] => some 0
  | mark :: rest =>
      if mark = 'e' || mark = 'E' then
        match rest with
        | '-' :: digits => (Text.readDigits 10 digits).map fun n => -(n : Int)
        | '+' :: digits => (Text.readDigits 10 digits).map Int.ofNat
        | digits => (Text.readDigits 10 digits).map Int.ofNat
      else none

/-- A decimal without sign. -/
def readMagnitude (s : List Char) : Option Float :=
  let whole := s.takeWhile isDigit
  let rest := s.dropWhile isDigit
  let (fraction, tail) := match rest with
    | '.' :: more => (more.takeWhile isDigit, more.dropWhile isDigit)
    | _ => ([], rest)
  if whole.isEmpty && fraction.isEmpty then none
  else (readExponent tail).map fun e => scale (whole ++ fraction) (e - fraction.length)

/-- A decimal without sign, or one of the words for the values that have no digits. -/
def readUnsigned (s : List Char) : Option Float :=
  let word := String.ofList (s.map Char.toLower)
  if word = "inf" || word = "infinity" then some (1.0 / 0.0)
  else if word = "nan" then some (0.0 / 0.0)
  else readMagnitude s

/-- A float with an optional sign. -/
def read (s : List Char) : Option Float :=
  match s with
  | '-' :: rest => (readUnsigned rest).map (- ·)
  | '+' :: rest => readUnsigned rest
  | _ => readUnsigned s

end Decimal
end Stackwright
