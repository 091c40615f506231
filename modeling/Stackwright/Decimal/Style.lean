import Stackwright.Decimal.Shortest
import Stackwright.Text.Digits

/-!
# The text of a float

A finite float is `m · 2 ^ q` with a sign; the rest of the bit patterns are the infinities and the patterns
that are not numbers. A float is written with its shortest digits. A style says for which sizes the digits
are written in place, and whether a whole number keeps a point.
-/

namespace Stackwright
namespace Decimal

/-! ## The parts of a float -/

/-- What the sixty-four bits of a float stand for. -/
inductive Binary where
  | nan
  | infinite (negative : Bool)
  | finite (negative : Bool) (m : Nat) (q : Int)
deriving DecidableEq, Repr

/-- Reads sign, exponent and fraction out of a bit pattern. -/
def Binary.ofBits (bits : Nat) : Binary :=
  let negative := bits / Nat.pow 2 63 % 2 == 1
  let exponent : Nat := bits / Nat.pow 2 52 % Nat.pow 2 11
  let fraction := bits % Nat.pow 2 52
  if exponent = Nat.pow 2 11 - 1 then
    if fraction = 0 then .infinite negative else .nan
  else if exponent = 0 then
    .finite negative fraction (-1074)
  else
    .finite negative (fraction + Nat.pow 2 52) (Int.ofNat exponent - 1075)

/-- The parts of a float. -/
def Binary.ofFloat (x : Float) : Binary :=
  .ofBits x.toBits.toNat

/-! ## Styles -/

/-- The decisions of one way of writing floats. -/
structure Style where
  /-- Whether a number with this exponent of the leading digit is written without an exponent. -/
  positional : Int → Bool
  /-- Whether a whole number written in place ends in `.0`. -/
  keepsPoint : Bool

/-- Values are written in place, whatever their size, and whole ones without a point. -/
def Style.plain : Style where
  positional _ := true
  keepsPoint := false

/-- Literals are written in place from `10 ^ -4` to below `10 ^ 16` and always show that they are floats. -/
def Style.literal : Style where
  positional e := -4 ≤ e && e < 16
  keepsPoint := true

/-- Drops the zeros at the end of the digits. -/
def stripZeros (digits : List Char) : List Char :=
  (digits.reverse.dropWhile (· == '0')).reverse

/-- Digits written in place; `point` digits stand before the point. -/
def inPlace (style : Style) (digits : List Char) (point : Int) : List Char :=
  if point ≤ 0 then
    '0' :: '.' :: List.replicate (-point).toNat '0' ++ digits
  else if digits.length ≤ point.toNat then
    digits ++ List.replicate (point.toNat - digits.length) '0'
      ++ (if style.keepsPoint then ['.', '0'] else [])
  else
    digits.take point.toNat ++ '.' :: digits.drop point.toNat

/-- Digits with one in front of the point and an exponent. -/
def withExponent (digits : List Char) (exponent : Int) : List Char :=
  let fraction := digits.drop 1
  digits.take 1 ++ (if fraction.isEmpty then [] else '.' :: fraction) ++ 'e' :: Text.decimalInt exponent

/-- The text of a positive number. -/
def Style.magnitude (style : Style) (m : Nat) (q : Int) : List Char :=
  let s := shortest m q
  let all := Text.decimal s.digits
  let digits := stripZeros all
  let lead := s.exponent + all.length - 1
  if style.positional lead then inPlace style digits (lead + 1) else withExponent digits lead

/-- The text of a float in a style. -/
def Style.text (style : Style) (x : Float) : List Char :=
  match Binary.ofFloat x with
  | .nan => ['N', 'a', 'N']
  | .infinite negative => (if negative then ['-'] else []) ++ ['i', 'n', 'f']
  | .finite negative m q =>
      (if negative then ['-'] else [])
        ++ (if m = 0 then '0' :: (if style.keepsPoint then ['.', '0'] else []) else style.magnitude m q)

/-- The text of a float in a style, as a string. -/
def Style.string (style : Style) (x : Float) : String :=
  String.ofList (style.text x)

end Decimal
end Stackwright
