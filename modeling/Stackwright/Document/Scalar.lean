import Stackwright.Decimal.Reading
import Stackwright.Document.Problem
import Stackwright.Document.Tree

/-!
# The values of plain scalars

A plain scalar is null, a truth value, an integer, a float or, failing all that, a string. Digits with a
leading zero are a string. A quoted scalar is always a string.
-/

namespace Stackwright
namespace Document
namespace Scalar

/-- Whether a text is one of the spellings of null. -/
def isNull (s : String) : Bool :=
  s.isEmpty || s == "~" || s == "null" || s == "Null" || s == "NULL"

/-- The truth value that a text spells. -/
def readBool (s : String) : Option Bool :=
  if s == "true" || s == "True" || s == "TRUE" then some true
  else if s == "false" || s == "False" || s == "FALSE" then some false
  else none

/-- Whether a text starts with a sign. -/
def startsSigned (s : List Char) : Bool :=
  s.head?.any fun c => c == '+' || c == '-'

/-- Digits with a leading zero, after an optional sign. -/
def isZeroLed (s : List Char) : Bool :=
  let digits := if startsSigned s then s.drop 1 else s
  1 < digits.length && digits.head? == some '0' && digits.all Char.isDigit

/-- The bases of integers other than ten, with the marks in front of their digits. -/
def basedMarks : List (List Char × Nat) :=
  [(['0', 'x'], 16), (['0', 'o'], 8), (['0', 'b'], 2)]

/-- The digits behind the mark of a base, and the base. -/
def readBased (s : List Char) : Option (Nat × List Char) :=
  basedMarks.findSome? fun (mark, base) =>
    if mark.isPrefixOf s then some (base, s.drop mark.length) else none

/-- The size of an integer without sign, in one of the bases. -/
def readMagnitude (s : List Char) : Option Nat :=
  match readBased s with
  | some (base, digits) => Text.readDigits base digits
  | none => if startsSigned s then none else Text.readDigits 10 s

/-- The integer that a text spells: an optional sign, and digits in one of the bases. -/
def readInt (s : List Char) : Option Int :=
  match s with
  | '-' :: rest =>
      match readBased rest with
      | some (base, digits) => (Text.readDigits base digits).map fun n => -(n : Int)
      | none => if isZeroLed s then none else (Text.readDigits 10 rest).map fun n => -(n : Int)
  | '+' :: rest => if isZeroLed s then none else (readMagnitude rest).map Int.ofNat
  | _ => if isZeroLed s then none else (readMagnitude s).map Int.ofNat

/-- The float that a text spells. -/
def readFloat (s : List Char) : Option Float :=
  let unsigned := match s with
    | '+' :: rest => rest
    | _ => s
  let isInfinity (word : List Char) : Bool :=
    word == ".inf".toList || word == ".Inf".toList || word == ".INF".toList
  if s.head? == some '+' && startsSigned unsigned then none
  else if isInfinity unsigned then some (1.0 / 0.0)
  else if s.head? == some '-' && isInfinity (s.drop 1) then some (-(1.0 / 0.0))
  else if s == ".nan".toList || s == ".NaN".toList || s == ".NAN".toList then some (0.0 / 0.0)
  else (Decimal.read unsigned).filter Float.isFinite

/-- Whether an integer fits into sixty-four bits, with or without a sign. -/
def fits (n : Int) : Bool :=
  -(Nat.pow 2 63 : Int) ≤ n && n < Nat.pow 2 64

/-- Whether an integer fits into a hundred and twenty-eight bits, with or without a sign. -/
def nearlyFits (n : Int) : Bool :=
  -(Nat.pow 2 127 : Int) ≤ n && n < Nat.pow 2 128

/-- The value of a plain scalar. Integers just outside the range are refused; still larger ones are
floats. -/
def resolve (text : String) : Except Problem Tree :=
  let s := text.toList
  if isNull text then .ok .null
  else
    match readBool text with
    | some b => .ok (.bool b)
    | none =>
        match (readInt s).filter nearlyFits with
        | some n => if fits n then .ok (.int n) else .error .range
        | none =>
            if isZeroLed s then .ok (.text text)
            else
              match readFloat s with
              | some x => .ok (.float x)
              | none => .ok (.text text)

/-- The value of a scalar with one of the tags of the core schema, which it has to fit. -/
def resolveAs (kind : String) (text : String) : Except Problem Tree :=
  let s := text.toList
  match kind with
  | "bool" => ((readBool text).map fun b => .ok (.bool b)).getD (.error .tag)
  | "int" => (((readInt s).filter fits).map fun n => .ok (.int n)).getD (.error .tag)
  | "float" => ((readFloat s).map fun x => .ok (.float x)).getD (.error .tag)
  | "null" => if isNull text && !text.isEmpty then .ok .null else .error .tag
  | _ => .ok (.text text)

end Scalar
end Document
end Stackwright
