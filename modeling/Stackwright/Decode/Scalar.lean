import Stackwright.Decimal.Style
import Stackwright.Decode.Reader

/-!
# Scalars of a descriptor

A scalar is taken in any of its forms where only its text counts, and quantities are taken as numbers or
as compact text.
-/

namespace Stackwright
namespace Decode

/-- A scalar: a truth value, an integer, a float or a string. -/
inductive Scalar where
  | bool (value : Bool)
  | int (value : Int)
  | float (value : Float)
  | text (value : String)
deriving DecidableEq

/-- The text of a scalar. -/
def Scalar.string : Scalar → String
  | .bool b => if b then "true" else "false"
  | .int n => String.ofList (Text.decimalInt n)
  | .float x => Decimal.Style.plain.string x
  | .text s => s

namespace Reader

/-- Reads a scalar; an integer beyond the signed range is a float. -/
def scalar : Reader Scalar :=
  oneOf [bool.map .bool, int64.map .int, float.map .float, text.map .text]

/-- Reads one value or a list of them. -/
def oneOrMany {α : Type} (r : Reader α) : Reader (List α) :=
  oneOf [r.map ([·]), list r]

/-- Reads the texts of one scalar or a list of scalars; null stands for none. -/
def texts : Reader (List String) :=
  (optional (oneOrMany scalar)).map fun scalars => (scalars.getD []).map Scalar.string

/-- Reads the text of a scalar. -/
def optText : Reader (Option String) :=
  (optional scalar).map (·.map Scalar.string)

/-- Applies a function that may fail to a value that may be missing. -/
def onSome {α β : Type} (f : α → Except Fault β) : Option α → Except Fault (Option β)
  | none => .ok none
  | some a => (f a).map some

/-- The number that a scalar writes. -/
def floatOf : Scalar → Except Fault Float
  | .bool b => .error (.truth b)
  | .int n => .ok (floatOfInt n)
  | .float x => .ok x
  | .text s =>
      match Decimal.read (Text.trim s.toList) with
      | some x => .ok x
      | none => .error (.number s)

/-- Reads a float, which may be written as text. -/
def optFloat : Reader (Option Float) :=
  (optional scalar).check (onSome floatOf)

/-- The duration that a scalar writes; a plain integer counts seconds. -/
def durationOf : Scalar → Except Fault Duration
  | .int n => if 0 ≤ n then .ok (.ofSeconds n.toNat) else .error (.negative n)
  | s => (Duration.parse s.string).mapError .duration

/-- Reads a duration. -/
def optDuration : Reader (Option Duration) :=
  (optional scalar).check (onSome durationOf)

/-- The byte size that a scalar writes; a plain integer counts bytes. -/
def bytesOf : Scalar → Except Fault Int
  | .int n => .ok n
  | s => (ByteSize.parse s.string).mapError .bytes

/-- Reads a byte size. -/
def optBytes : Reader (Option Int) :=
  (optional scalar).check (onSome bytesOf)

/-- Reads a byte size; a missing one is zero. -/
def bytes : Reader Int :=
  optBytes.map (·.getD 0)

/-- The digits of a file mode without the mark of their base. -/
def modeDigits (s : List Char) : List Char :=
  match s with
  | '0' :: 'o' :: digits => digits
  | '0' :: 'O' :: digits => digits
  | _ => s

/-- The file mode that a scalar writes. The digits of its text are octal, whatever the scalar was. -/
def fileModeOf (scalar : Scalar) : Except Fault Nat :=
  match Text.readNat 8 (Nat.pow 2 32) (modeDigits (Text.trim scalar.string.toList)) with
  | some mode => .ok mode
  | none => .error (.fileMode scalar.string)

/-- Reads a file mode. -/
def optFileMode : Reader (Option Nat) :=
  (optional scalar).check (onSome fileModeOf)

/-- The device count that a scalar writes; `all` is `-1`. -/
def deviceCountOf : Scalar → Except Fault Int
  | .int n => .ok n
  | s =>
      if s = .text "all" then .ok (-1)
      else
        match Text.readInt64 10 s.string.toList with
        | some n => .ok n
        | none => .error (.deviceCount s.string)

/-- Reads a device count. -/
def optDeviceCount : Reader (Option Int) :=
  (optional scalar).check (onSome deviceCountOf)

end Reader
end Decode
end Stackwright
