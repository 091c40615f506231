import Stackwright.Quantity.Amount
import Stackwright.Text.Blank
import Stackwright.Text.Inspect

/-!
# Byte sizes

The compact text of a byte size is an amount with an optional binary unit, such as `512m` or `1.5GB`, or
`-1` for no limit.
-/

namespace Stackwright
namespace ByteSize

/-- A unit of size in compact text. -/
inductive Unit where
  | byte
  | kibi
  | mebi
  | gibi
deriving DecidableEq, Repr

/-- Bytes in a unit. -/
def Unit.scale : Unit → Float
  | .byte => 1.0
  | .kibi => 1024.0
  | .mebi => 1048576.0
  | .gibi => 1073741824.0

/-- The unit that a text names, in any letter case; a missing unit means bytes. -/
def readUnit (s : List Char) : Option Unit :=
  match s.map Char.toLower with
  | [] => some .byte
  | ['b'] => some .byte
  | ['k'] => some .kibi
  | ['k', 'b'] => some .kibi
  | ['m'] => some .mebi
  | ['m', 'b'] => some .mebi
  | ['g'] => some .gibi
  | ['g', 'b'] => some .gibi
  | _ => none

/-- The amount and unit of a compact text. -/
def readParts (s : List Char) : Option (Quantity.Amount × Unit) :=
  match Quantity.readAmount s with
  | none => none
  | some (amount, rest) => (readUnit rest).map (amount, ·)

/-- A size rounded to whole bytes; sizes beyond sixty-three bits stop there. -/
def ofParts (amount : Quantity.Amount) (unit : Unit) : Int :=
  (amount.value * unit.scale).round.toInt64.toInt

/-- A compact text that is no byte size. -/
structure Fault where
  text : String
deriving DecidableEq, Repr

/-- The wording of a fault. -/
def Fault.message (f : Fault) : String :=
  "invalid byte size: " ++ Text.inspectString f.text

/-- Reads the compact text of a byte size. -/
def parse (text : String) : Except Fault Int :=
  let s := Text.trim text.toList
  if s = ['-', '1'] then .ok (-1)
  else
    match readParts s with
    | some (amount, unit) => .ok (ofParts amount unit)
    | none => .error ⟨text⟩

end ByteSize
end Stackwright
