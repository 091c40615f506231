import Stackwright.Port
import Stackwright.Quantity.Bytes
import Stackwright.Quantity.Duration

/-!
# Faults of a descriptor

Why a tree is no descriptor: a value of the wrong shape, or a compact text that says nothing.
-/

namespace Stackwright
namespace Decode

/-- Why a tree could not be decoded. -/
inductive Fault where
  /-- A value has a shape that its place does not take. -/
  | shape
  | duration (fault : Duration.Fault)
  /-- A duration of a negative number of seconds. -/
  | negative (seconds : Int)
  | bytes (fault : ByteSize.Fault)
  | port (fault : Port.Fault)
  /-- A text that is no number. -/
  | number (text : String)
  /-- A truth value in the place of a number. -/
  | truth (value : Bool)
  | fileMode (text : String)
  | deviceCount (text : String)
deriving DecidableEq, Repr

/-- The wording of a fault. -/
def Fault.message : Fault → String
  | .shape => "a value does not have the expected shape"
  | .duration fault => fault.message
  | .negative seconds => "negative duration: " ++ String.ofList (Text.decimalInt seconds)
  | .bytes fault => fault.message
  | .port fault => fault.message
  | .number text => "invalid number: " ++ Text.inspectString text
  | .truth value => "expected a number, got " ++ (if value then "true" else "false")
  | .fileMode text => "invalid file mode: " ++ Text.inspectString text
  | .deviceCount text => "invalid device count: " ++ Text.inspectString text

end Decode
end Stackwright
