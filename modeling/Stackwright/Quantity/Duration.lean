import Stackwright.Quantity.Amount
import Stackwright.Text.Blank
import Stackwright.Text.Inspect

/-!
# Durations

A duration is a whole number of nanoseconds. Its compact text is a sum of amounts with units, such as
`1m30s` or `1.5h`, or the single digit `0`.
-/

namespace Stackwright

/-- A length of time, in nanoseconds. -/
structure Duration where
  nanoseconds : Nat
deriving DecidableEq, Repr, Inhabited

namespace Duration

/-- Nanoseconds in a second. -/
def perSecond : Nat := 1000000000

/-- A whole number of seconds. -/
def ofSeconds (seconds : Nat) : Duration :=
  ⟨seconds * perSecond⟩

/-- The whole seconds of a duration. -/
def seconds (d : Duration) : Nat :=
  d.nanoseconds / perSecond

/-- The nanoseconds beyond the last whole second. -/
def subsecond (d : Duration) : Nat :=
  d.nanoseconds % perSecond

/-- Whether a duration is zero. -/
def isZero (d : Duration) : Bool :=
  d.nanoseconds == 0

/-- The duration cut to whole seconds. -/
def truncate (d : Duration) : Duration :=
  ofSeconds d.seconds

/-- How many whole seconds a duration can have, at most one less: they are counted in sixty-four bits. -/
def secondsLimit : Nat := Nat.pow 2 64

/-- The second that rounding adds, from half a second on. -/
def carry (d : Duration) : Nat :=
  if 500 ≤ d.subsecond / 1000000 then 1 else 0

/-- The second is added exactly from half a second on. -/
theorem seconds_add_carry (d : Duration) :
    d.seconds + d.carry = (d.nanoseconds + 500000000) / perSecond := by
  unfold carry
  split
  all_goals
    rename_i hhalf
    simp only [subsecond, seconds, perSecond] at hhalf ⊢
    omega

/-- The duration rounded to whole seconds; half a second rounds up. The sum wraps around at the limit. -/
def round (d : Duration) : Duration :=
  ofSeconds ((d.seconds + d.carry) % secondsLimit)

/-- Whether rounding reaches the limit. -/
def roundOverflows (d : Duration) : Bool :=
  secondsLimit ≤ d.seconds + d.carry

/-- A unit of time in compact text. -/
inductive Unit where
  | nanosecond
  | microsecond
  | millisecond
  | second
  | minute
  | hour
deriving DecidableEq, Repr

/-- Nanoseconds in a unit. -/
def Unit.scale : Unit → Float
  | .nanosecond => 1.0
  | .microsecond => 1000.0
  | .millisecond => 1000000.0
  | .second => 1000000000.0
  | .minute => 60000000000.0
  | .hour => 3600000000000.0

/-- The unit at the front of a text, the longest one that fits, and the text after it. -/
def readUnit (s : List Char) : Option (Unit × List Char) :=
  match s with
  | 'n' :: 's' :: rest => some (.nanosecond, rest)
  | 'u' :: 's' :: rest => some (.microsecond, rest)
  | 'µ' :: 's' :: rest => some (.microsecond, rest)
  | 'm' :: 's' :: rest => some (.millisecond, rest)
  | 's' :: rest => some (.second, rest)
  | 'm' :: rest => some (.minute, rest)
  | 'h' :: rest => some (.hour, rest)
  | _ => none

/-- The text after a unit is shorter than the text before it. -/
theorem length_readUnit {s rest : List Char} {u : Unit} (h : readUnit s = some (u, rest)) :
    rest.length < s.length := by
  unfold readUnit at h
  split at h <;> cases h <;> simp only [List.length_cons] <;> omega

set_option linter.unusedVariables false in
/-- Cuts a text into amounts with units; nothing may be left over. -/
def readParts (s : List Char) : Option (List (Quantity.Amount × Unit)) :=
  match s with
  | [] => some []
  | c :: cs =>
      match hamount : Quantity.readAmount (c :: cs) with
      | none => none
      | some (amount, afterAmount) =>
          match hunit : readUnit afterAmount with
          | none => none
          | some (unit, rest) => (readParts rest).map ((amount, unit) :: ·)
termination_by s.length
decreasing_by
  have h1 := Quantity.length_readAmount hamount
  have h2 := length_readUnit hunit
  omega

/-- The sum of the parts, rounded to whole nanoseconds; sums beyond sixty-four bits stop there. -/
def ofParts (parts : List (Quantity.Amount × Unit)) : Duration :=
  let total := parts.foldl (fun sum part => sum + part.1.value * part.2.scale) 0.0
  ⟨total.round.toUInt64.toNat⟩

/-- A compact text that is no duration. -/
structure Fault where
  text : String
deriving DecidableEq, Repr

/-- The wording of a fault. -/
def Fault.message (f : Fault) : String :=
  "invalid duration: " ++ Text.inspectString f.text

/-- Reads the compact text of a duration. -/
def parse (text : String) : Except Fault Duration :=
  let s := Text.trim text.toList
  if s = ['0'] then .ok ⟨0⟩
  else
    match readParts s with
    | some (part :: more) => .ok (ofParts (part :: more))
    | _ => .error ⟨text⟩

end Duration
end Stackwright
