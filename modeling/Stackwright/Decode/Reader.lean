import Stackwright.Decode.Fault
import Stackwright.Dict
import Stackwright.Document.Tree

/-!
# Readers

A reader turns a tree into a value. It runs in one of two places. In a direct place tags are dropped, and
null stands for an empty list, dictionary or record. In a buffered place, below a choice between several
shapes, tags are refused, null stands for nothing but a missing value, and a record may also be written as
a list of its fields in order.
-/

namespace Stackwright
namespace Decode

open Document (Tree)

/-- Where a value is read. -/
inductive Place where
  | direct
  | buffered
deriving DecidableEq, Repr

/-- Reads a value of a type at a place. -/
abbrev Reader (α : Type) := Place → Tree → Except Fault α

variable {α β : Type}

/-- The tree as its place sees it. -/
def Place.view : Place → Tree → Tree
  | .direct, t => t.untagged
  | .buffered, t => t

namespace Reader

/-- Applies a function to what is read. -/
def map (f : α → β) (r : Reader α) : Reader β := fun place t =>
  (r place t).map f

/-- Applies a function that may fail to what is read. -/
def check (f : α → Except Fault β) (r : Reader α) : Reader β := fun place t => do
  f (← r place t)

/-- Reads a truth value. -/
def bool : Reader Bool := fun place t =>
  match place.view t with
  | .bool b => .ok b
  | _ => .error .shape

/-- Reads an integer from `low` up to but not including `high`. -/
def intIn (low high : Int) : Reader Int := fun place t =>
  match place.view t with
  | .int n => if low ≤ n ∧ n < high then .ok n else .error .shape
  | _ => .error .shape

/-- Reads a signed integer of sixty-four bits. -/
def int64 : Reader Int :=
  intIn (-(Nat.pow 2 63)) (Nat.pow 2 63)

/-- Reads a whole number below a bound. -/
def natBelow (bound : Nat) : Reader Nat :=
  map Int.toNat (intIn 0 bound)

/-- The float nearest to an integer of at most sixty-four bits. -/
def floatOfInt (n : Int) : Float :=
  if n < 0 then -(-n).toNat.toUInt64.toFloat else n.toNat.toUInt64.toFloat

/-- Reads a number as a float. -/
def float : Reader Float := fun place t =>
  match place.view t with
  | .float x => .ok x
  | .int n => .ok (floatOfInt n)
  | _ => .error .shape

/-- Reads a string. -/
def text : Reader String := fun place t =>
  match place.view t with
  | .text s => .ok s
  | _ => .error .shape

/-- Reads a value that may be missing; null stands for a missing one. -/
def optional (r : Reader α) : Reader (Option α) := fun place t =>
  match t with
  | .null => .ok none
  | _ => (r place t).map some

/-- Reads a list. -/
def list (r : Reader α) : Reader (List α) := fun place t =>
  match place.view t, place with
  | .sequence items, _ => items.mapM (r place)
  | .null, .direct => .ok []
  | _, _ => .error .shape

/-- Reads the entries of a dictionary in their order. -/
def entries (r : Reader α) (place : Place) : List (Tree × Tree) → Except Fault (List (String × α))
  | [] => .ok []
  | (key, value) :: rest => do
      let key ← text place key
      let value ← r place value
      let rest ← entries r place rest
      return (key, value) :: rest

/-- Reads a dictionary. -/
def dict (r : Reader α) : Reader (Dict α) := fun place t =>
  match place.view t, place with
  | .mapping es, _ => (entries r place es).map Dict.ofList
  | .null, .direct => .ok {}
  | _, _ => .error .shape

/-- The first reader of a list that takes the tree in a buffered place. -/
def first : List (Reader α) → Tree → Except Fault α
  | [], _ => .error .shape
  | r :: rest, t =>
      match r .buffered t with
      | .ok a => .ok a
      | .error _ => first rest t

/-- Reads the first of several shapes that fits. What was wrong with the others is not told. -/
def oneOf (shapes : List (Reader α)) : Reader α := fun _ t =>
  if t.hasTag then .error .shape else first shapes t

end Reader
end Decode
end Stackwright
