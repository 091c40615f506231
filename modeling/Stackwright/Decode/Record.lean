import Stackwright.Decode.Reader

/-!
# Records

A record is read from a mapping of its fields, or, in a buffered place, from a list of them. Fields that
are not given keep their defaults and unknown ones are ignored. The fields are read in the order in which
they are written, so the first fault is the one that is told, and are put into the record in the record's
own order, so that the order in which they are written does not matter otherwise.
-/

namespace Stackwright
namespace Decode

open Document (Tree)

/-- A field of a record: its name, and how its value changes the record. -/
structure Field (α : Type) where
  name : String
  read : Place → Tree → Except Fault (α → α)

variable {α β : Type}

/-- A field with a reader for its value and a way to put the value into the record. -/
def field (name : String) (r : Reader β) (put : α → β → α) : Field α where
  name := name
  read place t := (r place t).map fun value record => put record value

/-- Values of fields that were read, by the name of the field. -/
abbrev Settings (α : Type) := List (String × (α → α))

/-- The field that a key names; in a buffered place a number names a field by its position. -/
def fieldAt (fields : List (Field α)) (place : Place) (key : Tree) : Except Fault (Option (Field α)) :=
  match place.view key, place with
  | .text name, _ => .ok (fields.find? (·.name == name))
  | .int n, .buffered => if 0 ≤ n then .ok fields[n.toNat]? else .error .shape
  | _, _ => .error .shape

/-- Reads the fields given by the entries of a mapping; no field may be given twice. -/
def readFields (fields : List (Field α)) (place : Place) (seen : List String) :
    List (Tree × Tree) → Except Fault (Settings α)
  | [] => .ok []
  | (key, value) :: rest => do
      match ← fieldAt fields place key with
      | none => readFields fields place seen rest
      | some f =>
          if seen.contains f.name then throw .shape
          let put ← f.read place value
          let settings ← readFields fields place (f.name :: seen) rest
          return (f.name, put) :: settings

/-- Reads the fields given by the items of a list, in the order of the fields. -/
def readPositions (place : Place) : List (Field α) → List Tree → Except Fault (Settings α)
  | _, [] => .ok []
  | [], _ :: _ => .error .shape
  | f :: fields, item :: rest => do
      let put ← f.read place item
      let settings ← readPositions place fields rest
      return (f.name, put) :: settings

/-- Puts settings into a record, in the order of its fields. -/
def applySettings (fields : List (Field α)) (settings : Settings α) (record : α) : α :=
  fields.foldl
    (fun record f =>
      match settings.lookup f.name with
      | some put => put record
      | none => record)
    record

/-- Reads a record whose fields start from the given defaults. -/
def record (fields : List (Field α)) (defaults : α) : Reader α := fun place t =>
  match place.view t, place with
  | .mapping entries, _ => do
      let settings ← readFields fields place [] entries
      return applySettings fields settings defaults
  | .sequence items, .buffered => do
      let settings ← readPositions place fields items
      return applySettings fields settings defaults
  | .null, .direct => .ok defaults
  | _, _ => .error .shape

end Decode
end Stackwright
