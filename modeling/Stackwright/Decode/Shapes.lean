import Stackwright.Decode.Scalar
import Stackwright.Text.Split

/-!
# Lists and mappings of a descriptor

Many settings can be written as a list of short texts or as a mapping. Both forms are read into the same
value.
-/

namespace Stackwright
namespace Decode
namespace Reader

/-- The pair that an item of a list writes; an item without an equals sign has no value. -/
def pairOf (item : String) : String × Option String :=
  match Text.splitString '=' item with
  | some (key, value) => (key, some value)
  | none => (item, none)

/-- Reads variables, as a mapping to scalars or as a list of pairs. -/
def settings : Reader (Dict (Option String)) :=
  (optional (oneOf
    [ (dict (optional scalar)).map (Dict.map fun _ value => value.map Scalar.string),
      (list text).map fun items => Dict.ofList (items.map pairOf) ])).map (·.getD {})

/-- Reads labels: variables in which a missing value is empty. -/
def labels : Reader (Dict String) :=
  settings.map (Dict.map fun _ value => value.getD "")

/-- The host and the address that an item of a list writes. -/
def hostOf (item : String) : Option (String × String) :=
  (Text.splitString '=' item).or (Text.splitString ':' item)

/-- Adds an address to a host. -/
def addHost (hosts : Dict (List String)) (entry : String × String) : Dict (List String) :=
  hosts.alter entry.1 fun addresses => addresses.getD [] ++ [entry.2]

/-- Reads host names with their addresses. -/
def hosts : Reader (Dict (List String)) :=
  (optional (oneOf
    [ dict (oneOrMany text),
      (list text).map fun items => (items.filterMap hostOf).foldl addHost {} ])).map (·.getD {})

/-- Reads names with settings that may be missing, as a list of names or as a mapping. -/
def named {α : Type} (r : Reader α) : Reader (Dict (Option α)) :=
  (optional (oneOf
    [ (list text).map fun names => Dict.ofList (names.map fun name => (name, none)),
      dict (optional r) ])).map (·.getD {})

/-- Reads a list of entries that each have a short and a long form. -/
def entriesOf {α : Type} (shapes : List (Reader α)) : Reader (List α) :=
  (optional (list (oneOf shapes))).map (·.getD [])

/-- Reads whether something exists outside the deployment; a mapping says that it does. -/
def external : Reader Bool :=
  (optional (oneOf
    [ bool,
      fun _ t => match t with
        | .mapping _ => .ok true
        | _ => .error .shape ])).map (·.getD false)

end Reader
end Decode
end Stackwright
