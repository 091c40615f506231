import Stackwright.Document.Tree
import Stackwright.Template.Expand

/-!
# Variables in documents

Every string value of a document is a template; keys and all other values stay as they are.
-/

namespace Stackwright
namespace Document
namespace Tree

mutual
/-- Expands the string values of a tree, in the order in which they are written. -/
def expand (lookup : Template.Lookup) : Tree → Except Template.Fault Tree
  | .text value => do
      let value ← Template.expand lookup value
      return .text value
  | .sequence items => do
      let items ← expandItems lookup items
      return .sequence items
  | .mapping entries => do
      let entries ← expandEntries lookup entries
      return .mapping entries
  | .tagged tag value => do
      let value ← value.expand lookup
      return .tagged tag value
  | .null => .ok .null
  | .bool value => .ok (.bool value)
  | .int value => .ok (.int value)
  | .float value => .ok (.float value)

/-- Expands the string values of the items of a sequence. -/
def expandItems (lookup : Template.Lookup) : List Tree → Except Template.Fault (List Tree)
  | [] => .ok []
  | item :: rest => do
      let item ← item.expand lookup
      let rest ← expandItems lookup rest
      return item :: rest

/-- Expands the string values under the keys of a mapping. -/
def expandEntries (lookup : Template.Lookup) :
    List (Tree × Tree) → Except Template.Fault (List (Tree × Tree))
  | [] => .ok []
  | (key, value) :: rest => do
      let value ← value.expand lookup
      let rest ← expandEntries lookup rest
      return (key, value) :: rest
end

end Tree
end Document
end Stackwright
