/-!
# Document trees

A descriptor is a tree of scalars, sequences and mappings. Mappings keep their entries in the order in
which they were written, their keys may be any tree, and a value may carry a tag.
-/

namespace Stackwright
namespace Document

/-- A value of a document. -/
inductive Tree where
  | null
  | bool (value : Bool)
  | int (value : Int)
  | float (value : Float)
  | text (value : String)
  | sequence (items : List Tree)
  | mapping (entries : List (Tree × Tree))
  | tagged (tag : String) (value : Tree)
deriving Inhabited

namespace Tree

/-- Whether two floats are the same number: zeros of both signs are, and what is no number is the same as
itself. -/
def sameFloat (a b : Float) : Bool :=
  a == b || (a.isNaN && b.isNaN)

mutual
/-- Whether two trees are the same key. The order in which the entries of a mapping are written does not
count. -/
def same : Tree → Tree → Bool
  | .null, .null => true
  | .bool a, .bool b => a == b
  | .int a, .int b => a == b
  | .float a, .float b => sameFloat a b
  | .text a, .text b => a == b
  | .sequence as, .sequence bs => sameItems as bs
  | .mapping as, .mapping bs => as.length == bs.length && sameEntries as bs
  | .tagged s a, .tagged t b => s == t && same a b
  | _, _ => false

/-- Whether two lists hold the same trees in the same order. -/
def sameItems : List Tree → List Tree → Bool
  | [], [] => true
  | a :: as, b :: bs => same a b && sameItems as bs
  | _, _ => false

/-- Whether every entry of a list is among those of another. -/
def sameEntries : List (Tree × Tree) → List (Tree × Tree) → Bool
  | [], _ => true
  | (k, v) :: as, bs => bs.any (fun e => same k e.1 && same v e.2) && sameEntries as bs
end

/-- The value without the tags around it. -/
def untagged : Tree → Tree
  | .tagged _ value => value.untagged
  | value => value

/-- Whether the value is null. -/
def isNull : Tree → Bool
  | .null => true
  | _ => false

mutual
/-- Whether a tag occurs anywhere in the tree. -/
def hasTag : Tree → Bool
  | .tagged _ _ => true
  | .sequence items => itemsHaveTag items
  | .mapping entries => entriesHaveTag entries
  | _ => false

/-- Whether a tag occurs anywhere in the items. -/
def itemsHaveTag : List Tree → Bool
  | [] => false
  | item :: rest => item.hasTag || itemsHaveTag rest

/-- Whether a tag occurs anywhere in the entries, keys included. -/
def entriesHaveTag : List (Tree × Tree) → Bool
  | [] => false
  | (key, value) :: rest => key.hasTag || value.hasTag || entriesHaveTag rest
end

end Tree
end Document
end Stackwright
