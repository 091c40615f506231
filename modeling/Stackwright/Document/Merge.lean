import Stackwright.Document.Tree

/-!
# Merging documents

An overlay changes a base document: mappings merge key by key, a null changes nothing but a tagged null, and
any other value replaces what was there. New keys come after the old ones.
-/

namespace Stackwright
namespace Document
namespace Tree

/-- Changes the value under a key, or adds the key at the end with a value of its own. -/
def upsert (key : Tree) (change : Tree → Tree) (fresh : Tree) :
    List (Tree × Tree) → List (Tree × Tree)
  | [] => [(key, fresh)]
  | (k, v) :: rest =>
      if k.same key then (k, change v) :: rest else (k, v) :: upsert key change fresh rest

mutual
/-- The base document with the overlay over it. -/
def merge (base : Tree) : Tree → Tree
  | .mapping overlay =>
      match base with
      | .mapping entries => .mapping (mergeEntries entries overlay)
      | _ => .mapping overlay
  | .null => if base.untagged.isNull then .null else base
  | overlay => overlay

/-- The entries of a mapping with the entries of another over them. -/
def mergeEntries (base : List (Tree × Tree)) : List (Tree × Tree) → List (Tree × Tree)
  | [] => base
  | (key, value) :: rest =>
      mergeEntries (upsert key (fun existing => merge existing value) value base) rest
end

end Tree
end Document
end Stackwright
