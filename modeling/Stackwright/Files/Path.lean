import Stackwright.Text.Split

/-!
# Paths

A path is a text whose components are separated by slashes; an absolute one starts with a slash.
-/

namespace Stackwright
namespace Path

/-- Whether a path is absolute. -/
def isAbsolute (path : String) : Bool :=
  path.toList.head? == some '/'

/-- The components of a path; an empty one stands for a repeated slash. -/
def components (path : String) : List String :=
  (Text.splitAll '/' path.toList).map String.ofList

/-- Drops the slashes and the dots that stand for the directory itself from the end of a reversed path. A
lone slash is the root and stays, as does a lone dot. -/
def trimReversed : List Char → List Char
  | ['/'] => ['/']
  | '/' :: rest => trimReversed rest
  | '.' :: '/' :: rest => trimReversed ('/' :: rest)
  | path => path

/-- The directory that the last component of a path stands in; a single component has the empty one. -/
def parent (path : List Char) : List Char :=
  (trimReversed (path.reverse.dropWhile (· != '/'))).reverse

/-- The path of a name in the directory that the last component of a path stands in. -/
def sibling (path name : String) : String :=
  let directory := parent path.toList
  if directory.isEmpty || directory.getLast? = some '/' then String.ofList directory ++ name
  else String.ofList directory ++ "/" ++ name

example : sibling "c.yaml" ".env" = ".env" := by decide

example : sibling "sub/./c.yaml" ".env" = "sub/.env" := by decide

end Path
end Stackwright
