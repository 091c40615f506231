import Stackwright.Files.Path
import Stackwright.Text.Utf8

/-!
# File trees

A file tree is a working directory and the files and directories around it. Every path below a directory
that the tree knows of makes that directory exist. There are no links, so `..` goes back one component.
-/

namespace Stackwright

/-- Why a file could not be read or written, or why a program could not be fed. -/
inductive IoFault where
  | notFound
  | notDirectory
  | isDirectory
  | brokenPipe
  /-- A path, or a name in it, that is longer than the system takes. -/
  | nameTooLong
  /-- A path with a zero character, which no file can have. -/
  | zeroInPath
  /-- The bytes of a file are no text. -/
  | notText
deriving DecidableEq, Repr

/-- The wording of a fault. -/
def IoFault.message : IoFault → String
  | .notFound => "No such file or directory (os error 2)"
  | .notDirectory => "Not a directory (os error 20)"
  | .isDirectory => "Is a directory (os error 21)"
  | .brokenPipe => "Broken pipe (os error 32)"
  | .nameTooLong => "File name too long (os error 36)"
  | .zeroInPath => "file name contained an unexpected NUL byte"
  | .notText => "stream did not contain valid UTF-8"

/-- What stands at a place in a file tree. -/
inductive FileNode where
  | directory
  | file (content : List UInt8)
deriving DecidableEq, Repr

/-- A working directory and the files around it, all named by their components from the root. -/
structure FileTree where
  workdir : List String := []
  nodes : List (List String × FileNode) := []
deriving DecidableEq, Repr

namespace FileTree

/-- What stands at a place. -/
def at? (t : FileTree) (place : List String) : Option FileNode :=
  match t.nodes.lookup place with
  | some node => some node
  | none =>
      if place.isPrefixOf t.workdir || t.nodes.any (fun entry => place.isPrefixOf entry.1) then
        some .directory
      else none

/-- Puts something at a place. -/
def put (t : FileTree) (place : List String) (node : FileNode) : FileTree :=
  { t with nodes := (place, node) :: t.nodes.filter (·.1 != place) }

/-- How many bytes a name in a directory may have. -/
def nameLimit : Nat := 255

/-- How many bytes a path may have. -/
def pathLimit : Nat := 4095

/-- Follows components from a place. Every place that a component is looked up in has to be a directory;
nothing has to stand at the last one. -/
def walk (t : FileTree) (place : List String) : List String → Except IoFault (List String)
  | [] => .ok place
  | name :: rest =>
      match t.at? place with
      | none => .error .notFound
      | some (.file _) => .error .notDirectory
      | some .directory =>
          if name = "" || name = "." then t.walk place rest
          else if name = ".." then t.walk place.dropLast rest
          else if nameLimit < name.utf8ByteSize then .error .nameTooLong
          else t.walk (place ++ [name]) rest

/-- Where a path starts. -/
def start (t : FileTree) (path : String) : List String :=
  if Path.isAbsolute path then [] else t.workdir

/-- The place that the components of a path lead to. -/
def follow (t : FileTree) (path : String) (names : List String) : Except IoFault (List String) :=
  if path.toList.contains '\x00' then .error .zeroInPath
  else if path.isEmpty then .error .notFound
  else if pathLimit < path.utf8ByteSize then .error .nameTooLong
  else t.walk (t.start path) names

/-- The place that a path leads to, and what stands there. -/
def resolve (t : FileTree) (path : String) : Except IoFault (List String × FileNode) :=
  match t.follow path (Path.components path) with
  | .error fault => .error fault
  | .ok place =>
      match t.at? place with
      | none => .error .notFound
      | some node => .ok (place, node)

/-- Whether something stands where a path leads. -/
def contains (t : FileTree) (path : String) : Bool :=
  match t.resolve path with
  | .ok _ => true
  | .error _ => false

/-- Whether a path leads to a file. -/
def isFile (t : FileTree) (path : String) : Bool :=
  match t.resolve path with
  | .ok (_, .file _) => true
  | _ => false

/-- The text of a file. -/
def readText (t : FileTree) (path : String) : Except IoFault String :=
  match t.resolve path with
  | .error fault => .error fault
  | .ok (_, .directory) => .error .isDirectory
  | .ok (_, .file content) =>
      match Text.decodeUtf8 content with
      | .ok text => .ok (String.ofList text)
      | .error _ => .error .notText

/-- The name of the directory that a path leads into, if it leads somewhere below the root. -/
def directoryName? (t : FileTree) (path : String) : Option String :=
  match t.resolve path with
  | .ok (place, _) => place.dropLast.getLast?
  | .error _ => none

/-- The components of a path whose last one names a file. A path that ends in slashes names the directory
in front of them instead, and its last name is not looked up. -/
def targetNames (path : String) : List String :=
  let names := Path.components path
  if names.getLast? = some "" then (names.reverse.dropWhile (· == "")).reverse.dropLast ++ ["."] else names

/-- Writes a text to a file, over what it held. -/
def writeText (t : FileTree) (path : String) (text : List Char) : Except IoFault FileTree :=
  match t.follow path (targetNames path) with
  | .error fault => .error fault
  | .ok place =>
      if t.at? place = some .directory then .error .isDirectory
      else .ok (t.put place (.file (Text.encodeUtf8 text)))

end FileTree
end Stackwright
