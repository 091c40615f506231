import Stackwright.Decode.Project
import Stackwright.Document.Expand
import Stackwright.Document.Merge
import Stackwright.Document.Reading
import Stackwright.Error
import Stackwright.Text.Lowercase

/-!
# Loading projects

A project is loaded from one text, or from several files that are merged in their order. Variables are
expanded after the merge, and the result is decoded.
-/

namespace Stackwright

open Document (Tree)

/-- The name of a project that gets none from anywhere. -/
def fallbackName : String := "default"

/-- The dotenv file beside the first descriptor. -/
def dotenvName : String := ".env"

namespace Project

/-- The project that a tree describes, with its variables expanded. -/
def ofTree (lookup : Template.Lookup) (label : String) (tree : Tree) : Except Error Project :=
  match tree.expand lookup with
  | .error fault => .error (.interpolation fault)
  | .ok tree =>
      match Decode.project tree with
      | .error fault => .error (.descriptor label (.content fault))
      | .ok project => .ok project

/-- Gives a name to a project that has none. -/
def orNamed (p : Project) (name : String) : Project :=
  if p.name.isEmpty then { p with name } else p

/-- How a descriptor that comes from no file is called. -/
def inputLabel : String := "<input>"

/-- The project that a single tree describes. -/
def ofInput (lookup : Template.Lookup) (tree : Tree) : Except Error Project :=
  (ofTree lookup inputLabel tree).map (·.orNamed fallbackName)

/-- The tree of a descriptor text. -/
def readTree (label text : String) : Except Error Tree :=
  match Tree.read text with
  | .error problem => .error (.descriptor label (.document problem))
  | .ok tree => .ok tree

/-- The project that a text describes. -/
def ofText (lookup : Template.Lookup) (text : String) : Except Error Project :=
  readTree inputLabel text >>= ofInput lookup

end Project

/-- What is loaded. -/
structure LoadOptions where
  /-- The descriptor files, merged in their order. -/
  files : List String := []
  /-- The dotenv file; without one, the file beside the first descriptor is taken if it exists. -/
  envFile : Option String := none
  /-- A name for the project instead of its own; an empty one does not count. -/
  projectName : Option String := none
deriving DecidableEq, Repr, Inhabited

namespace FileTree

/-- The text of a file, with the path in its error. -/
def readFile (t : FileTree) (path : String) : Except Error String :=
  (t.readText path).mapError (.io path)

/-- Merges descriptor files over a tree. -/
def mergeFiles (t : FileTree) (base : Tree) : List String → Except Error Tree
  | [] => .ok base
  | path :: rest => do
      let text ← t.readFile path
      let overlay ← Project.readTree path text
      t.mergeFiles (base.merge overlay) rest

/-- The variables of a dotenv file. -/
def readDotenv (t : FileTree) (path : String) : Except Error (Dict String) := do
  let text ← t.readFile path
  (Dotenv.parse text).mapError .dotenv

/-- The variables of the dotenv file for descriptors of which the first is given. -/
def dotenvFor (t : FileTree) (first : String) (envFile : Option String) : Except Error (Dict String) :=
  match envFile with
  | some path => t.readDotenv path
  | none =>
      let path := Path.sibling first dotenvName
      if t.isFile path then t.readDotenv path else .ok {}

end FileTree

/-- Looks in the environment first and then among the variables of a dotenv file. -/
def lookupIn (environment : Template.Lookup) (dotenv : Dict String) : Template.Lookup :=
  fun name => environment name <|> dotenv.get? name

/-- How the descriptors are called in errors about their merge. -/
def sourceLabel : List String → String
  | [single] => single
  | _ => "<merged>"

/-- The text in lower case. -/
def lowerString (s : String) : String :=
  String.ofList (Text.lower s.toList)

/-- The name of a loaded project: the given one, else its own, else that of the directory of its first
descriptor, all in lower case. -/
def resolveName (t : FileTree) (given? : Option String) (declared first : String) : String :=
  match given given? with
  | some name => lowerString name
  | none =>
      if !declared.isEmpty then lowerString declared
      else (given ((t.directoryName? first).map lowerString)).getD fallbackName

/-- Loads a project from descriptor files. -/
def Project.load (t : FileTree) (environment : Template.Lookup) (options : LoadOptions) :
    Except Error Project :=
  match options.files with
  | [] => .error .noFiles
  | first :: rest => do
      let tree ← t.mergeFiles .null (first :: rest)
      let dotenv ← t.dotenvFor first options.envFile
      let project ← Project.ofTree (lookupIn environment dotenv) (sourceLabel options.files) tree
      return { project with name := resolveName t options.projectName project.name first }

end Stackwright
