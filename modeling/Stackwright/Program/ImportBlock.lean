import Stackwright.Program.Ident
import Stackwright.Text.Blank
import Stackwright.Text.Split

/-!
# Import blocks

The import block of a source text runs from its first line `import (` to the next line `)`. Every line of
it that binds a qualifier is an import, and an import is used if code outside the block refers to its
qualifier.
-/

namespace Stackwright
namespace Program

/-- Whether a line opens an import block. -/
def opensImports (line : List Char) : Bool :=
  Text.trim line == "import (".toList

/-- Whether a line closes an import block. -/
def closesImports (line : List Char) : Bool :=
  Text.trim line == [')']

/-- The lines of a text around its import block. -/
structure ImportBlock where
  before : List (List Char)
  opening : List Char
  entries : List (List Char)
  closing : List Char
  after : List (List Char)
deriving DecidableEq, Repr

/-- The first import block of a text, if there is one. -/
def ImportBlock.find? (lines : List (List Char)) : Option ImportBlock :=
  match lines.dropWhile (!opensImports ·) with
  | [] => none
  | opening :: rest =>
      match rest.dropWhile (!closesImports ·) with
      | [] => none
      | closing :: after =>
          some
            { before := lines.takeWhile (!opensImports ·)
              opening
              entries := rest.takeWhile (!closesImports ·)
              closing
              after }

/-- The lines of a blanked text that stand beside the lines outside the block. -/
def ImportBlock.outside (b : ImportBlock) (code : List (List Char)) : List (List Char) :=
  code.take b.before.length ++ code.drop (b.before.length + b.entries.length + 2)

/-- The text between two double quotes that a text starts and ends with. -/
def unquoted (s : List Char) : Option (List Char) :=
  match s with
  | '"' :: rest => if rest.getLast? = some '"' then some rest.dropLast else none
  | _ => none

/-- The name that an import line binds: the name in front of the path, or the last segment of the path.
Imports for their effects only and imports into the own scope bind none. -/
def boundName (line : List Char) : Option (List Char) :=
  let line := Text.trim line
  match line.dropWhile (!Text.isBlank ·) with
  | [] => (unquoted line).map fun path => (Text.splitAll '/' path).getLastD []
  | rest =>
      let name := line.takeWhile (!Text.isBlank ·)
      if (unquoted (Text.trim rest)).isNone || name = ['_'] || name = ['.'] then none else some name

/-- Whether a qualifier can start after a character. -/
def startsName (previous : Option Char) : Bool :=
  previous.all fun c => !isIdentChar c && c != '.'

/-- Looks for an occurrence of `needle` where a qualifier can start. The occurrences are those that a search
from the left finds, each after the end of the one before; `skip` characters still belong to the last one. -/
def occursAsName (needle : List Char) : Nat → Option Char → List Char → Bool
  | _, _, [] => false
  | skip + 1, _, c :: rest => occursAsName needle skip (some c) rest
  | 0, previous, c :: rest =>
      if needle.isPrefixOf (c :: rest) then
        startsName previous || occursAsName needle (needle.length - 1) (some c) rest
      else occursAsName needle 0 (some c) rest

/-- Whether a line of code refers to a qualifier. -/
def refersTo (qualifier line : List Char) : Bool :=
  occursAsName (qualifier ++ ['.']) 0 none line

end Program
end Stackwright
