import Stackwright.Program.Blanking
import Stackwright.Program.ImportBlock
import Stackwright.Text.Lines

/-!
# Canonical source text

The last pass over a source text. It refuses texts with open literals or brackets that do not match, drops
the imports that no code refers to, and settles the white space: no line ends in a blank, no two empty
lines follow each other, and the text neither starts nor ends with an empty line.
-/

namespace Stackwright
namespace Program

/-- Whether a line is an import that the code outside its block does not refer to. -/
def isUnusedImport (outside : List (List Char)) (line : List Char) : Bool :=
  match boundName line with
  | none => false
  | some name => !outside.any (refersTo name)

/-- Whether a line is an import that the code outside its block refers to. -/
def isUsedImport (outside : List (List Char)) (line : List Char) : Bool :=
  match boundName line with
  | none => false
  | some name => outside.any (refersTo name)

/-- The lines of a text without the unused imports of its block. A block without a used import goes as a
whole. -/
def ImportBlock.dropUnused (b : ImportBlock) (code : List (List Char)) : List (List Char) :=
  let outside := b.outside code
  if b.entries.any (isUsedImport outside) then
    b.before ++ b.opening :: b.entries.filter (!isUnusedImport outside ·) ++ b.closing :: b.after
  else b.before ++ b.after

/-- Adds a line to the lines before it, the last first. An empty line after the start of an import block is
left out, and an empty line before a closing parenthesis is taken back. -/
def tightenStep (done : List (List Char)) (line : List Char) : List (List Char) :=
  match done with
  | [] => [line]
  | last :: earlier =>
      if Text.isAllBlank line && opensImports last then done
      else if closesImports line && Text.isAllBlank last then line :: earlier
      else line :: done

/-- Drops the empty lines that stand directly inside the ends of an import block. -/
def tighten (lines : List (List Char)) : List (List Char) :=
  (lines.foldl tightenStep []).reverse

/-- The lines of a text without its unused imports. -/
def pruneImports (lines code : List (List Char)) : List (List Char) :=
  match ImportBlock.find? lines with
  | none => lines
  | some b => tighten (b.dropUnused code)

/-- Puts a trimmed line in front of settled lines. An empty line stays only in front of a line with text. -/
def settleStep (line : List Char) (rest : List (List Char)) : List (List Char) :=
  match line, rest with
  | [], [] => []
  | [], [] :: _ => rest
  | _, _ => line :: rest

/-- Lines without blanks at their ends, without empty lines at either end of the text and without two empty
lines in a row. -/
def settle (lines : List (List Char)) : List (List Char) :=
  ((lines.map Text.trimEnd).foldr settleStep []).dropWhile List.isEmpty

/-- The text of lines, each with a line end. -/
def unlines (lines : List (List Char)) : List Char :=
  lines.flatMap fun line => line ++ ['\n']

/-- The canonical form of a source text. -/
def canonicalize (source : List Char) : Except FormatFault (List Char) := do
  let code ← blank source
  return unlines (settle (pruneImports (Text.lines source) (Text.lines code)))

end Program
end Stackwright
