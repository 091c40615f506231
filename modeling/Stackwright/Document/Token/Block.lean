import Stackwright.Document.Problem
import Stackwright.Document.Cursor

/-!
# Block scalars

A block scalar is a header line and the lines below it that are indented further than the collection
around it. A literal one keeps its line ends, a folded one turns single line ends between full lines into
spaces. The header may fix the indentation and says what happens to the line ends after the last line.
-/

namespace Stackwright
namespace Document

/-- What happens to the line ends after the last line of a block scalar. -/
inductive Chomping where
  /-- All are dropped. -/
  | strip
  /-- The first is kept. -/
  | clip
  /-- All are kept. -/
  | keep
deriving DecidableEq, Repr

/-- The chomping that a character of the header asks for. -/
def readChomping (c : Cursor) : Chomping × Cursor :=
  match c.peek with
  | some '+' => (.keep, c.skip 1)
  | some '-' => (.strip, c.skip 1)
  | _ => (.clip, c)

/-- The indentation that a digit of the header fixes; zero stands for none. -/
def readIncrement (c : Cursor) : Except Problem (Nat × Cursor) :=
  match c.peek with
  | some d =>
      if d == '0' then .error .blockHeader
      else if '1' ≤ d && d ≤ '9' then .ok (d.toNat - '0'.toNat, c.skip 1)
      else .ok (0, c)
  | none => .ok (0, c)

/-- Reads the header of a block scalar up to the end of its line. -/
def readBlockHeader (c : Cursor) : Except Problem (Chomping × Nat × Cursor) := do
  let (chomping, increment, c) ←
    match readChomping c with
    | (.clip, _) => do
        let (increment, c) ← readIncrement c
        if increment = 0 then pure (.clip, 0, c)
        else
          let (chomping, c) := readChomping c
          pure (chomping, increment, c)
    | (chomping, c) => do
        let (increment, c) ← readIncrement c
        pure (chomping, increment, c)
  let c := c.skipWhile isSpaceOrTab
  let c := if c.peek == some '#' then c.skipToBreak else c
  if isLineEnd c.peek then return (chomping, increment, c.skipBreak) else throw .blockHeader

/-- Moves over the indentation of a line, up to column `indent`; an `indent` of zero has no bound. -/
def skipIndent (indent : Nat) (c : Cursor) : Cursor :=
  let spaces := (c.rest.takeWhile (· == ' ')).length
  c.skip (if indent = 0 then spaces else min spaces (indent - c.column))

/-- Reads empty lines and the indentation of the line after them. The result holds the line ends, last one
first, and the widest indentation that was seen. -/
def readEmptyLines (indent : Nat) :
    Nat → Nat → List Char → Cursor → Except Problem (List Char × Nat × Cursor)
  | 0, widest, ends, c => .ok (ends, widest, c)
  | fuel + 1, widest, ends, c =>
      let c := skipIndent indent c
      let widest := max widest c.column
      if (indent = 0 || c.column < indent) && c.peek == some '\t' then .error .tab
      else if c.peek.any isBreak then
        let (lineEnd, c) := c.takeBreak
        readEmptyLines indent fuel widest (lineEnd.reverse ++ ends) c
      else .ok (ends, widest, c)

/-- The lines of a block scalar under way. -/
structure BlockText where
  /-- What was read so far, last character first. -/
  text : List Char := []
  /-- The end of the last line. -/
  lineEnd : List Char := []
  /-- The ends of the empty lines after it, last one first. -/
  empty : List Char := []
  /-- Whether the last line starts with a blank. -/
  indented : Bool := false

/-- Adds a line; `indented` says that it starts with a blank. -/
def BlockText.add (b : BlockText) (literal indented : Bool) (line lineEnd empty : List Char) : BlockText :=
  let joint :=
    if !literal && b.lineEnd == ['\n'] && !b.indented && !indented then
      if b.empty.isEmpty then [' '] else []
    else b.lineEnd
  { text := line.reverse ++ b.empty ++ joint ++ b.text, lineEnd, empty, indented }

/-- The text of a block scalar after its last line. -/
def BlockText.finish (b : BlockText) : Chomping → List Char
  | .strip => b.text.reverse
  | .clip => (b.lineEnd ++ b.text).reverse
  | .keep => (b.empty ++ b.lineEnd ++ b.text).reverse

/-- Reads the lines of a block scalar that start in column `indent`. -/
def readBlockLines (literal : Bool) (indent : Nat) :
    Nat → BlockText → Cursor → Except Problem (BlockText × Cursor)
  | 0, b, c => .ok (b, c)
  | fuel + 1, b, c =>
      if c.column != indent || c.rest.isEmpty then .ok (b, c)
      else do
        let line := c.rest.takeWhile (!isBreak ·)
        let (lineEnd, next) := c.skipToBreak.takeBreak
        let (empty, _, next) ← readEmptyLines indent next.fuel 0 [] next
        readBlockLines literal indent fuel
          (b.add literal (c.peek.any isSpaceOrTab) line lineEnd empty) next

/-- Reads a block scalar that starts at the cursor, inside a collection with the given indentation. -/
def readBlock (literal : Bool) (parent : Int) (c : Cursor) : Except Problem (List Char × Cursor) := do
  let (chomping, increment, c) ← readBlockHeader (c.skip 1)
  let fixed := if increment = 0 then 0 else (max parent 0).toNat + increment
  let (empty, widest, c) ← readEmptyLines fixed c.fuel 0 [] c
  let indent := if fixed = 0 then max widest (max (parent + 1) 1).toNat else fixed
  let (b, c) ← readBlockLines literal indent c.fuel { empty } c
  return (b.finish chomping, c)

end Document
end Stackwright
