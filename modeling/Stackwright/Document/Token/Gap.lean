import Stackwright.Document.Cursor

/-!
# Gaps inside scalars

A scalar may go on over several lines. The blanks and line ends between two of its words are folded: one
line end becomes a space, and further line ends are kept.
-/

namespace Stackwright
namespace Document

/-- The blanks and line ends between two words of a scalar. -/
structure Gap where
  /-- The blanks on the line of the first word, last one first. -/
  blanks : List Char := []
  /-- Whether there is a line end. -/
  broken : Bool := false
  /-- The first line end. -/
  first : List Char := []
  /-- The line ends after the first, last one first. -/
  more : List Char := []

/-- What the gap contributes to the scalar. -/
def Gap.fold (g : Gap) : List Char :=
  if g.broken then
    if g.first == ['\n'] then
      if g.more.isEmpty then [' '] else g.more.reverse
    else g.first ++ g.more.reverse
  else g.blanks.reverse

/-- Adds a line end to a gap. -/
def Gap.addBreak (g : Gap) (lineEnd : List Char) : Gap :=
  if g.broken then { g with more := lineEnd.reverse ++ g.more }
  else { g with blanks := [], broken := true, first := lineEnd }

/-- Reads blanks and line ends. A tab in front of column `indent` of a new line is refused by giving no
result. -/
def readGap (indent : Int) : Nat → Gap → Cursor → Option (Gap × Cursor)
  | 0, g, c => some (g, c)
  | fuel + 1, g, c =>
      match c.peek with
      | none => some (g, c)
      | some ch =>
          if isSpaceOrTab ch then
            if g.broken then
              if ch == '\t' && (c.column : Int) < indent then none
              else readGap indent fuel g (c.skip 1)
            else readGap indent fuel { g with blanks := ch :: g.blanks } (c.skip 1)
          else if isBreak ch then
            let (lineEnd, next) := c.takeBreak
            readGap indent fuel (g.addBreak lineEnd) next
          else some (g, c)

end Document
end Stackwright
