/-!
# A place in a text

A cursor is the rest of a text together with its place: how many bytes come before it, its line and its
column, which counts characters. It also knows how long the whole text is, which bounds every walk over it.
A line ends with a line feed, a carriage return, both, or one of three further separators.
-/

namespace Stackwright
namespace Document

/-- Whether a character is a space or a tab. -/
def isSpaceOrTab (c : Char) : Bool :=
  c == ' ' || c == '\t'

/-- Whether a character ends a line. -/
def isBreak (c : Char) : Bool :=
  c == '\n' || c == '\r' || c == '\u0085' || c == '\u2028' || c == '\u2029'

/-- Whether a place is blank: a space, a tab, a line end or the end of the text. -/
def isGap : Option Char → Bool
  | none => true
  | some c => isSpaceOrTab c || isBreak c

/-- Whether a place is the end of a line or of the text. -/
def isLineEnd : Option Char → Bool
  | none => true
  | some c => isBreak c

/-- Whether a character can stand in the name of an anchor, a tag handle or a directive. -/
def isWordChar (c : Char) : Bool :=
  c.isAlphanum || c == '_' || c == '-'

/-- The rest of a text and its place. -/
structure Cursor where
  rest : List Char
  /-- How many characters the whole text has. -/
  size : Nat
  /-- How many bytes come before. -/
  offset : Nat := 0
  line : Nat := 0
  column : Nat := 0
deriving Repr

namespace Cursor

/-- The start of a text. -/
def ofText (text : List Char) : Cursor where
  rest := text
  size := text.length

/-- A bound for the number of steps of any walk from here. -/
def fuel (c : Cursor) : Nat :=
  c.size + 1

/-- The next character. -/
def peek (c : Cursor) : Option Char :=
  c.rest.head?

/-- The character after `n` others. -/
def peekAt (c : Cursor) (n : Nat) : Option Char :=
  c.rest[n]?

/-- How many bytes the characters of a text take. -/
def byteLength (s : List Char) : Nat :=
  s.foldl (fun n ch => n + ch.utf8Size) 0

/-- Moves over `n` characters of the line. -/
def skip (c : Cursor) (n : Nat) : Cursor :=
  { c with
    rest := c.rest.drop n, offset := c.offset + byteLength (c.rest.take n), column := c.column + n }

/-- Moves over the characters of the line that fit. -/
def skipWhile (c : Cursor) (p : Char → Bool) : Cursor :=
  let word := c.rest.takeWhile p
  { c with
    rest := c.rest.dropWhile p
    offset := c.offset + byteLength word
    column := c.column + word.length }

/-- Moves to the next line, whose separator has `n` characters. -/
def nextLine (c : Cursor) (n : Nat) : Cursor :=
  { c with
    rest := c.rest.drop n
    offset := c.offset + byteLength (c.rest.take n)
    line := c.line + 1
    column := 0 }

/-- Moves over a line end, and gives the character it stands for in a scalar. -/
def takeBreak (c : Cursor) : List Char × Cursor :=
  match c.rest with
  | '\r' :: '\n' :: _ => (['\n'], c.nextLine 2)
  | b :: _ =>
      if b == '\u2028' || b == '\u2029' then ([b], c.nextLine 1)
      else if isBreak b then (['\n'], c.nextLine 1)
      else ([], c)
  | [] => ([], c)

/-- Moves over a line end. -/
def skipBreak (c : Cursor) : Cursor :=
  c.takeBreak.2

/-- Moves to the end of the line. -/
def skipToBreak (c : Cursor) : Cursor :=
  c.skipWhile (!isBreak ·)

/-- Whether a line starts here with three characters and a blank, such as a document marker. -/
def atMarker (c : Cursor) (mark : Char) : Bool :=
  c.column == 0 && c.peek == some mark && c.peekAt 1 == some mark && c.peekAt 2 == some mark
    && isGap (c.peekAt 3)

/-- Whether a line starts here with the marker of a document's start or end. -/
def atDocumentMarker (c : Cursor) : Bool :=
  c.atMarker '-' || c.atMarker '.'

end Cursor
end Document
end Stackwright
