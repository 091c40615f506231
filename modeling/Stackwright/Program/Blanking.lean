import Stackwright.Text.Digits

/-!
# Code without its literals and comments

A source text is read once from left to right. Every character of a string, a rune or a comment becomes a
blank, and what is left is the code. On the way the brackets of the code are matched.

- An interpreted literal ends at its mark and has to end on the line it starts on; a backslash hides the
  character after it, whichever it is.
- Raw strings and block comments may run over lines, and their line ends stay.
- A line comment ends before the line end.

The reading is a fold over the characters with one `Scan` as its state, so the reading of two texts put
together is the reading of the second one from where the first one ends (`Scan.run_append`).
-/

namespace Stackwright
namespace Program

/-- Why a source text cannot be formatted. Lines are counted from one. -/
inductive FormatFault where
  | unterminatedLiteral (line : Nat)
  | unterminatedRaw (line : Nat)
  | unterminatedComment (line : Nat)
  /-- A closing bracket that does not close the last open one. -/
  | unbalanced (bracket : Char) (line : Nat)
  /-- An opening bracket that is never closed. -/
  | unclosed (bracket : Char) (line : Nat)
deriving DecidableEq, Repr

/-- The wording of a fault. -/
def FormatFault.message : FormatFault → String
  | .unterminatedLiteral line =>
      "unterminated literal on line " ++ String.ofList (Text.decimal line)
  | .unterminatedRaw line =>
      "unterminated raw string starting on line " ++ String.ofList (Text.decimal line)
  | .unterminatedComment line =>
      "unterminated comment starting on line " ++ String.ofList (Text.decimal line)
  | .unbalanced bracket line =>
      "unbalanced '" ++ bracket.toString ++ "' on line " ++ String.ofList (Text.decimal line)
  | .unclosed bracket line =>
      "unclosed '" ++ bracket.toString ++ "' opened on line " ++ String.ofList (Text.decimal line)

/-- What the next character belongs to. -/
inductive Region where
  | code
  /-- A slash of which the next character says whether it starts a comment. -/
  | slash
  /-- An interpreted literal between two of the same mark. -/
  | quoted (mark : Char)
  /-- The character after a backslash in an interpreted literal. -/
  | escaped (mark : Char)
  /-- A raw string that starts on a line. -/
  | raw (start : Nat)
  | lineComment
  /-- A block comment that starts on a line; the flag says that its last character is a star. -/
  | blockComment (start : Nat) (star : Bool)
deriving DecidableEq, Repr

/-- Where the reading of a source text stands. -/
structure Scan where
  /-- What the next character belongs to. -/
  region : Region := .code
  /-- The number of the current line. -/
  line : Nat := 1
  /-- The open brackets with their lines, the innermost first. -/
  brackets : List (Char × Nat) := []
  /-- The text read so far with literals and comments blanked, the last character first. -/
  blanked : List Char := []
deriving DecidableEq, Repr

/-- The opening bracket that a closing one belongs to. -/
def openingOf : Char → Char
  | ')' => '('
  | ']' => '['
  | _ => '\x7b'

/-- Whether a character opens a bracket. -/
def isOpening (c : Char) : Bool :=
  c == '(' || c == '[' || c == '\x7b'

/-- Whether a character closes a bracket. -/
def isClosing (c : Char) : Bool :=
  c == ')' || c == ']' || c == '\x7d'

namespace Scan

/-- Writes a character and goes on in a region. -/
def put (s : Scan) (c : Char) (region : Region) : Scan :=
  { s with region, blanked := c :: s.blanked }

/-- Writes a line end and goes on with the next line in a region. -/
def putLineEnd (s : Scan) (region : Region) : Scan :=
  { s with region, line := s.line + 1, blanked := '\n' :: s.blanked }

/-- Reads a character of the code. -/
def codeStep (s : Scan) (c : Char) : Except FormatFault Scan :=
  if c = '"' || c = '\'' then .ok (s.put ' ' (.quoted c))
  else if c = '\x60' then .ok (s.put ' ' (.raw s.line))
  else if c = '/' then .ok { s with region := .slash }
  else if isOpening c then
    .ok { s.put c .code with brackets := (c, s.line) :: s.brackets }
  else if isClosing c then
    match s.brackets with
    | [] => .error (.unbalanced c s.line)
    | (b, _) :: rest =>
        if b = openingOf c then .ok { s.put c .code with brackets := rest }
        else .error (.unbalanced c s.line)
  else if c = '\n' then .ok (s.putLineEnd .code)
  else .ok (s.put c .code)

/-- Reads a character of a region that may run over lines. -/
def spanStep (s : Scan) (c : Char) (region : Region) : Scan :=
  if c = '\n' then s.putLineEnd region else s.put ' ' region

/-- Reads one character. -/
def step (s : Scan) (c : Char) : Except FormatFault Scan :=
  match s.region with
  | .code => s.codeStep c
  | .slash =>
      if c = '/' then .ok ((s.put ' ' .code).put ' ' .lineComment)
      else if c = '*' then .ok ((s.put ' ' .code).put ' ' (.blockComment s.line false))
      else (s.put '/' .code).codeStep c
  | .quoted mark =>
      if c = '\\' then .ok (s.put ' ' (.escaped mark))
      else if c = '\n' then .error (.unterminatedLiteral s.line)
      else .ok (s.put ' ' (if c = mark then .code else .quoted mark))
  | .escaped mark => .ok (s.put ' ' (.quoted mark))
  | .raw start => .ok (if c = '\x60' then s.put ' ' .code else s.spanStep c (.raw start))
  | .lineComment =>
      .ok (if c = '\n' then s.putLineEnd .code else s.put ' ' .lineComment)
  | .blockComment start star =>
      .ok (if star && c = '/' then s.put ' ' .code
        else s.spanStep c (.blockComment start (c = '*')))

/-- Reads a text from left to right. -/
def run (s : Scan) (text : List Char) : Except FormatFault Scan :=
  text.foldlM step s

/-- The blanked text, if nothing is left open. -/
def finish (s : Scan) : Except FormatFault (List Char) :=
  match s.region with
  | .quoted _ | .escaped _ => .error (.unterminatedLiteral s.line)
  | .raw start => .error (.unterminatedRaw start)
  | .blockComment start _ => .error (.unterminatedComment start)
  | region =>
      match s.brackets with
      | (b, line) :: _ => .error (.unclosed b line)
      | [] => .ok (if region = .slash then '/' :: s.blanked else s.blanked).reverse

/-- Reading two texts put together is reading one after the other. -/
theorem run_append (s : Scan) (a b : List Char) : s.run (a ++ b) = s.run a >>= (·.run b) := by
  simp [run, List.foldlM_append]

end Scan

/-- A source text with its strings, runes and comments blanked. -/
def blank (source : List Char) : Except FormatFault (List Char) :=
  Scan.run {} source >>= Scan.finish

end Program
end Stackwright
