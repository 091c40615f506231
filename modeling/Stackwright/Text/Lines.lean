/-!
# Lines

A line feed ends a line, and one carriage return in front of it belongs to the line end. A text that ends
with a line feed has no further, empty line.
-/

namespace Stackwright
namespace Text

/-- Puts a character at the front of the first line. -/
def consLine (c : Char) : List (List Char) → List (List Char)
  | [] => [[c]]
  | line :: rest => (c :: line) :: rest

/-- The lines of a text, read from its end; the flag says that a line feed comes next. -/
def lineStep (c : Char) (state : Bool × List (List Char)) : Bool × List (List Char) :=
  if c = '\n' then
    (true, [] :: state.2)
  else if c = '\r' && state.1 then
    (false, state.2)
  else
    (false, consLine c state.2)

/-- The lines of a text, without their ends. -/
def lines (s : List Char) : List (List Char) :=
  (s.foldr lineStep (false, [])).2

@[simp]
theorem lines_nil : lines [] = [] :=
  rfl

/-- Line ends of both kinds, and an empty line between two of them. -/
example : lines "a\r\nb\n\nc".toList = [['a'], ['b'], [], ['c']] := by decide

/-- A carriage return at the end of the text belongs to its last line. -/
example : lines "a\r".toList = [['a', '\r']] := by decide

end Text
end Stackwright
