import Stackwright.Text.Blank

/-!
# Shell words

A command line is cut into words at blanks. Single quotes keep every character, double quotes keep all but
backslash escapes, and a backslash outside quotes keeps the next character.
-/

namespace Stackwright
namespace ShellWords

/-- The state of cutting a line: finished words, last first, and the characters of the word under way. -/
structure State where
  words : List (List Char) := []
  current : List Char := []
  inWord : Bool := false
  quote : Option Char := none
  escaped : Bool := false
deriving DecidableEq, Repr

/-- Keeps a character as part of the current word. -/
def State.keep (s : State) (c : Char) : State :=
  { s with current := c :: s.current, inWord := true, escaped := false }

/-- Ends the current word, if there is one. -/
def State.finish (s : State) : State :=
  if s.inWord then
    { s with words := s.current.reverse :: s.words, current := [], inWord := false }
  else s

/-- Reads one character. -/
def State.step (s : State) (c : Char) : State :=
  if s.escaped then s.keep c
  else if s.quote = some c then { s with quote := none }
  else if c = '\\' && s.quote != some '\'' then { s with escaped := true }
  else if s.quote.isSome then { s with current := c :: s.current }
  else if c = '\'' || c = '"' then { s with quote := some c, inWord := true }
  else if Text.isBlank c then s.finish
  else s.keep c

/-- The words of a line. -/
def split (line : List Char) : List (List Char) :=
  (line.foldl State.step {}).finish.words.reverse

/-- The words of a line, as strings. -/
def splitString (line : String) : List String :=
  (split line.toList).map String.ofList

end ShellWords
end Stackwright
