import Stackwright.Text.Combining
import Stackwright.Text.Unprintable

/-!
# Text shown to a reader

Names and values that appear in messages and comments are put in double quotes, with escapes for quotes,
backslashes, line ends and everything that would not be seen.
-/

namespace Stackwright
namespace Text

/-- The digits of a code point in base sixteen, in braces. -/
def codePoint (c : Char) : List Char :=
  '\\' :: 'u' :: '\x7b' :: Nat.toDigits 16 c.toNat ++ ['\x7d']

/-- One character of a shown text. -/
def inspectChar (c : Char) : List Char :=
  if c = '"' then ['\\', '"']
  else if c = '\\' then ['\\', '\\']
  else if c = '\n' then ['\\', 'n']
  else if c = '\r' then ['\\', 'r']
  else if c = '\t' then ['\\', 't']
  else if c = '\x00' then ['\\', '0']
  else if ' ' ≤ c && c ≤ '~' then [c]
  else if isUnprintable c || isCombining c then codePoint c
  else [c]

/-- The text in double quotes, with escapes for what a reader would not see. -/
def inspect (s : List Char) : List Char :=
  '"' :: s.flatMap inspectChar ++ ['"']

/-- The string in double quotes, with escapes for what a reader would not see. -/
def inspectString (s : String) : String :=
  String.ofList (inspect s.toList)

end Text
end Stackwright
