import Stackwright.Text.Digits

/-!
# String literals

A string literal stands in double quotes. Quotes, backslashes and the usual line characters have short
escapes, and other control characters are written by their number.
-/

namespace Stackwright
namespace Program

/-- Whether a character is a control character. -/
def isControl (c : Char) : Bool :=
  c.toNat < 0x20 || (0x7F ≤ c.toNat && c.toNat < 0xA0)

/-- A digit in base sixteen. -/
def hexDigit (n : Nat) : Char :=
  Nat.digitChar n

/-- One character of a string literal. -/
def quoteChar (c : Char) : List Char :=
  if c = '"' then ['\\', '"']
  else if c = '\\' then ['\\', '\\']
  else if c = '\n' then ['\\', 'n']
  else if c = '\r' then ['\\', 'r']
  else if c = '\t' then ['\\', 't']
  else if isControl c then ['\\', 'x', hexDigit (c.toNat / 16), hexDigit (c.toNat % 16)]
  else [c]

/-- The string literal of a text. -/
def quote (s : List Char) : List Char :=
  '"' :: s.flatMap quoteChar ++ ['"']

end Program
end Stackwright
