import Stackwright.Document.Problem
import Stackwright.Document.Token.Gap
import Stackwright.Text.Digits

/-!
# Quoted scalars

A single-quoted scalar writes a quote twice. A double-quoted scalar has escapes for characters, and an
escaped line end joins two lines without a space.
-/

namespace Stackwright
namespace Document

/-- The character that a one-letter escape stands for. -/
def escapeChar (c : Char) : Option Char :=
  match c with
  | '0' => some '\x00'
  | 'a' => some '\x07'
  | 'b' => some '\x08'
  | 't' => some '\t'
  | '\t' => some '\t'
  | 'n' => some '\n'
  | 'v' => some '\x0b'
  | 'f' => some '\x0c'
  | 'r' => some '\r'
  | 'e' => some '\x1b'
  | ' ' => some ' '
  | '"' => some '"'
  | '/' => some '/'
  | '\\' => some '\\'
  | 'N' => some '\u0085'
  | '_' => some '\u00a0'
  | 'L' => some '\u2028'
  | 'P' => some '\u2029'
  | _ => none

/-- How many digits follow the letter of a numeric escape. -/
def escapeLength (c : Char) : Option Nat :=
  match c with
  | 'x' => some 2
  | 'u' => some 4
  | 'U' => some 8
  | _ => none

/-- The character with a code point, if there is one. -/
def charOfCode (n : Nat) : Option Char :=
  if n.isValidChar then some (Char.ofNat n) else none

/-- The character of an escape, given the text after the backslash, and how many characters it takes. -/
def readEscape (s : List Char) : Option (Char × Nat) :=
  match s with
  | [] => none
  | c :: rest =>
      match escapeChar c with
      | some e => some (e, 1)
      | none => do
          let length ← escapeLength c
          let digits := rest.take length
          if digits.length < length then none
          else
            let code ← Text.readDigits 16 digits
            let e ← charOfCode code
            return (e, length + 1)

/-- Reads the characters up to a blank, the closing quote or an escaped line end. `text` is what was read
so far, last character first; the flag of the result says that an escaped line end was read. -/
def readQuotedWord (quote : Char) : Nat → List Char → Cursor → Except Problem (List Char × Bool × Cursor)
  | 0, text, c => .ok (text, false, c)
  | fuel + 1, text, c =>
      match c.rest with
      | [] => .ok (text, false, c)
      | ch :: rest =>
          if isGap (some ch) then .ok (text, false, c)
          else if ch == quote then
            if quote == '\'' && rest.head? == some '\'' then
              readQuotedWord quote fuel ('\'' :: text) (c.skip 2)
            else .ok (text, false, c)
          else if quote == '"' && ch == '\\' then
            if rest.head?.any isBreak then
              .ok (text, true, (c.skip 1).skipBreak)
            else
              match readEscape rest with
              | some (e, length) => readQuotedWord quote fuel (e :: text) (c.skip (length + 1))
              | none => .error .escape
          else readQuotedWord quote fuel (ch :: text) (c.skip 1)

/-- Reads a quoted scalar after its opening quote; `text` is what was read so far, last character first. -/
def readQuotedFrom (quote : Char) : Nat → List Char → Cursor → Except Problem (List Char × Cursor)
  | 0, _, _ => .error .openQuote
  | fuel + 1, text, c =>
      if c.atDocumentMarker || c.rest.isEmpty then .error .openQuote
      else do
        let (text, joined, c) ← readQuotedWord quote c.fuel text c
        if !joined && c.peek == some quote then
          return (text.reverse, c.skip 1)
        else
          let start : Gap := if joined then { broken := true } else {}
          match readGap 0 c.fuel start c with
          | none => .error .tab
          | some (gap, c) => readQuotedFrom quote fuel (gap.fold.reverse ++ text) c

/-- Reads a quoted scalar that starts at the cursor. -/
def readQuoted (quote : Char) (c : Cursor) : Except Problem (List Char × Cursor) :=
  readQuotedFrom quote c.fuel [] (c.skip 1)

end Document
end Stackwright
