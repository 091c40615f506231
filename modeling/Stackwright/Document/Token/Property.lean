import Stackwright.Document.Cursor
import Stackwright.Document.Problem
import Stackwright.Text.Digits
import Stackwright.Text.Utf8

/-!
# Anchors, aliases and tags

The properties of a node: a name to refer to it by, and a tag that is written in full between angle
brackets or as a suffix behind a handle. A tag is a sequence of octets: the escapes in it write single
octets, which need not make up characters, and a zero octet ends it.
-/

namespace Stackwright
namespace Document

/-- Whether a place may follow the name of an anchor. -/
def endsName (next : Option Char) : Bool :=
  isGap next || next.any fun c =>
    c == '?' || c == ':' || c == ',' || c == ']' || c == '\x7d' || c == '%' || c == '@' || c == '\x60'

/-- Reads the name of an anchor or alias behind its mark. -/
def readNodeName (c : Cursor) : Except Problem (String × Cursor) :=
  let c := c.skip 1
  let name := c.rest.takeWhile isWordChar
  let c := c.skipWhile isWordChar
  if name.isEmpty || !endsName c.peek then .error .property else .ok (String.ofList name, c)

/-- Whether a character can stand in the suffix of a tag; `full` admits the marks of flow collections. -/
def isTagChar (full : Bool) (c : Char) : Bool :=
  isWordChar c || ";/?:@&=+$.!~*'()".toList.contains c || (full && ",[]".toList.contains c)

/-- The value of an escaped octet at the front of a text. -/
def readOctet (s : List Char) : Option Nat :=
  match s with
  | '%' :: a :: b :: _ => Text.readDigits 16 [a, b]
  | _ => none

/-- How many octets a character has, by the first of them. -/
def octetCount (first : Nat) : Option Nat :=
  if first < 0x80 then some 1
  else if 0xC0 ≤ first && first < 0xE0 then some 2
  else if 0xE0 ≤ first && first < 0xF0 then some 3
  else if 0xF0 ≤ first && first < 0xF8 then some 4
  else none

/-- The value of the escaped octet at the front of a text, if it can follow another one. -/
def readFollower (s : List Char) : Option Nat :=
  (readOctet s).filter fun octet => 0x80 ≤ octet && octet < 0xC0

/-- The escaped octets at the front of a text: as many as the first of them asks for. -/
def readOctets (s : List Char) : Option (List Nat) := do
  let first ← readOctet s
  let count ← octetCount first
  let followers ← (List.range (count - 1)).mapM fun i => readFollower (s.drop (3 * (i + 1)))
  return first :: followers

/-- The octets of a tag. -/
abbrev TagOctets := List UInt8

/-- The octets of a text. -/
def octetsOf (text : List Char) : TagOctets :=
  Text.encodeUtf8 text

/-- The octets in front of the first zero. -/
def untilZero (octets : TagOctets) : TagOctets :=
  octets.takeWhile (· != 0)

/-- Reads the octets of a tag; `octets` are those read so far, last one first. -/
def readTagOctets (full : Bool) : Nat → TagOctets → Cursor → Except Problem (TagOctets × Cursor)
  | 0, octets, c => .ok (octets.reverse, c)
  | fuel + 1, octets, c =>
      match c.peek with
      | some '%' =>
          match readOctets c.rest with
          | some more =>
              readTagOctets full fuel ((more.map Nat.toUInt8).reverse ++ octets) (c.skip (3 * more.length))
          | none => .error .property
      | some ch =>
          if isTagChar full ch then
            readTagOctets full fuel ((octetsOf [ch]).reverse ++ octets) (c.skip 1)
          else .ok (octets.reverse, c)
      | none => .ok (octets.reverse, c)

/-- Reads a tag handle: an exclamation mark, or a word between two. -/
def readHandle (c : Cursor) : List Char × Cursor :=
  let word := (c.rest.drop 1).takeWhile isWordChar
  let c := (c.skip 1).skipWhile isWordChar
  if c.peek == some '!' then ('!' :: word ++ ['!'], c.skip 1) else ('!' :: word, c)

/-- Reads a tag as its handle and suffix. A tag written in full has no handle, and neither has the lone
exclamation mark. -/
def readTag (flow : Bool) (c : Cursor) : Except Problem (String × TagOctets × Cursor) := do
  let (handle, suffix, c) ←
    if c.peekAt 1 == some '<' then do
      let (uri, c) ← readTagOctets true c.fuel [] (c.skip 2)
      if uri.isEmpty || c.peek != some '>' then throw .property
      pure ([], untilZero uri, c.skip 1)
    else do
      let (handle, c) := readHandle c
      if 1 < handle.length && handle.getLast? == some '!' then
        let (suffix, c) ← readTagOctets false c.fuel [] c
        if suffix.isEmpty then throw .property
        pure (handle, untilZero suffix, c)
      else
        let (more, c) ← readTagOctets false c.fuel [] c
        let suffix := untilZero (octetsOf (handle.drop 1) ++ more)
        if suffix.isEmpty then pure ([], octetsOf ['!'], c) else pure (['!'], suffix, c)
  if isGap c.peek || (flow && c.peek == some ',') then
    return (String.ofList handle, suffix, c)
  else throw .property

end Document
end Stackwright
