import Stackwright.Document.Problem
import Stackwright.Document.Token.Gap

/-!
# Plain scalars

A plain scalar ends before a colon with a blank after it, before a hash with a blank in front of it, and,
inside flow collections, before the characters that structure them. In block collections it goes on over
lines that are indented further than the collection around it.
-/

namespace Stackwright
namespace Document

/-- Whether a character structures flow collections. -/
def isFlowMark (c : Char) : Bool :=
  c == ',' || c == '[' || c == ']' || c == '\x7b' || c == '\x7d'

/-- The word at the front of a text, last character first, and its length; a colon in front of a
structuring character is refused. -/
def readPlainWord (flow : Bool) (word : List Char) : List Char → Option (List Char)
  | [] => some word
  | c :: rest =>
      if isGap (some c) then some word
      else if flow && c == ':' && rest.head?.any (fun n => isFlowMark n || n == '?') then none
      else if c == ':' && isGap rest.head? then some word
      else if flow && isFlowMark c then some word
      else readPlainWord flow (c :: word) rest

/-- Reads a plain scalar word by word; `text` is what was read so far, last character first. The result
holds the scalar, and says whether a new line was started after its last word. -/
def readPlainFrom (flow : Bool) (indent : Int) :
    Nat → List Char → Gap → Cursor → Except Problem (List Char × Bool × Cursor)
  | 0, text, gap, c => .ok (text.reverse, gap.broken, c)
  | fuel + 1, text, gap, c =>
      if c.atDocumentMarker || c.peek == some '#' then
        .ok (text.reverse, gap.broken, c)
      else
        match readPlainWord flow [] c.rest with
        | none => .error .colon
        | some [] => .ok (text.reverse, gap.broken, c)
        | some word =>
            let text := word ++ gap.fold.reverse ++ text
            let c := c.skip word.length
            match c.peek with
            | none => .ok (text.reverse, false, c)
            | some next =>
                if !isGap (some next) then
                  .ok (text.reverse, false, c)
                else
                  match readGap indent c.fuel {} c with
                  | none => .error .tab
                  | some (gap, c) =>
                      if !flow && (c.column : Int) < indent then
                        .ok (text.reverse, gap.broken, c)
                      else readPlainFrom flow indent fuel text gap c

/-- Reads a plain scalar inside a collection with the given indentation. -/
def readPlain (flow : Bool) (indent : Int) (c : Cursor) : Except Problem (List Char × Bool × Cursor) :=
  readPlainFrom flow (indent + 1) c.fuel [] {} c

end Document
end Stackwright
