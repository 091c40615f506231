import Stackwright.Document.Token.Block
import Stackwright.Document.Token.Directive
import Stackwright.Document.Token.Plain
import Stackwright.Document.Token.Quoted

/-!
# The tokens of a text

A scanner cuts a text into tokens. Indentation opens and closes block collections. A key has no mark in
front of it, so the scanner remembers where a key may have started and puts the key token there once it
meets the colon; such a key stands on one line and takes at most 1024 bytes.
-/

namespace Stackwright
namespace Document

/-- A place where a key may have started. -/
structure Candidate where
  /-- Whether the place can hold nothing but a key. -/
  required : Bool
  /-- How many tokens come before it. -/
  position : Nat
  /-- The place in the text. -/
  cursor : Cursor

/-- The state of cutting a text into tokens. -/
structure Scanner where
  cursor : Cursor
  tokens : Array Token := #[]
  /-- The indentation of the current block collection. -/
  indent : Int := -1
  /-- The indentations of the block collections around it. -/
  outer : List Int := []
  /-- Whether a key may start here. -/
  keyAllowed : Bool := true
  /-- The possible key of the block level. -/
  blockKey : Option Candidate := none
  /-- The possible keys of the flow collections around, innermost first. -/
  flowKeys : List (Option Candidate) := []

namespace Scanner

/-- Whether the place is inside a flow collection. -/
def inFlow (s : Scanner) : Bool :=
  !s.flowKeys.isEmpty

/-- The possible key of the innermost level. -/
def candidate (s : Scanner) : Option Candidate :=
  match s.flowKeys with
  | key :: _ => key
  | [] => s.blockKey

/-- Sets the possible key of the innermost level. -/
def setCandidate (s : Scanner) (key : Option Candidate) : Scanner :=
  match s.flowKeys with
  | _ :: rest => { s with flowKeys := key :: rest }
  | [] => { s with blockKey := key }

/-- Appends a token. -/
def push (s : Scanner) (token : Token) : Scanner :=
  { s with tokens := s.tokens.push token }

/-- Gives up the possible key of the innermost level. -/
def dropCandidate (s : Scanner) : Except Problem Scanner :=
  match s.candidate with
  | some key => if key.required then .error .missingColon else .ok (s.setCandidate none)
  | none => .ok s

/-- Notes that a key may start here. -/
def saveCandidate (s : Scanner) : Except Problem Scanner :=
  if s.keyAllowed then do
    let required := !s.inFlow && s.indent == (s.cursor.column : Int)
    let s ← s.dropCandidate
    return s.setCandidate (some ⟨required, s.tokens.size, s.cursor⟩)
  else .ok s

/-- Whether a possible key is too far back to be one. -/
def isStale (s : Scanner) (key : Candidate) : Bool :=
  key.cursor.line < s.cursor.line || key.cursor.offset + 1024 < s.cursor.offset

/-- Gives up a possible key that is too far back. -/
def refreshKey (s : Scanner) (key : Option Candidate) : Except Problem (Option Candidate) :=
  match key with
  | some k =>
      if s.isStale k then if k.required then .error .missingColon else .ok none else .ok (some k)
  | none => .ok none

/-- Gives up all possible keys that are too far back. -/
def refreshKeys (s : Scanner) : Except Problem Scanner := do
  let blockKey ← s.refreshKey s.blockKey
  let flowKeys ← s.flowKeys.mapM s.refreshKey
  return { s with blockKey, flowKeys }

/-- Opens a block collection at a column to the right of the current one, with its token at the given
position. -/
def openBlock (s : Scanner) (column : Nat) (position : Nat) (token : Token) : Scanner :=
  if !s.inFlow && s.indent < (column : Int) then
    { s with
      outer := s.indent :: s.outer
      indent := column
      tokens := s.tokens.insertIdxIfInBounds position token }
  else s

/-- Closes block collections from `outer` on until none is to the right of the column. -/
def closeBlocksFrom (column : Int) : List Int → Scanner → Scanner
  | [], s => s
  | indent :: outer, s =>
      if column < s.indent then closeBlocksFrom column outer { s.push .blockEnd with indent, outer }
      else s

/-- Closes the block collections to the right of the column. -/
def closeBlocks (s : Scanner) (column : Int) : Scanner :=
  if s.inFlow then s else closeBlocksFrom column s.outer s

/-- A mark that may stand at the start of a line, where it takes a column and means nothing. -/
def byteOrderMark : Char := '\ufeff'

/-- Moves over blanks, comments and line ends to the next token. -/
def skipToToken : Nat → Scanner → Scanner
  | 0, s => s
  | fuel + 1, s =>
      let c := s.cursor
      let c := if c.column = 0 && c.peek == some byteOrderMark then c.skip 1 else c
      let c := c.skipWhile fun ch => ch == ' ' || (ch == '\t' && (s.inFlow || !s.keyAllowed))
      let c := if c.peek == some '#' then c.skipToBreak else c
      if c.peek.any isBreak then
        skipToToken fuel { s with cursor := c.skipBreak, keyAllowed := s.keyAllowed || !s.inFlow }
      else { s with cursor := c }

/-- A document marker or directive: it ends all block collections. -/
def endBlocks (s : Scanner) : Except Problem Scanner := do
  let s ← (s.closeBlocks (-1)).dropCandidate
  return { s with keyAllowed := false }

/-- Reads the start of a flow collection. -/
def openFlow (s : Scanner) (token : Token) : Except Problem Scanner := do
  let s ← s.saveCandidate
  let s := s.push token
  return { s with flowKeys := none :: s.flowKeys, keyAllowed := true, cursor := s.cursor.skip 1 }

/-- Reads the end of a flow collection. -/
def closeFlow (s : Scanner) (token : Token) : Except Problem Scanner := do
  let s ← s.dropCandidate
  let s := s.push token
  return { s with flowKeys := s.flowKeys.drop 1, keyAllowed := false, cursor := s.cursor.skip 1 }

/-- Reads the comma between the entries of a flow collection. -/
def readComma (s : Scanner) : Except Problem Scanner := do
  let s ← s.dropCandidate
  return { s.push .comma with keyAllowed := true, cursor := s.cursor.skip 1 }

/-- Reads the mark of a block sequence entry. -/
def readEntry (s : Scanner) : Except Problem Scanner := do
  if !s.inFlow && !s.keyAllowed then throw .place
  let s ← (s.openBlock s.cursor.column s.tokens.size .blockSequence).dropCandidate
  return { s.push .entry with keyAllowed := true, cursor := s.cursor.skip 1 }

/-- Reads the mark of a key. -/
def readKey (s : Scanner) : Except Problem Scanner := do
  if !s.inFlow && !s.keyAllowed then throw .place
  let s ← (s.openBlock s.cursor.column s.tokens.size .blockMapping).dropCandidate
  return { s.push .key with keyAllowed := !s.inFlow, cursor := s.cursor.skip 1 }

/-- Reads the colon before a value. A possible key becomes one. -/
def readValue (s : Scanner) : Except Problem Scanner :=
  match s.candidate with
  | some key =>
      let s := s.setCandidate none
      let s := { s with tokens := s.tokens.insertIdxIfInBounds key.position .key }
      let s := s.openBlock key.cursor.column key.position .blockMapping
      .ok { s.push .value with keyAllowed := false, cursor := s.cursor.skip 1 }
  | none =>
      if !s.inFlow && !s.keyAllowed then .error .place
      else
        let s := s.openBlock s.cursor.column s.tokens.size .blockMapping
        .ok { s.push .value with keyAllowed := !s.inFlow, cursor := s.cursor.skip 1 }

/-- Reads a block scalar. -/
def readBlockScalar (s : Scanner) (literal : Bool) : Except Problem Scanner := do
  let s ← s.dropCandidate
  let (text, cursor) ← readBlock literal s.indent s.cursor
  return { s.push (.scalar (String.ofList text) false) with keyAllowed := true, cursor }

/-- Reads a quoted scalar. -/
def readQuotedScalar (s : Scanner) (quote : Char) : Except Problem Scanner := do
  let s ← s.saveCandidate
  let (text, cursor) ← readQuoted quote s.cursor
  return { s.push (.scalar (String.ofList text) false) with keyAllowed := false, cursor }

/-- Reads a plain scalar. -/
def readPlainScalar (s : Scanner) : Except Problem Scanner := do
  let s ← s.saveCandidate
  let (text, broken, cursor) ← readPlain s.inFlow s.indent s.cursor
  return { s.push (.scalar (String.ofList text) true) with keyAllowed := broken, cursor }

/-- Reads an anchor or an alias. -/
def readNamed (s : Scanner) (token : String → Token) : Except Problem Scanner := do
  let s ← s.saveCandidate
  let (name, cursor) ← readNodeName s.cursor
  return { s.push (token name) with keyAllowed := false, cursor }

/-- Reads a tag. -/
def readTagged (s : Scanner) : Except Problem Scanner := do
  let s ← s.saveCandidate
  let (handle, suffix, cursor) ← readTag s.inFlow s.cursor
  return { s.push (.tag handle suffix) with keyAllowed := false, cursor }

/-- Whether a plain scalar can start with a character, given the one after it. -/
def startsPlain (inFlow : Bool) (c : Char) (next : Option Char) : Bool :=
  if c == '-' then !next.any isSpaceOrTab
  else if c == '?' || c == ':' then !inFlow && !isGap next
  else !(isGap (some c) || ",[]\x7b\x7d#&*!|>'\"%@\x60".toList.contains c)

/-- Reads the token at the cursor, which stands at the given character. -/
def readToken (s : Scanner) (c : Char) : Except Problem Scanner :=
  let next := s.cursor.peekAt 1
  if c == '%' && s.cursor.column = 0 then do
    let s ← s.endBlocks
    let (token, cursor) ← readDirective s.cursor
    return { s.push token with cursor }
  else if s.cursor.atMarker '-' then do
    let s ← s.endBlocks
    return { s.push .documentStart with cursor := s.cursor.skip 3 }
  else if s.cursor.atMarker '.' then do
    let s ← s.endBlocks
    return { s.push .documentEnd with cursor := s.cursor.skip 3 }
  else if c == '[' then s.openFlow .flowSequence
  else if c == '\x7b' then s.openFlow .flowMapping
  else if c == ']' then s.closeFlow .flowSequenceEnd
  else if c == '\x7d' then s.closeFlow .flowMappingEnd
  else if c == ',' then s.readComma
  else if c == '-' && isGap next then s.readEntry
  else if c == '?' && (s.inFlow || isGap next) then s.readKey
  else if c == ':' && (s.inFlow || isGap next) then s.readValue
  else if c == '*' then s.readNamed .alias
  else if c == '&' then s.readNamed .anchor
  else if c == '!' then s.readTagged
  else if c == '|' && !s.inFlow then s.readBlockScalar true
  else if c == '>' && !s.inFlow then s.readBlockScalar false
  else if c == '\'' || c == '"' then s.readQuotedScalar c
  else if startsPlain s.inFlow c next then s.readPlainScalar
  else .error .start

/-- Reads the rest of the tokens; every token takes at least one character. -/
def run : Nat → Scanner → Except Problem (Array Token)
  | 0, _ => .error .start
  | fuel + 1, s => do
      let s ← (skipToToken s.cursor.fuel s).refreshKeys
      let s := s.closeBlocks s.cursor.column
      match s.cursor.peek with
      | none =>
          let s ← s.endBlocks
          return s.tokens
      | some c => run fuel (← s.readToken c)

end Scanner

/-- Whether a document may hold a character. -/
def isAllowed (c : Char) : Bool :=
  let n := c.toNat
  n == 0x9 || n == 0xA || n == 0xD || (0x20 ≤ n && n ≤ 0x7E) || n == 0x85
    || (0xA0 ≤ n && n ≤ 0xD7FF) || (0xE000 ≤ n && n ≤ 0xFFFD) || 0x10000 ≤ n

/-- The tokens of a text. -/
def tokens (text : List Char) : Except Problem (List Token) :=
  if text.all isAllowed then
    (Scanner.run (text.length + 2) { cursor := .ofText text }).map Array.toList
  else .error .character

end Document
end Stackwright
