import Stackwright.Document.Problem
import Stackwright.Document.Token
import Stackwright.Text.Utf8

/-!
# The events of a document

The grammar turns the tokens of a text into events: scalars, aliases, and the starts and ends of
collections. A text holds at most one document.
-/

namespace Stackwright
namespace Document

/-- The anchor and the resolved tag of a node. -/
structure Properties where
  anchor : Option String := none
  /-- The octets of the tag. -/
  tag : Option (List UInt8) := none
deriving DecidableEq, Repr

/-- A part of a document. -/
inductive Event where
  | alias (name : String)
  | scalar (properties : Properties) (text : String) (plain : Bool)
  | sequenceStart (properties : Properties)
  | sequenceEnd
  | mappingStart (properties : Properties)
  | mappingEnd
deriving DecidableEq, Repr

namespace Event

/-- The scalar that stands where nothing is written. -/
def empty : Event :=
  .scalar {} "" true

/-- The handles that tags may use, with what they stand for. -/
abbrev Handles := List (String × List UInt8)

/-- The handles that need no declaration. -/
def defaultHandles : Handles :=
  [("!", "!"), ("!!", "tag:yaml.org,2002:")].map fun (name, lead) => (name, Text.encodeUtf8 lead.toList)

/-- The tag that a handle and a suffix stand for; without a handle the suffix is the whole tag. -/
def resolveTag (handles : Handles) (handle : String) (suffix : List UInt8) :
    Except Problem (List UInt8) :=
  if handle.isEmpty then .ok suffix
  else
    match (handles ++ defaultHandles).lookup handle with
    | some lead => .ok (lead ++ suffix)
    | none => .error .handle

/-- Reads the anchor and the tag in front of a node, in either order. -/
def readProperties (handles : Handles) (ts : List Token) : Except Problem (Properties × List Token) :=
  match ts with
  | .anchor name :: .tag handle suffix :: rest => do
      let tag ← resolveTag handles handle suffix
      return ({ anchor := some name, tag := some tag }, rest)
  | .anchor name :: rest => .ok ({ anchor := some name }, rest)
  | .tag handle suffix :: .anchor name :: rest => do
      let tag ← resolveTag handles handle suffix
      return ({ anchor := some name, tag := some tag }, rest)
  | .tag handle suffix :: rest => do
      let tag ← resolveTag handles handle suffix
      return ({ tag := some tag }, rest)
  | _ => .ok ({}, ts)

/-- Whether the next token is one of those given. -/
def nextIn (ts : List Token) (stops : List Token) : Bool :=
  ts.head?.any stops.contains

/-- The tokens that end a key or a value of a block mapping. -/
def pairStops : List Token :=
  [.key, .value, .blockEnd]

/-- The events read so far, and the tokens still to be read. -/
abbrev Progress := Array Event × List Token

mutual
/-- Reads a node. Block collections are read where `block` holds, and a sequence at the indentation of its
key where `atKey` holds. -/
def readNode (handles : Handles) : Nat → (block atKey : Bool) → Progress → Except Problem Progress
  | 0, _, _, _ => .error .grammar
  | fuel + 1, block, atKey, (events, ts) =>
      match ts with
      | .alias name :: rest => .ok (events.push (.alias name), rest)
      | _ => do
          let (properties, ts) ← readProperties handles ts
          match ts with
          | .scalar text plain :: rest =>
              return (events.push (.scalar properties text plain), rest)
          | .flowSequence :: rest =>
              readFlowItems handles fuel true (events.push (.sequenceStart properties), rest)
          | .flowMapping :: rest =>
              readFlowPairs handles fuel true (events.push (.mappingStart properties), rest)
          | next =>
              if atKey && nextIn next [.entry] then
                readKeyItems handles fuel (events.push (.sequenceStart properties), next)
              else if block && nextIn next [.blockSequence] then
                readBlockItems handles fuel (events.push (.sequenceStart properties), next.drop 1)
              else if block && nextIn next [.blockMapping] then
                readBlockPairs handles fuel (events.push (.mappingStart properties), next.drop 1)
              else if properties.anchor.isSome || properties.tag.isSome then
                return (events.push (.scalar properties "" true), next)
              else throw .grammar

/-- Reads a node unless one of the given tokens stands in its place. -/
def readOptional (handles : Handles) :
    Nat → (block atKey : Bool) → List Token → Progress → Except Problem Progress
  | 0, _, _, _, _ => .error .grammar
  | fuel + 1, block, atKey, stops, (events, ts) =>
      if nextIn ts stops then .ok (events.push .empty, ts)
      else readNode handles fuel block atKey (events, ts)

/-- Reads the entries of a block sequence. -/
def readBlockItems (handles : Handles) : Nat → Progress → Except Problem Progress
  | 0, _ => .error .grammar
  | fuel + 1, (events, ts) =>
      match ts with
      | .entry :: rest => do
          let progress ← readOptional handles fuel true false [.entry, .blockEnd] (events, rest)
          readBlockItems handles fuel progress
      | .blockEnd :: rest => .ok (events.push .sequenceEnd, rest)
      | _ => .error .grammar

/-- Reads the entries of a sequence at the indentation of its key. -/
def readKeyItems (handles : Handles) : Nat → Progress → Except Problem Progress
  | 0, _ => .error .grammar
  | fuel + 1, (events, ts) =>
      match ts with
      | .entry :: rest => do
          let progress ← readOptional handles fuel true false (.entry :: pairStops) (events, rest)
          readKeyItems handles fuel progress
      | _ => .ok (events.push .sequenceEnd, ts)

/-- Reads the pairs of a block mapping. -/
def readBlockPairs (handles : Handles) : Nat → Progress → Except Problem Progress
  | 0, _ => .error .grammar
  | fuel + 1, (events, ts) =>
      match ts with
      | .key :: rest => do
          let (events, ts) ← readOptional handles fuel true true pairStops (events, rest)
          match ts with
          | .value :: rest =>
              let progress ← readOptional handles fuel true true pairStops (events, rest)
              readBlockPairs handles fuel progress
          | _ => readBlockPairs handles fuel (events.push .empty, ts)
      | .blockEnd :: rest => .ok (events.push .mappingEnd, rest)
      | _ => .error .grammar

/-- Reads the entries of a flow sequence; all but the first follow a comma. -/
def readFlowItems (handles : Handles) : Nat → Bool → Progress → Except Problem Progress
  | 0, _, _ => .error .grammar
  | fuel + 1, first, (events, ts) =>
      if nextIn ts [.flowSequenceEnd] then .ok (events.push .sequenceEnd, ts.drop 1)
      else if !first && !nextIn ts [.comma] then .error .grammar
      else
        let ts := if first then ts else ts.drop 1
        match ts with
        | .flowSequenceEnd :: rest => .ok (events.push .sequenceEnd, rest)
        | .key :: rest => do
            let (events, ts) ← readPairKey handles fuel (events.push (.mappingStart {}), rest)
            let (events, ts) ← readFlowValue handles fuel [.comma, .flowSequenceEnd] (events, ts)
            readFlowItems handles fuel false (events.push .mappingEnd, ts)
        | _ => do
            let progress ← readNode handles fuel false false (events, ts)
            readFlowItems handles fuel false progress

/-- Reads the key of a single pair inside a flow sequence; the token in the place of a missing key is
dropped. -/
def readPairKey (handles : Handles) : Nat → Progress → Except Problem Progress
  | 0, _ => .error .grammar
  | fuel + 1, (events, ts) =>
      if nextIn ts [.value, .comma, .flowSequenceEnd] then .ok (events.push .empty, ts.drop 1)
      else readNode handles fuel false false (events, ts)

/-- Reads the value of a pair of a flow collection, which ends at the given tokens. -/
def readFlowValue (handles : Handles) : Nat → List Token → Progress → Except Problem Progress
  | 0, _, _ => .error .grammar
  | fuel + 1, stops, (events, ts) =>
      match ts with
      | .value :: rest => readOptional handles fuel false false stops (events, rest)
      | _ => .ok (events.push .empty, ts)

/-- Reads the pairs of a flow mapping; all but the first follow a comma. -/
def readFlowPairs (handles : Handles) : Nat → Bool → Progress → Except Problem Progress
  | 0, _, _ => .error .grammar
  | fuel + 1, first, (events, ts) =>
      if nextIn ts [.flowMappingEnd] then .ok (events.push .mappingEnd, ts.drop 1)
      else if !first && !nextIn ts [.comma] then .error .grammar
      else
        let ts := if first then ts else ts.drop 1
        match ts with
        | .flowMappingEnd :: rest => .ok (events.push .mappingEnd, rest)
        | .key :: rest => do
            let stops := [.value, .comma, .flowMappingEnd]
            let progress ← readOptional handles fuel false false stops (events, rest)
            let progress ← readFlowValue handles fuel [.comma, .flowMappingEnd] progress
            readFlowPairs handles fuel false progress
        | _ => do
            let (events, ts) ← readNode handles fuel false false (events, ts)
            readFlowPairs handles fuel false (events.push .empty, ts)
end

/-- Reads the directives in front of a document; each may be given once. -/
def readDirectives (versioned : Bool) (handles : Handles) :
    List Token → Except Problem (Handles × List Token)
  | .version major minor :: rest =>
      if versioned || major != 1 || (minor != 1 && minor != 2) then .error .directive
      else readDirectives true handles rest
  | .handle name uri :: rest =>
      if (handles.lookup name).isSome then .error .directive
      else readDirectives versioned (handles ++ [(name, uri)]) rest
  | ts => .ok (handles, ts)

/-- Whether a token can only stand in front of a document or end one. -/
def isDocumentToken : Token → Bool
  | .version _ _ => true
  | .handle _ _ => true
  | .documentStart => true
  | .documentEnd => true
  | _ => false

/-- Reads the node of a document, with its directives and its start. -/
def readDocument (ts : List Token) : Except Problem Progress :=
  let fuel := 4 * ts.length + 16
  match ts with
  | [] => .ok (#[.empty], [])
  | .documentEnd :: _ => .error .grammar
  | first :: _ =>
      if isDocumentToken first then do
        let (handles, ts) ← readDirectives false [] ts
        match ts with
        | .documentStart :: rest =>
            if rest.head?.all isDocumentToken then return (#[.empty], rest)
            else readNode handles fuel true false (#[], rest)
        | _ => throw .grammar
      else readNode [] fuel true false (#[], ts)

/-- The events of the only document of a text. -/
def ofTokens (ts : List Token) : Except Problem (List Event) := do
  let (events, rest) ← readDocument ts
  if (rest.dropWhile (· == .documentEnd)).isEmpty then return events.toList else throw .documents

end Event
end Document
end Stackwright
