import Stackwright.Document.Event
import Stackwright.Document.Scalar
import Stackwright.Document.Token.Stream

/-!
# Reading a document

Events become a tree. An alias stands for the node with its anchor. Keys of a mapping are different, and
collections are nested at most 128 deep.
-/

namespace Stackwright
namespace Document

/-- How deep collections may be nested. -/
def depthLimit : Nat := 128

/-- How often aliases may be followed, for each event of a document. -/
def jumpLimit : Nat := 100

/-- What the name of an anchor stands for: a number for each name, and a place for each number. A name
that is used again gets the number that the next new name will get too. -/
structure Anchors where
  numbers : List (String × Nat) := []
  places : List (Nat × Nat) := []

/-- Gives an anchor to the event at a place. -/
def Anchors.add (a : Anchors) (name : String) (place : Nat) : Anchors :=
  let number := a.numbers.length
  { numbers := (name, number) :: a.numbers.filter (·.1 != name)
    places := (number, place) :: a.places }

/-- The anchor of an event. -/
def Event.anchor? : Event → Option String
  | .scalar properties _ _ => properties.anchor
  | .sequenceStart properties => properties.anchor
  | .mappingStart properties => properties.anchor
  | _ => none

/-- Finds the number of every alias, in the order of the events, and the places of all anchors. -/
def resolveAliases (place : Nat) (anchors : Anchors) (numbers : List Nat) :
    List Event → Except Problem (List Nat × Anchors)
  | [] => .ok (numbers.reverse, anchors)
  | .alias name :: rest =>
      match anchors.numbers.lookup name with
      | some number => resolveAliases (place + 1) anchors (number :: numbers) rest
      | none => .error .alias
  | event :: rest =>
      let anchors := match event.anchor? with
        | some name => anchors.add name place
        | none => anchors
      resolveAliases (place + 1) anchors numbers rest

/-- A part of a document whose aliases are places. -/
inductive Part where
  | jump (place : Nat)
  | scalar (tag : Option (List UInt8)) (text : String) (plain : Bool)
  | sequenceStart (tag : Option (List UInt8))
  | sequenceEnd
  | mappingStart (tag : Option (List UInt8))
  | mappingEnd

/-- Replaces the aliases by the places of their anchors. -/
def partsOf (places : List (Nat × Nat)) : List Nat → List Event → List Part → List Part
  | _, [], parts => parts.reverse
  | numbers, event :: rest, parts =>
      match event with
      | .alias _ =>
          let place := (numbers.head?.bind fun number => places.lookup number).getD 0
          partsOf places numbers.tail rest (.jump place :: parts)
      | .scalar p text plain => partsOf places numbers rest (.scalar p.tag text plain :: parts)
      | .sequenceStart p => partsOf places numbers rest (.sequenceStart p.tag :: parts)
      | .sequenceEnd => partsOf places numbers rest (.sequenceEnd :: parts)
      | .mappingStart p => partsOf places numbers rest (.mappingStart p.tag :: parts)
      | .mappingEnd => partsOf places numbers rest (.mappingEnd :: parts)

/-- The octet of the exclamation mark that starts a tag of the document's own. -/
def tagMark : UInt8 := 0x21

/-- Drops an exclamation mark in front of other octets. -/
def dropMark : List UInt8 → List UInt8
  | first :: second :: rest => if first = tagMark then second :: rest else first :: second :: rest
  | octets => octets

/-- Whether a tag is one of the document's own. -/
def isLocalTag (tag : List UInt8) : Bool :=
  tag.head? == some tagMark

/-- The name of a tag of the document's own, which has to be text. A second exclamation mark does not
count. -/
def localTag? (tag : List UInt8) : Option String :=
  if isLocalTag tag then
    match Text.decodeUtf8 (dropMark (dropMark tag)) with
    | .ok name => some (String.ofList name)
    | .error _ => none
  else none

/-- Puts a tag of the document's own around a value; other tags are dropped. -/
def withTag (tag : Option (List UInt8)) (value : Tree) : Tree :=
  match tag.bind localTag? with
  | some name => .tagged name value
  | none => value

/-- What the tags of the core schema start with. -/
def coreTagLead : List UInt8 := Text.encodeUtf8 "tag:yaml.org,2002:".toList

/-- The kind of value that a tag of the core schema asks for. -/
def coreKind? (tag : List UInt8) : Option String :=
  if coreTagLead.isPrefixOf tag then
    match Text.decodeUtf8 (tag.drop coreTagLead.length) with
    | .ok kind => some (String.ofList kind)
    | .error _ => none
  else none

/-- The value of a scalar without regard to its tag. -/
def untaggedScalar (text : String) (plain : Bool) : Except Problem Tree :=
  if plain then Scalar.resolve text else .ok (.text text)

/-- The value of a scalar with its tag. -/
def scalarValue (tag : Option (List UInt8)) (text : String) (plain : Bool) : Except Problem Tree :=
  match tag with
  | none => untaggedScalar text plain
  | some octets =>
      if isLocalTag octets then (untaggedScalar text plain).map (withTag tag)
      else
        match coreKind? octets with
        | some kind => Scalar.resolveAs kind text
        | none => .ok (.text text)

/-- The state of building a tree: the parts still to be read, and how many aliases were followed. -/
structure Builder where
  rest : List Part
  jumps : Nat := 0

mutual
/-- Builds the value at the front of the parts, where `depth` collections may still be nested. -/
def build (all : List Part) : Nat → (depth : Nat) → Builder → Except Problem (Tree × Builder)
  | 0, _, _ => .error .repetition
  | fuel + 1, depth, b =>
      match b.rest with
      | [] => .error .grammar
      | .jump place :: rest =>
          if jumpLimit * all.length < b.jumps + 1 then .error .repetition
          else do
            let (value, after) ← build all fuel depth ⟨all.drop place, b.jumps + 1⟩
            return (value, ⟨rest, after.jumps⟩)
      | .scalar tag text plain :: rest => do
          let value ← scalarValue tag text plain
          return (value, { b with rest })
      | .sequenceStart tag :: rest =>
          match depth with
          | 0 => .error .depth
          | d + 1 => do
              let (items, b) ← buildItems all fuel d [] { b with rest }
              return (withTag tag (.sequence items), b)
      | .mappingStart tag :: rest =>
          match depth with
          | 0 => .error .depth
          | d + 1 => do
              let (entries, b) ← buildEntries all fuel d [] { b with rest }
              return (withTag tag (.mapping entries), b)
      | _ => .error .grammar

/-- Builds the items of a sequence; `items` are those built so far, last one first. -/
def buildItems (all : List Part) :
    Nat → (depth : Nat) → List Tree → Builder → Except Problem (List Tree × Builder)
  | 0, _, _, _ => .error .repetition
  | fuel + 1, depth, items, b =>
      match b.rest with
      | .sequenceEnd :: rest => .ok (items.reverse, { b with rest })
      | _ => do
          let (item, b) ← build all fuel depth b
          buildItems all fuel depth (item :: items) b

/-- Builds the entries of a mapping; `entries` are those built so far, last one first. -/
def buildEntries (all : List Part) :
    Nat → (depth : Nat) → List (Tree × Tree) → Builder → Except Problem (List (Tree × Tree) × Builder)
  | 0, _, _, _ => .error .repetition
  | fuel + 1, depth, entries, b =>
      match b.rest with
      | .mappingEnd :: rest => .ok (entries.reverse, { b with rest })
      | _ => do
          let (key, b) ← build all fuel depth b
          if entries.any fun e => e.1.same key then throw .duplicateKey
          let (value, b) ← build all fuel depth b
          buildEntries all fuel depth ((key, value) :: entries) b
end

/-- The tree of the events of a document. -/
def Tree.ofEvents (events : List Event) : Except Problem Tree := do
  let (numbers, anchors) ← resolveAliases 0 {} [] events
  let parts := partsOf anchors.places numbers events []
  let fuel := (depthLimit + 2) * (parts.length + 2)
  let (value, _) ← build parts fuel depthLimit ⟨parts, 0⟩
  return value

/-- The tree that a text stands for. -/
def Tree.read (text : String) : Except Problem Tree := do
  let tokens ← tokens text.toList
  let events ← Event.ofTokens tokens
  Tree.ofEvents events

end Document
end Stackwright
