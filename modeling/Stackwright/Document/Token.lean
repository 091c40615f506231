/-!
# Tokens of a document text

The units that the text of a document is cut into. Tokens for the start and the end of block collections
come from indentation and have no characters of their own.
-/

namespace Stackwright
namespace Document

/-- A unit of a document text. -/
inductive Token where
  | version (major minor : Nat)
  | handle (name : String) (uri : List UInt8)
  | documentStart
  | documentEnd
  | blockSequence
  | blockMapping
  | blockEnd
  | flowSequence
  | flowSequenceEnd
  | flowMapping
  | flowMappingEnd
  | entry
  | comma
  | key
  | value
  | alias (name : String)
  | anchor (name : String)
  | tag (handle : String) (suffix : List UInt8)
  /-- A scalar; only a plain one can be anything but a string. -/
  | scalar (text : String) (plain : Bool)
deriving DecidableEq, Repr

end Document
end Stackwright
