/-!
# Problems of a document text

What can be wrong with the text of a document, from its characters up to its aliases.
-/

namespace Stackwright
namespace Document

/-- Why a text is no document. -/
inductive Problem where
  /-- A character that documents may not hold. -/
  | character
  /-- A character that starts nothing. -/
  | start
  /-- A tab where only spaces indent. -/
  | tab
  /-- A simple key without the colon after it. -/
  | missingColon
  /-- A sequence entry, a key or a value at a place that has none. -/
  | place
  /-- A quoted scalar that is not closed. -/
  | openQuote
  /-- An escape that stands for no character. -/
  | escape
  /-- A colon inside a plain scalar of a flow collection. -/
  | colon
  /-- A block scalar with a malformed header. -/
  | blockHeader
  /-- An anchor, alias or tag that is malformed. -/
  | property
  /-- A directive that is malformed, unknown or repeated. -/
  | directive
  /-- A tag with a handle that is not declared. -/
  | handle
  /-- A token where the grammar has another. -/
  | grammar
  /-- More than one document. -/
  | documents
  /-- An alias for an anchor that does not exist. -/
  | alias
  /-- Aliases that unfold too often. -/
  | repetition
  /-- Collections nested too deeply. -/
  | depth
  /-- A key that occurs twice in a mapping. -/
  | duplicateKey
  /-- A whole number outside the range of integers. -/
  | range
  /-- A scalar that does not fit its tag. -/
  | tag
deriving DecidableEq, Repr

/-- The wording of a problem. -/
def Problem.message : Problem → String
  | .character => "control characters are not allowed"
  | .start => "found a character that cannot start any token"
  | .tab => "found a tab where an indentation space is expected"
  | .missingColon => "could not find the colon after a key"
  | .place => "an entry is not allowed in this context"
  | .openQuote => "a quoted scalar is not closed"
  | .escape => "found an unknown escape"
  | .colon => "found an unexpected colon in a plain scalar"
  | .blockHeader => "a block scalar has a malformed header"
  | .property => "an anchor, alias or tag is malformed"
  | .directive => "a directive is malformed"
  | .handle => "found an undefined tag handle"
  | .grammar => "did not find the expected node"
  | .documents => "more than one document"
  | .alias => "unknown anchor"
  | .repetition => "repetition limit exceeded"
  | .depth => "recursion limit exceeded"
  | .duplicateKey => "duplicate entry in a mapping"
  | .range => "an integer is out of range"
  | .tag => "a value does not fit its tag"

end Document
end Stackwright
