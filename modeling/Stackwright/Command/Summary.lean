import Stackwright.Text.Digits
import Stackwright.Text.Lines

/-!
# The summary of a written program

One line with the path, the size and the number of functions.
-/

namespace Stackwright
namespace Command

/-- The whole number nearest to `num / den`, the even one of two that are equally near. -/
def roundDiv (num den : Nat) : Nat :=
  if 2 * (num % den) < den then num / den
  else if den < 2 * (num % den) then num / den + 1
  else num / den + num / den % 2

/-- A number of units with one decimal place; a half goes to the even neighbour. -/
def tenths (amount unit : Nat) : List Char :=
  let rounded := roundDiv (amount * 10) unit
  Text.decimal (rounded / 10) ++ '.' :: Text.decimal (rounded % 10)

/-- A size in the largest unit that it reaches. -/
def sizeText (bytes : Nat) : List Char :=
  if 1024 * 1024 ≤ bytes then tenths bytes (1024 * 1024) ++ " MiB".toList
  else if 1024 ≤ bytes then tenths bytes 1024 ++ " KiB".toList
  else Text.decimal bytes ++ " B".toList

/-- The number of functions that a source text declares. -/
def functionCount (source : List Char) : Nat :=
  ((Text.lines source).filter ("func ".toList.isPrefixOf ·)).length

/-- The size of a text in bytes. -/
def byteCount (source : List Char) : Nat :=
  source.foldl (fun count c => count + c.utf8Size) 0

/-- The summary of a source text that was written to a path. -/
def summary (path : String) (source : List Char) : List Char :=
  let functions := functionCount source
  "Wrote ".toList ++ path.toList ++ " (".toList ++ sizeText (byteCount source) ++ ", ".toList
    ++ Text.decimal functions ++ " function".toList
    ++ (if functions = 1 then [] else ['s']) ++ [')']

end Command
end Stackwright
