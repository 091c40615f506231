import Stackwright.Document.Token
import Stackwright.Document.Token.Property

/-!
# Directives

A directive stands before a document and gives its version or declares a tag handle.
-/

namespace Stackwright
namespace Document

/-- Reads one of the numbers of a version. -/
def readVersionNumber (c : Cursor) : Except Problem (Nat × Cursor) :=
  let digits := c.rest.takeWhile Char.isDigit
  if digits.isEmpty || 9 < digits.length then .error .directive
  else
    match Text.readDigits 10 digits with
    | some n => .ok (n, c.skip digits.length)
    | none => .error .directive

/-- Reads the version of a document. -/
def readVersion (c : Cursor) : Except Problem (Token × Cursor) := do
  let (major, c) ← readVersionNumber c
  if c.peek != some '.' then throw .directive
  let (minor, c) ← readVersionNumber (c.skip 1)
  return (.version major minor, c)

/-- Reads a tag handle and the text that it stands for. -/
def readHandleDirective (c : Cursor) : Except Problem (Token × Cursor) := do
  if c.peek != some '!' then throw .directive
  let (handle, c) := readHandle c
  if handle != ['!'] && !(1 < handle.length && handle.getLast? == some '!') then throw .directive
  if !c.peek.any isSpaceOrTab then throw .directive
  let c := c.skipWhile isSpaceOrTab
  let (uri, c) ← readTagOctets true c.fuel [] c
  if uri.isEmpty || !isGap c.peek then throw .directive
  return (.handle (String.ofList handle) (untilZero uri), c)

/-- Reads a directive and the rest of its line. -/
def readDirective (c : Cursor) : Except Problem (Token × Cursor) := do
  let c := c.skip 1
  let name := String.ofList (c.rest.takeWhile isWordChar)
  let c := c.skipWhile isWordChar
  if name.isEmpty || !isGap c.peek then throw .directive
  let c := c.skipWhile isSpaceOrTab
  let (token, c) ←
    if name = "YAML" then readVersion c
    else if name = "TAG" then readHandleDirective c
    else throw .directive
  let c := c.skipWhile isSpaceOrTab
  let c := if c.peek == some '#' then c.skipToBreak else c
  if isLineEnd c.peek then return (token, c.skipBreak) else throw .directive

end Document
end Stackwright
