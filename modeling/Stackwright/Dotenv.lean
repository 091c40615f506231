import Stackwright.Dict
import Stackwright.Text.Blank
import Stackwright.Text.Digits
import Stackwright.Text.Inspect
import Stackwright.Text.Lines
import Stackwright.Text.Split

/-!
# Dotenv files

A dotenv file sets one variable a line, as `KEY=VALUE` with an optional `export` in front. Blank lines and
lines that start with a hash are skipped. A value may stand in single quotes, which keep every character,
or in double quotes, where a backslash escapes; a value without quotes ends at a comment. Later lines win.
-/

namespace Stackwright
namespace Dotenv

/-- Why a dotenv file could not be read; lines count from one. -/
inductive Fault where
  /-- A line has no equals sign. -/
  | noPair (line : Nat) (text : String)
  /-- A quoted value is not closed. -/
  | openQuote (line : Nat)
deriving DecidableEq, Repr

/-- The wording of a fault. -/
def Fault.message : Fault → String
  | .noPair line text =>
      "line " ++ String.ofList (Text.decimal line) ++ ": expected KEY=VALUE, got "
        ++ Text.inspectString text
  | .openQuote line => "line " ++ String.ofList (Text.decimal line) ++ ": unterminated quoted value"

/-- Resolves the escapes of a double-quoted value. -/
def unescape : List Char → List Char
  | [] => []
  | '\\' :: [] => ['\\']
  | '\\' :: c :: rest => (if c = 'n' then '\n' else if c = 't' then '\t' else c) :: unescape rest
  | c :: rest => c :: unescape rest

/-- The part of an unquoted value before a comment. -/
def cutComment : List Char → List Char
  | [] => []
  | ' ' :: '#' :: _ => []
  | c :: rest => c :: cutComment rest

/-- The value written by a trimmed text; a quoted value ends at the last quote of its kind. -/
def readValue (s : List Char) : Option (List Char) :=
  match s with
  | '"' :: inner => (Text.splitLast '"' inner).map fun (body, _) => unescape body
  | '\'' :: inner => (Text.splitLast '\'' inner).map fun (body, _) => body
  | _ => some (Text.trimEnd (cutComment s))

/-- The pair that a line sets, if it sets one. -/
def readLine (number : Nat) (raw : List Char) : Except Fault (Option (String × String)) :=
  let line := Text.trim raw
  if line.isEmpty || line.head? == some '#' then
    .ok none
  else
    let setting := (Text.stripLead "export ".toList line).getD line
    match Text.splitFirst '=' setting with
    | none => .error (.noPair number (String.ofList raw))
    | some (key, value) =>
        match readValue (Text.trim value) with
        | none => .error (.openQuote number)
        | some value => .ok (some (String.ofList (Text.trim key), String.ofList value))

/-- Adds the settings of the lines, the first of which has the given number. -/
def readLines (vars : Dict String) (number : Nat) : List (List Char) → Except Fault (Dict String)
  | [] => .ok vars
  | raw :: rest =>
      match readLine number raw with
      | .error fault => .error fault
      | .ok none => readLines vars (number + 1) rest
      | .ok (some (key, value)) => readLines (vars.insert key value) (number + 1) rest

/-- The variables that a dotenv text sets. -/
def parse (text : String) : Except Fault (Dict String) :=
  readLines {} 1 (Text.lines text.toList)

end Dotenv
end Stackwright
