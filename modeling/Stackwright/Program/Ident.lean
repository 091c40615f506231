/-!
# Identifiers

The identifiers of a generated program are ASCII letters, digits and underscores. A free-form name becomes
an exported identifier: its runs of letters and digits are capitalized and joined.
-/

namespace Stackwright
namespace Program

/-- Whether a character can start an identifier. -/
def isIdentStart (c : Char) : Bool :=
  c.isAlpha || c == '_'

/-- Whether a character can stand in an identifier. -/
def isIdentChar (c : Char) : Bool :=
  c.isAlphanum || c == '_'

/-- Whether a text is an identifier. -/
def isIdentifier (name : List Char) : Bool :=
  match name with
  | [] => false
  | c :: rest => isIdentStart c && rest.all isIdentChar

/-- Joins the runs of letters and digits of a name, each with a capital first letter; `start` says that the
next letter or digit starts a run. -/
def joinRuns (start : Bool) : List Char → List Char
  | [] => []
  | c :: rest =>
      if c.isAlphanum then (if start then c.toUpper else c) :: joinRuns false rest else joinRuns true rest

/-- What comes before a name that yields no leading letter. -/
def identLead : List Char := "Service".toList

/-- The exported identifier for a name. -/
def exported (name : List Char) : List Char :=
  let joined := joinRuns true name
  if joined.head?.all Char.isDigit then identLead ++ joined else joined

/-- The exported identifier for a name, as a string. -/
def exportedString (name : String) : String :=
  String.ofList (exported name.toList)

end Program
end Stackwright
