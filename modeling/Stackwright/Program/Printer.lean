import Stackwright.Decimal.Style
import Stackwright.Program.Ident
import Stackwright.Program.Imports
import Stackwright.Program.Quoted
import Stackwright.Text.Inspect

/-!
# Printing programs

The text of a program is laid out while its tree is walked:

- in a chain of calls, every call after the first starts a line of its own, and the dot ends the line
  before it;
- a configuration call whose arguments have structure gets a line for each argument, down to a fixed depth;
- the calls that take a group of settings always do.

Groups are spliced into the argument list around them. Imports follow from the packages that the program
refers to.
-/

namespace Stackwright
namespace Program

/-- Why a tree cannot be printed. -/
inductive RenderFault where
  /-- A name that is no identifier. -/
  | identifier (name : String)
  /-- A float literal that is not a finite number. -/
  | nonFinite (value : Float)
  /-- A group outside an argument list. -/
  | strayGroup
deriving DecidableEq

/-- The wording of a fault. -/
def RenderFault.message : RenderFault → String
  | .identifier name => "invalid identifier " ++ Text.inspectString name
  | .nonFinite value => "non-finite float " ++ Decimal.Style.plain.string value
  | .strayGroup => "argument group used outside an argument list"

/-- The result of printing a part of a program. -/
abbrev Printed := Except RenderFault (List Char)

/-- The text of a name, which has to be an identifier. -/
def printName (name : String) : Printed :=
  if isIdentifier name.toList then .ok name.toList else .error (.identifier name)

/-- A line end, with the indentation of the next line. -/
def newline (indent : Nat) : List Char :=
  '\n' :: List.replicate indent '\t'

/-- The qualifier of a package. -/
def qualifier (package : Package) : List Char :=
  package.name.toList ++ ['.']

/-- Puts a comma between texts. -/
def commaSeparated (parts : List (List Char)) : List Char :=
  [',', ' '].intercalate parts

/-! ## Types and literals -/

/-- The text of a type. -/
def TypeExpr.print : TypeExpr → Printed
  | .named name => printName name
  | .qualified package name => do
      let name ← printName name
      return qualifier package ++ name
  | .pointer target => do
      let target ← target.print
      return '*' :: target
  | .slice element => do
      let element ← element.print
      return '[' :: ']' :: element
  | .map key value => do
      let key ← key.print
      let value ← value.print
      return "map[".toList ++ key ++ ']' :: value
  | .chan element => do
      let element ← element.print
      return "chan ".toList ++ element

/-- The units of time, largest first, with their nanoseconds. -/
def timeUnits : List (Nat × String) :=
  [ (3600000000000, "Hour"), (60000000000, "Minute"), (1000000000, "Second"), (1000000, "Millisecond"),
    (1000, "Microsecond"), (1, "Nanosecond") ]

/-- The text of a duration: a multiple of the largest unit that divides it. -/
def printDuration (d : Duration) : List Char :=
  if d.nanoseconds = 0 then ['0']
  else
    let (size, unit) := (timeUnits.find? fun u => d.nanoseconds % u.1 == 0).getD (1, "Nanosecond")
    let name := qualifier .time ++ unit.toList
    if d.nanoseconds / size = 1 then name
    else Text.decimal (d.nanoseconds / size) ++ " * ".toList ++ name

/-- The text of a file mode, in octal. -/
def printFileMode (mode : Nat) : List Char :=
  if mode = 0 then ['0'] else '0' :: Nat.toDigits 8 mode

/-- The text of a truth value. -/
def printBool (value : Bool) : List Char :=
  if value then "true".toList else "false".toList

/-- The text of a literal. -/
def Literal.print : Literal → Printed
  | .string value => .ok (quote value.toList)
  | .int value => .ok (Text.decimalInt value)
  | .uint value => .ok (Text.decimal value)
  | .float value =>
      if value.isFinite then .ok (Decimal.Style.literal.text value) else .error (.nonFinite value)
  | .bool value => .ok (printBool value)
  | .fileMode value => .ok (printFileMode value)
  | .duration value => .ok (printDuration value)
  | .nil => .ok "nil".toList

/-! ## Expressions -/

/-- How strongly an operator binds. -/
def BinaryOp.precedence : BinaryOp → Nat
  | .and => 2
  | .notEq => 3

/-- The text of an operator with two operands. -/
def BinaryOp.symbol : BinaryOp → List Char
  | .and => " && ".toList
  | .notEq => " != ".toList

/-- The text of an operator with one operand. -/
def UnaryOp.symbol : UnaryOp → List Char
  | .not => ['!']
  | .receive => ['<', '-']

/-- Whether an operand binds more weakly than the operator around it. -/
def Expr.bindsBelow (strength : Nat) : Expr → Bool
  | .binary op _ _ => op.precedence < strength
  | _ => false

/-- Whether an operand is an operation with two operands. -/
def Expr.isBinary : Expr → Bool
  | .binary _ _ _ => true
  | _ => false

/-- Puts parentheses around a text if asked to. -/
def parenthesize (needed : Bool) (text : List Char) : List Char :=
  if needed then '(' :: text ++ [')'] else text

mutual
/-- The arguments of a call, with the groups among them spliced in. -/
def Expr.spliceOne : Expr → List Expr
  | .group items => Expr.splice items
  | e => [e]

/-- A list of arguments, with the groups among them spliced in. -/
def Expr.splice : List Expr → List Expr
  | [] => []
  | e :: rest => e.spliceOne ++ Expr.splice rest
end

/-- The calls that take a group of settings. -/
def configGroups : List String :=
  ["WithConfig", "WithHostConfig", "WithNetworkingConfig", "WithPlatform", "NewService"]

/-- The deepest nesting at which configuration calls get a line for each argument. -/
def breakDepth : Nat := 6

/-- Whether the arguments of a call get a line each. -/
def breaksLines (package : Option Package) (name : String) (args : List Expr) (depth : Nat) : Bool :=
  let flat := Expr.splice args
  if configGroups.contains name then !flat.isEmpty
  else package.any Package.isConfig && depth ≤ breakDepth && flat.any Expr.isComposite

/-- An argument list, on one line or with a line for each argument. -/
def layoutArgs (indent : Nat) (broken : Bool) (args : List (List Char)) : List Char :=
  if broken then
    '(' :: args.flatMap (fun arg => newline (indent + 1) ++ arg ++ [',']) ++ newline indent ++ [')']
  else '(' :: commaSeparated args ++ [')']

/-- The indentation of the arguments of a call. -/
def argIndent (indent : Nat) (broken : Bool) : Nat :=
  if broken then indent + 1 else indent

mutual
/-- The text of an expression at a nesting depth, on a line with the given indentation. -/
def Expr.print (indent depth : Nat) : Expr → Printed
  | .call name args => do
      let text ← printName name
      let broken := breaksLines none name args depth
      let args ← Expr.printArgs (argIndent indent broken) (depth + 1) args
      return text ++ layoutArgs indent broken args
  | .packageCall package name args => do
      let text ← printName name
      let broken := breaksLines (some package) name args depth
      let args ← Expr.printArgs (argIndent indent broken) (depth + 1) args
      return qualifier package ++ text ++ layoutArgs indent broken args
  | .methodCall receiver name args =>
      let broken := breaksLines none name args depth
      if receiver.isCall then do
        let head ← receiver.print indent depth
        let text ← printName name
        let args ← Expr.printArgs (argIndent (indent + 1) broken) (depth + 1) args
        return head ++ '.' :: newline (indent + 1) ++ text ++ layoutArgs (indent + 1) broken args
      else do
        let text ← printName name
        let head ← receiver.print indent depth
        let args ← Expr.printArgs (argIndent indent broken) (depth + 1) args
        return head ++ '.' :: text ++ layoutArgs indent broken args
  | .ident name => printName name
  | .qualified package name => do
      let name ← printName name
      return qualifier package ++ name
  | .literal value => value.print
  | .list element items => do
      let element ← element.print
      let items ← Expr.printItems indent (depth + 1) items
      return '[' :: ']' :: element ++ '\x7b' :: commaSeparated items ++ ['\x7d']
  | .map key value entries => do
      let key ← key.print
      let value ← value.print
      let entries ← Expr.printEntries indent (depth + 1) entries
      return "map[".toList ++ key ++ ']' :: value ++ '\x7b' :: commaSeparated entries ++ ['\x7d']
  | .group _ => .error .strayGroup
  | .type value => value.print
  | .unary op operand => do
      let text ← operand.print indent depth
      return op.symbol ++ parenthesize operand.isBinary text
  | .binary op left right => do
      let leftText ← left.print indent depth
      let rightText ← right.print indent depth
      return parenthesize (left.bindsBelow op.precedence) leftText ++ op.symbol
        ++ parenthesize (right.bindsBelow op.precedence) rightText

/-- The texts of the arguments of a call, with groups spliced in. -/
def Expr.printArgs (indent depth : Nat) : List Expr → Except RenderFault (List (List Char))
  | [] => .ok []
  | .group items :: rest => do
      let items ← Expr.printArgs indent depth items
      let rest ← Expr.printArgs indent depth rest
      return items ++ rest
  | e :: rest => do
      let text ← e.print indent depth
      let rest ← Expr.printArgs indent depth rest
      return text :: rest

/-- The texts of the items of a list. -/
def Expr.printItems (indent depth : Nat) : List Expr → Except RenderFault (List (List Char))
  | [] => .ok []
  | e :: rest => do
      let text ← e.print indent depth
      let rest ← Expr.printItems indent depth rest
      return text :: rest

/-- The texts of the entries of a map. -/
def Expr.printEntries (indent depth : Nat) :
    List (Expr × Expr) → Except RenderFault (List (List Char))
  | [] => .ok []
  | (key, value) :: rest => do
      let key ← key.print indent depth
      let value ← value.print indent depth
      let rest ← Expr.printEntries indent depth rest
      return (key ++ ':' :: ' ' :: value) :: rest
end

/-! ## Statements -/

/-- The texts of names that are defined. -/
def printNames : List String → Except RenderFault (List (List Char))
  | [] => .ok []
  | name :: rest => do
      let name ← printName name
      let rest ← printNames rest
      return name :: rest

/-- A block around the text of its statements. -/
def layoutBlock (indent : Nat) (body : List Char) : List Char :=
  ' ' :: '\x7b' :: body ++ newline indent ++ ['\x7d']

mutual
/-- The text of a statement on a line with the given indentation. -/
def Stmt.print (indent : Nat) : Stmt → Printed
  | .expr value => value.print indent 0
  | .define names value => do
      let names ← printNames names
      let value ← value.print indent 0
      return commaSeparated names ++ " := ".toList ++ value
  | .return none => .ok "return".toList
  | .return (some value) => do
      let value ← value.print indent 0
      return "return ".toList ++ value
  | .if init condition body => do
      let init ← Stmt.printInit indent init
      let condition ← condition.print indent 0
      let body ← Stmt.printBody (indent + 1) body
      return "if ".toList ++ init ++ condition ++ layoutBlock indent body
  | .go body => do
      let body ← Stmt.printBody (indent + 1) body
      return "go func()".toList ++ layoutBlock indent body ++ "()".toList
  | .defer body => do
      let body ← Stmt.printBody (indent + 1) body
      return "defer func()".toList ++ layoutBlock indent body ++ "()".toList
  | .deferCall call => do
      let call ← call.print indent 0
      return "defer ".toList ++ call
  | .blank => .ok []

/-- The text of the statement in front of a condition. -/
def Stmt.printInit (indent : Nat) : Option Stmt → Printed
  | none => .ok []
  | some s => do
      let text ← s.print indent
      return text ++ "; ".toList

/-- The text of the statements of a block, each on a line of its own. -/
def Stmt.printBody (indent : Nat) : List Stmt → Printed
  | [] => .ok []
  | .blank :: rest => do
      let rest ← Stmt.printBody indent rest
      return '\n' :: rest
  | s :: rest => do
      let text ← s.print indent
      let rest ← Stmt.printBody indent rest
      return newline indent ++ text ++ rest
end

/-! ## Functions and files -/

/-- A comment line. -/
def printComment (line : String) : List Char :=
  if line.isEmpty then "//\n".toList else "// ".toList ++ line.toList ++ ['\n']

/-- The texts of types. -/
def printTypes : List TypeExpr → Except RenderFault (List (List Char))
  | [] => .ok []
  | t :: rest => do
      let text ← t.print
      let rest ← printTypes rest
      return text :: rest

/-- The result types of a function; several stand in parentheses. -/
def layoutResults : List (List Char) → List Char
  | [] => []
  | [single] => ' ' :: single
  | many => ' ' :: '(' :: commaSeparated many ++ [')']

/-- The text of a function. -/
def Func.print (f : Func) : Printed := do
  let name ← printName f.name
  let results ← printTypes f.results
  let body ← Stmt.printBody 1 f.body
  return f.doc.flatMap printComment ++ "func ".toList ++ name ++ "()".toList ++ layoutResults results
    ++ layoutBlock 0 body ++ ['\n']

/-- The text of functions, each after an empty line. -/
def printFuncs : List Func → Printed
  | [] => .ok []
  | f :: rest => do
      let text ← f.print
      let rest ← printFuncs rest
      return '\n' :: text ++ rest

/-- The import paths of packages, in ascending order. -/
def importPaths (root : String) (packages : List Package) : List String :=
  (packages.map (Package.importPath root)).mergeSort fun a b => decide (a ≤ b)

/-- The groups of import paths: the standard library first, then the builder API. -/
def importGroups (root : String) (packages : List Package) : List (List String) :=
  [ importPaths root (packages.filter Package.isStandard),
    importPaths root (packages.filter (!·.isStandard)) ].filter (!·.isEmpty)

/-- The line of an import. -/
def printImport (path : String) : List Char :=
  '\t' :: quote path.toList ++ ['\n']

/-- The import block of a file; without imports there is none. -/
def printImports (groups : List (List String)) : List Char :=
  if groups.isEmpty then []
  else
    "\nimport (\n".toList ++ ['\n'].intercalate (groups.map fun paths => paths.flatMap printImport)
      ++ ")\n".toList

/-- The comment at the top of a file. -/
def printHeader (lines : List String) : List Char :=
  if lines.isEmpty then [] else lines.flatMap printComment ++ ['\n']

/-- The text of a file, with the builder API below a module root. -/
def File.print (root : String) (f : File) : Printed := do
  let package ← printName f.package
  let funcs ← printFuncs f.funcs
  return printHeader f.header ++ "package ".toList ++ package ++ ['\n']
    ++ printImports (importGroups root f.packages) ++ funcs

end Program
end Stackwright
