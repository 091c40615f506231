import Stackwright.Program.Package
import Stackwright.Quantity.Duration

/-!
# Programs

The tree of a generated program: types, literals, expressions, statements, functions and files. It is
built once and then printed.
-/

namespace Stackwright
namespace Program

/-- A literal. -/
inductive Literal where
  | string (value : String)
  | int (value : Int)
  | uint (value : Nat)
  | float (value : Float)
  | bool (value : Bool)
  | fileMode (value : Nat)
  | duration (value : Duration)
  | nil
deriving DecidableEq, Inhabited

/-- A type. -/
inductive TypeExpr where
  | named (name : String)
  | qualified (package : Package) (name : String)
  | pointer (target : TypeExpr)
  | slice (element : TypeExpr)
  | map (key value : TypeExpr)
  | chan (element : TypeExpr)
deriving DecidableEq, Repr, Inhabited

/-- An operator with one operand. -/
inductive UnaryOp where
  | not
  | receive
deriving DecidableEq, Repr, Inhabited

/-- An operator with two operands. -/
inductive BinaryOp where
  | and
  | notEq
deriving DecidableEq, Repr, Inhabited

/-- An expression. -/
inductive Expr where
  /-- A call of a local function. -/
  | call (name : String) (args : List Expr)
  /-- A call of a function of a package. -/
  | packageCall (package : Package) (name : String) (args : List Expr)
  /-- A call of a method of a value. -/
  | methodCall (receiver : Expr) (name : String) (args : List Expr)
  | ident (name : String)
  /-- A name of a package. -/
  | qualified (package : Package) (name : String)
  | literal (value : Literal)
  | list (element : TypeExpr) (items : List Expr)
  | map (key value : TypeExpr) (entries : List (Expr × Expr))
  /-- Arguments that are spliced into the argument list around them. -/
  | group (items : List Expr)
  /-- A type in the place of a value. -/
  | type (value : TypeExpr)
  | unary (op : UnaryOp) (operand : Expr)
  | binary (op : BinaryOp) (left right : Expr)
deriving Inhabited

/-- A statement. -/
inductive Stmt where
  | expr (value : Expr)
  | define (names : List String) (value : Expr)
  | return (value : Option Expr)
  | if (init : Option Stmt) (condition : Expr) (body : List Stmt)
  /-- A function literal that is started on its own. -/
  | go (body : List Stmt)
  /-- A function literal that runs at the end of the function around it. -/
  | defer (body : List Stmt)
  | deferCall (call : Expr)
  /-- An empty line. -/
  | blank
deriving Inhabited

/-- A function without parameters. -/
structure Func where
  doc : List String := []
  name : String
  results : List TypeExpr
  body : List Stmt
deriving Inhabited

/-- A source file. -/
structure File where
  header : List String
  package : String
  funcs : List Func
deriving Inhabited

namespace Expr

/-- A string literal. -/
def string (value : String) : Expr :=
  .literal (.string value)

/-- An integer literal. -/
def int (value : Int) : Expr :=
  .literal (.int value)

/-- The literal of a whole number. -/
def uint (value : Nat) : Expr :=
  .literal (.uint value)

/-- The literal of a list of strings. -/
def strings (values : List String) : Expr :=
  .list (.named "string") (values.map string)

/-- The literal of a map between strings. -/
def stringMap (entries : List (String × String)) : Expr :=
  .map (.named "string") (.named "string") (entries.map fun e => (string e.1, string e.2))

/-- Whether an expression is a call. -/
def isCall : Expr → Bool
  | .call _ _ | .packageCall _ _ _ | .methodCall _ _ _ => true
  | _ => false

/-- Whether an expression has structure of its own: a call, a list, a map or a group. -/
def isComposite : Expr → Bool
  | .call _ _ | .packageCall _ _ _ | .methodCall _ _ _ | .list _ _ | .map _ _ _ | .group _ => true
  | _ => false

end Expr
end Program
end Stackwright
