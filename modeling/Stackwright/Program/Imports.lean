import Stackwright.Program.Expr

/-!
# The packages a program refers to

The packages of a file are collected from its tree: every qualified name, call and type, and the package
of time units for every duration that is not zero.
-/

namespace Stackwright
namespace Program

/-- The packages of a type. -/
def TypeExpr.packages : TypeExpr → List Package
  | .named _ => []
  | .qualified package _ => [package]
  | .pointer target => target.packages
  | .slice element => element.packages
  | .map key value => key.packages ++ value.packages
  | .chan element => element.packages

/-- The packages of a literal. -/
def Literal.packages : Literal → List Package
  | .duration d => if d.isZero then [] else [.time]
  | _ => []

namespace Expr

mutual
/-- The packages of an expression. -/
def packages : Expr → List Package
  | .call _ args => packagesOf args
  | .packageCall package _ args => package :: packagesOf args
  | .methodCall receiver _ args => receiver.packages ++ packagesOf args
  | .ident _ => []
  | .qualified package _ => [package]
  | .literal value => value.packages
  | .list element items => element.packages ++ packagesOf items
  | .map key value entries => key.packages ++ value.packages ++ entryPackages entries
  | .group items => packagesOf items
  | .type value => value.packages
  | .unary _ operand => operand.packages
  | .binary _ left right => left.packages ++ right.packages

/-- The packages of a list of expressions. -/
def packagesOf : List Expr → List Package
  | [] => []
  | e :: rest => e.packages ++ packagesOf rest

/-- The packages of the entries of a map. -/
def entryPackages : List (Expr × Expr) → List Package
  | [] => []
  | (key, value) :: rest => key.packages ++ value.packages ++ entryPackages rest
end

end Expr

namespace Stmt

mutual
/-- The packages of a statement. -/
def packages : Stmt → List Package
  | .expr value => value.packages
  | .define _ value => value.packages
  | .return value => (value.map Expr.packages).getD []
  | .if init condition body => initPackages init ++ condition.packages ++ packagesOf body
  | .go body => packagesOf body
  | .defer body => packagesOf body
  | .deferCall call => call.packages
  | .blank => []

/-- The packages of an optional statement. -/
def initPackages : Option Stmt → List Package
  | none => []
  | some s => s.packages

/-- The packages of a list of statements. -/
def packagesOf : List Stmt → List Package
  | [] => []
  | s :: rest => s.packages ++ packagesOf rest
end

end Stmt

/-- The packages of a function. -/
def Func.packages (f : Func) : List Package :=
  f.results.flatMap TypeExpr.packages ++ Stmt.packagesOf f.body

/-- The packages of a file, each once, in the order of the registry. -/
def File.packages (f : File) : List Package :=
  let used := f.funcs.flatMap Func.packages
  Package.all.filter used.contains

end Program
end Stackwright
