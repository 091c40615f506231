import Stackwright.Model.Build
import Stackwright.Program.Expr

/-!
# Calls of the builder API

A setting of the model becomes calls of one package: none if the setting is missing, empty, zero or false.
The settings of a group stand in a fixed order, and settings with keys are walked in ascending key order.
-/

namespace Stackwright

/-- A text that is present and not empty. -/
def given (text : Option String) : Option String :=
  text.filter (!·.isEmpty)

namespace Program
namespace Calls

/-- One call, whatever its arguments are. -/
def one (package : Package) (name : String) (args : List Expr) : List Expr :=
  [.packageCall package name args]

/-- One call without arguments if a flag is set. -/
def flag (package : Package) (name : String) (on : Bool) : List Expr :=
  if on then one package name [] else []

/-- One call if there are arguments. -/
def group (package : Package) (name : String) (args : List Expr) : List Expr :=
  if args.isEmpty then [] else one package name args

/-- One call for a text that is given. -/
def text (package : Package) (name : String) (value : Option String) : List Expr :=
  match given value with
  | some value => one package name [.string value]
  | none => []

/-- One call for an integer that is given and not zero. -/
def int (package : Package) (name : String) (value : Option Int) : List Expr :=
  match value.filter (· ≠ 0) with
  | some value => one package name [.int value]
  | none => []

/-- One call for a whole number that is given and not zero. -/
def uint (package : Package) (name : String) (value : Option Nat) : List Expr :=
  match value.filter (· ≠ 0) with
  | some value => one package name [.uint value]
  | none => []

/-- One call for a duration that is given and not zero. -/
def duration (package : Package) (name : String) (value : Option Duration) : List Expr :=
  match value.filter (!·.isZero) with
  | some value => one package name [.literal (.duration value)]
  | none => []

/-- One call with all texts of a list. -/
def texts (package : Package) (name : String) (values : List String) : List Expr :=
  group package name (values.map .string)

/-- One call for each entry of a dictionary. -/
def pairs (package : Package) (name : String) (values : Dict String) : List Expr :=
  values.sorted.map fun entry => .packageCall package name [.string entry.1, .string entry.2]

/-- One call for each entry of a dictionary; an entry without a value has the empty text. -/
def optionalPairs (package : Package) (name : String) (values : Dict (Option String)) : List Expr :=
  values.sorted.map fun entry =>
    .packageCall package name [.string entry.1, .string (entry.2.getD "")]

/-- One call with a dictionary that is not empty. -/
def textMap (package : Package) (name : String) (values : Dict String) : List Expr :=
  if values.isEmpty then [] else one package name [.stringMap values.sorted]

/-- One call for each resource limit, with its soft and its hard bound. -/
def ulimits (package : Package) (name : String) (limits : Dict Ulimit) : List Expr :=
  limits.sorted.map fun entry =>
    .packageCall package name [.string entry.1, .int entry.2.bounds.1, .int entry.2.bounds.2]

/-- The arguments of a secret: source, target, and its owner and mode where they are set. -/
def secretArgs (package : Package) (secret : Secret) : List Expr :=
  [.string secret.source, .string (secret.target.getD "")]
    ++ text package "SecretUID" secret.uid
    ++ text package "SecretGID" secret.gid
    ++ (secret.mode.map fun mode =>
        Expr.packageCall package "SecretMode" [.literal (.fileMode mode)]).toList

/-- One call for each secret. -/
def secrets (package : Package) (name : String) (values : List Secret) : List Expr :=
  values.map fun secret => .packageCall package name (secretArgs package secret)

end Calls
end Program
end Stackwright
