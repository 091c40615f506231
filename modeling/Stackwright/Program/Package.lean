import Stackwright.Text.Split

/-!
# Packages

The packages that a generated program may refer to: those of the builder API, below one module root, and
a few of the Go standard library.
-/

namespace Stackwright
namespace Program

/-- A package that generated code may refer to. -/
inductive Package where
  | gantry
  | container
  | host
  | endpoint
  | platform
  | service
  | healthcheck
  | build
  | deploy
  | network
  | ipam
  | volume
  | context
  | errors
  | log
  | os
  | signal
  | syscall
  | time
deriving DecidableEq, Repr, Inhabited

namespace Package

/-- All packages, in the order of the registry. -/
def all : List Package :=
  [.gantry, .container, .host, .endpoint, .platform, .service, .healthcheck, .build, .deploy, .network,
   .ipam, .volume, .context, .errors, .log, .os, .signal, .syscall, .time]

/-- The qualifier of a package in code. -/
def name : Package → String
  | .gantry => "gantry"
  | .container => "container"
  | .host => "host"
  | .endpoint => "endpoint"
  | .platform => "platform"
  | .service => "service"
  | .healthcheck => "healthcheck"
  | .build => "build"
  | .deploy => "deploy"
  | .network => "network"
  | .ipam => "ipam"
  | .volume => "volume"
  | .context => "context"
  | .errors => "errors"
  | .log => "log"
  | .os => "os"
  | .signal => "signal"
  | .syscall => "syscall"
  | .time => "time"

/-- Whether a package belongs to the standard library. -/
def isStandard : Package → Bool
  | .context | .errors | .log | .os | .signal | .syscall | .time => true
  | _ => false

/-- Whether the calls of a package configure something; nested ones get a line for each argument. -/
def isConfig : Package → Bool
  | .gantry => false
  | p => !p.isStandard

/-- The path that a package is imported by, with the builder API below a module root. -/
def importPath (root : String) : Package → String
  | .signal => "os/signal"
  | p =>
      if p.isStandard then p.name
      else String.ofList (root.toList.reverse.dropWhile (· == '/')).reverse ++ "/" ++ p.name

/-- Every package is in the registry. -/
theorem mem_all (p : Package) : p ∈ all := by
  cases p <;> decide

end Package
end Program
end Stackwright
