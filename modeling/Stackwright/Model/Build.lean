import Stackwright.Dict
import Stackwright.Text.Split

/-!
# Image builds

How the image of a service is built, with the secrets and resource limits that builds share with services.
-/

namespace Stackwright

/-- A secret granted to a service or a build. -/
structure Secret where
  source : String := ""
  target : Option String := none
  uid : Option String := none
  gid : Option String := none
  mode : Option Nat := none
deriving DecidableEq, Repr, Inhabited

/-- A resource limit: one value for both bounds, or a soft and a hard bound. -/
structure Ulimit where
  single : Option Int := none
  soft : Option Int := none
  hard : Option Int := none
deriving DecidableEq, Repr, Inhabited

/-- The soft and the hard bound; a single value is both, and a missing bound is zero. -/
def Ulimit.bounds (u : Ulimit) : Int × Int :=
  match u.single with
  | some value => (value, value)
  | none => (u.soft.getD 0, u.hard.getD 0)

/-- A forwarded key or agent socket; a combined `id=path` may stand in `id` with an empty `path`. -/
structure SshKey where
  id : String := ""
  path : String := ""
deriving DecidableEq, Repr, Inhabited

/-- The id and the path of an entry, cut out of a combined one if there is no path. -/
def SshKey.resolve (key : SshKey) : String × String :=
  if key.path.isEmpty then (Text.splitString '=' key.id).getD (key.id, key.path)
  else (key.id, key.path)

/-- How an image is built. A build argument without a value is declared only. -/
structure Build where
  context : Option String := none
  dockerfile : Option String := none
  dockerfileInline : Option String := none
  target : Option String := none
  args : Dict (Option String) := {}
  cacheFrom : List String := []
  cacheTo : List String := []
  noCache : Bool := false
  ssh : List SshKey := []
  labels : Dict String := {}
  network : Option String := none
  isolation : Option String := none
  pull : Bool := false
  secrets : List Secret := []
  tags : List String := []
  ulimits : Dict Ulimit := {}
  platforms : List String := []
  privileged : Bool := false
  extraHosts : Dict (List String) := {}
  additionalContexts : Dict String := {}
deriving DecidableEq, Inhabited

end Stackwright
