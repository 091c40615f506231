import Stackwright.Builder.Calls
import Stackwright.Model.Service

/-!
# Mounts

The call for a mount depends on its type; a mount without a type mounts a host path.
-/

namespace Stackwright

open Program

/-- The file mode of a mount in memory that declares none. -/
def defaultTmpfsMode : Nat := 0o777

/-- The source of a volume mount that names none. -/
def anonymousVolume : String := "anonymous"

namespace Mount

/-- The type of a mount. -/
def type (m : Mount) : String :=
  (given m.kind).getD "bind"

/-- The call for a mount, if it has a known type. The mount of a host path needs its source. -/
def call? (m : Mount) : Option Expr :=
  let target := Expr.string m.target
  if m.type = "bind" then
    (given m.source).map fun source =>
      .packageCall .host (if m.readOnly then "BindMountReadOnly" else "BindMount") [.string source, target]
  else if m.type = "volume" then
    some (.packageCall .host (if m.readOnly then "VolumeMountReadOnly" else "VolumeMount")
      [.string ((given m.source).getD anonymousVolume), target])
  else if m.type = "tmpfs" then
    let size := (m.tmpfs.bind (·.size)).getD 0
    let mode := (m.tmpfs.bind (·.mode)).getD defaultTmpfsMode
    some (.packageCall .host "TmpfsMount" [target, .int size, .literal (.fileMode mode)])
  else none

end Mount
end Stackwright
