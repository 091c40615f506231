import Stackwright.Decode.Record
import Stackwright.Decode.Shapes
import Stackwright.Model.Deploy

/-!
# Reading deployment settings
-/

namespace Stackwright
namespace Decode

/-- Reads an unsigned integer of sixty-four bits that may be missing. -/
def optCount : Reader (Option Nat) :=
  .optional (.natBelow (Nat.pow 2 64))

/-- The fields of a device request. -/
def deviceRequestFields : List (Field DeviceRequest) :=
  [ field "capabilities" .texts fun r v => { r with capabilities := v },
    field "driver" (.optional .text) fun r v => { r with driver := v },
    field "count" .optDeviceCount fun r v => { r with count := v },
    field "device_ids" .texts fun r v => { r with deviceIds := v } ]

/-- The fields of one side of the resource constraints. -/
def resourceFields : List (Field Resource) :=
  [ field "cpus" .optFloat fun r v => { r with cpus := v },
    field "memory" .optBytes fun r v => { r with memory := v },
    field "devices" (.list (record deviceRequestFields {})) fun r v => { r with devices := v } ]

/-- The fields of the resource constraints. -/
def resourcesFields : List (Field Resources) :=
  [ field "limits" (.optional (record resourceFields {})) fun r v => { r with limits := v },
    field "reservations" (.optional (record resourceFields {})) fun r v => { r with reservations := v } ]

/-- The fields of an update or rollback. -/
def updateFields : List (Field UpdatePolicy) :=
  [ field "parallelism" optCount fun r v => { r with parallelism := v },
    field "delay" .optDuration fun r v => { r with delay := v },
    field "failure_action" (.optional .text) fun r v => { r with failureAction := v },
    field "monitor" .optDuration fun r v => { r with monitor := v },
    field "max_failure_ratio" (.optional .float) fun r v => { r with maxFailureRatio := v },
    field "order" (.optional .text) fun r v => { r with order := v } ]

/-- The fields of deployment settings. -/
def deployFields : List (Field Deploy) :=
  [ field "mode" (.optional .text) fun r v => { r with mode := v },
    field "replicas" optCount fun r v => { r with replicas := v },
    field "labels" .labels fun r v => { r with labels := v },
    field "update_config" (.optional (record updateFields {})) fun r v => { r with updateConfig := v },
    field "rollback_config" (.optional (record updateFields {})) fun r v =>
      { r with rollbackConfig := v },
    field "resources" (.optional (record resourcesFields {})) fun r v => { r with resources := v } ]

end Decode
end Stackwright
