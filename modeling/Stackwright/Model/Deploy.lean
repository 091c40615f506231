import Stackwright.Dict
import Stackwright.Quantity.Duration

/-!
# Deployment settings

How an orchestrator runs a service: replicas, updates, and the resources it grants.
-/

namespace Stackwright

/-- A request for host devices; a count of `-1` asks for all of them. -/
structure DeviceRequest where
  capabilities : List String := []
  driver : Option String := none
  count : Option Int := none
  deviceIds : List String := []
deriving DecidableEq, Repr, Inhabited

/-- One side of the resource constraints. -/
structure Resource where
  cpus : Option Float := none
  memory : Option Int := none
  devices : List DeviceRequest := []
deriving DecidableEq, Inhabited

/-- The share of processors in billionths, rounded; only a positive share counts. -/
def Resource.nanoCpus (r : Resource) : Option Int :=
  (r.cpus.filter (· > 0.0)).map fun c => (c * 1000000000.0).round.toInt64.toInt

/-- Resource constraints. -/
structure Resources where
  limits : Option Resource := none
  reservations : Option Resource := none
deriving DecidableEq, Inhabited

/-- How a rolling update or a rollback proceeds. -/
structure UpdatePolicy where
  parallelism : Option Nat := none
  delay : Option Duration := none
  failureAction : Option String := none
  monitor : Option Duration := none
  maxFailureRatio : Option Float := none
  order : Option String := none
deriving DecidableEq, Inhabited

/-- Orchestrator deployment settings. -/
structure Deploy where
  mode : Option String := none
  replicas : Option Nat := none
  labels : Dict String := {}
  updateConfig : Option UpdatePolicy := none
  rollbackConfig : Option UpdatePolicy := none
  resources : Option Resources := none
deriving DecidableEq, Inhabited

end Stackwright
