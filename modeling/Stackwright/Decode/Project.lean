import Stackwright.Decode.Network
import Stackwright.Decode.Service
import Stackwright.Model.Project

/-!
# Reading projects

The top of a descriptor names the project and holds its services, networks and volumes. Every service is
called after its key, and two of its settings are put into their normal form.
-/

namespace Stackwright
namespace Decode

/-- The top of a descriptor, as it is written. -/
structure Descriptor where
  name : Option String := none
  services : Dict (Option Service) := {}
  networks : Dict (Option Network) := {}
  volumes : Dict (Option Volume) := {}

/-- The fields of the top of a descriptor. -/
def descriptorFields : List (Field Descriptor) :=
  [ field "name" (.optional .text) fun r v => { r with name := v },
    field "services" (.dict (.optional service)) fun r v => { r with services := v },
    field "networks" (.dict (.optional network)) fun r v => { r with networks := v },
    field "volumes" (.dict (.optional volume)) fun r v => { r with volumes := v } ]

/-- Reads the top of a descriptor. -/
def descriptor : Reader Descriptor :=
  record descriptorFields {}

/-- A check whose test says `NONE` is disabled and has no test. -/
def normalizeCheck (check : HealthCheck) : HealthCheck :=
  if check.test.head? = some "NONE" then { check with disable := true, test := [] } else check

/-- A device without a target appears under its source. -/
def normalizeDevice (device : Device) : Device :=
  if device.target.isEmpty then { device with target := device.source } else device

/-- A service under its name, with its health check and devices in normal form. -/
def normalizeService (name : String) (service : Service) : Service :=
  { service with
    name
    healthcheck := service.healthcheck.map normalizeCheck
    devices := service.devices.map normalizeDevice }

/-- The project that a descriptor describes. -/
def Descriptor.project (d : Descriptor) : Project where
  name := d.name.getD ""
  services := d.services.map fun name service => normalizeService name (service.getD {})
  networks := d.networks.map fun _ network => network.getD {}
  volumes := d.volumes.map fun _ volume => volume.getD {}

/-- Reads a project from the tree of a descriptor. -/
def project (t : Document.Tree) : Except Fault Project :=
  (descriptor .direct t).map Descriptor.project

end Decode
end Stackwright
