import Stackwright.Model.Network
import Stackwright.Model.Service

/-!
# Projects

A project is a named deployment: its services, networks and volumes.
-/

namespace Stackwright

/-- A deployment. -/
structure Project where
  name : String := ""
  services : Dict Service := {}
  networks : Dict Network := {}
  volumes : Dict Volume := {}
deriving Inhabited

namespace Project

/-- Adds a service under its own name. -/
def withService (p : Project) (service : Service) : Project :=
  { p with services := p.services.insert service.name service }

/-- Adds a network under a key. -/
def withNetwork (p : Project) (key : String) (network : Network) : Project :=
  { p with networks := p.networks.insert key network }

/-- Adds a volume under a key. -/
def withVolume (p : Project) (key : String) (volume : Volume) : Project :=
  { p with volumes := p.volumes.insert key volume }

/-- The services in ascending order of their names. -/
def sortedServices (p : Project) : List Service :=
  sortBy Service.name p.services.values

/-- Every service is stored under its own name. -/
def NamesServices (p : Project) : Prop :=
  ∀ entry ∈ p.services.entries, entry.2.name = entry.1

end Project
end Stackwright
