import Stackwright.Builder.Calls
import Stackwright.Model.Project

/-!
# Networks and volumes of a project

Every network and volume that the deployment manages is created under its own name, or under its key if it
has none. A trivial one is created by its name only.
-/

namespace Stackwright

open Program

/-- The settings of a pool of addresses. -/
def IpamPool.calls (p : IpamPool) : List Expr :=
  List.flatten
    [ Calls.text .ipam "Subnet" p.subnet,
      Calls.text .ipam "Gateway" p.gateway,
      Calls.text .ipam "IPRange" p.ipRange,
      Calls.pairs .ipam "AuxAddress" p.auxAddresses ]

/-- The settings of the address management of a network. -/
def Ipam.fields (i : Ipam) : List (List Expr) :=
  [ Calls.text .network "IPAMDriver" i.driver,
    i.config.map fun pool => Expr.packageCall .network "IPAMPool" pool.calls ]

namespace Network

/-- The name that a network is created under. -/
def nameFor (n : Network) (key : String) : String :=
  (given n.name).getD key

/-- The settings of a network, a list of calls for each field. -/
def fields (n : Network) : List (List Expr) :=
  [ Calls.text .network "Driver" n.driver,
    Calls.pairs .network "DriverOpt" n.driverOpts,
    Calls.flag .network "Internal" n.internal,
    Calls.flag .network "Attachable" n.attachable,
    Calls.flag .network "EnableIPv6" n.enableIpv6,
    Calls.pairs .network "Label" n.labels ]
    ++ (n.ipam.map Ipam.fields).getD []

/-- The settings of a network. -/
def calls (n : Network) : List Expr :=
  n.fields.flatten

/-- The call that creates a network. -/
def creation (n : Network) (key : String) : Expr :=
  .packageCall .network "New"
    (.string (n.nameFor key) :: if n.isTrivial then [] else n.calls)

end Network

namespace Volume

/-- The name that a volume is created under. -/
def nameFor (v : Volume) (key : String) : String :=
  (given v.name).getD key

/-- The settings of a volume, a list of calls for each field. -/
def fields (v : Volume) : List (List Expr) :=
  [ Calls.text .volume "Driver" v.driver,
    Calls.pairs .volume "DriverOpt" v.driverOpts,
    Calls.pairs .volume "Label" v.labels ]

/-- The settings of a volume. -/
def calls (v : Volume) : List Expr :=
  v.fields.flatten

/-- The call that creates a volume. -/
def creation (v : Volume) (key : String) : Expr :=
  .packageCall .volume "New"
    (.string (v.nameFor key) :: if v.isTrivial then [] else v.calls)

end Volume

namespace Project

/-- The calls that create the networks of a project. -/
def networkCreations (p : Project) : List Expr :=
  (p.networks.sorted.filter (!·.2.external)).map fun entry => entry.2.creation entry.1

/-- The calls that create the volumes of a project. -/
def volumeCreations (p : Project) : List Expr :=
  (p.volumes.sorted.filter (!·.2.external)).map fun entry => entry.2.creation entry.1

end Project
end Stackwright
