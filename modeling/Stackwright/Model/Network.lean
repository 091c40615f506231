import Stackwright.Dict

/-!
# Networks and volumes

The networks and volumes that a project declares. A trivial one differs from an undeclared one in nothing
but its name.
-/

namespace Stackwright

/-- Whether an optional text is missing or empty. -/
def isUnset (text : Option String) : Bool :=
  text.all String.isEmpty

/-- One pool of addresses. -/
structure IpamPool where
  subnet : Option String := none
  gateway : Option String := none
  ipRange : Option String := none
  auxAddresses : Dict String := {}
deriving DecidableEq, Inhabited

/-- Address management of a network. -/
structure Ipam where
  driver : Option String := none
  config : List IpamPool := []
deriving DecidableEq, Inhabited

/-- Whether there is neither a driver nor a pool. -/
def Ipam.isEmpty (i : Ipam) : Bool :=
  isUnset i.driver && i.config.isEmpty

/-- A declared network; an external one is not managed by the deployment. -/
structure Network where
  name : Option String := none
  driver : Option String := none
  driverOpts : Dict String := {}
  ipam : Option Ipam := none
  external : Bool := false
  internal : Bool := false
  attachable : Bool := false
  enableIpv6 : Bool := false
  labels : Dict String := {}
deriving DecidableEq, Inhabited

/-- Whether every option has its default value. -/
def Network.isTrivial (n : Network) : Bool :=
  isUnset n.driver && n.driverOpts.isEmpty && !n.internal && !n.attachable && !n.enableIpv6
    && n.labels.isEmpty && n.ipam.all Ipam.isEmpty

/-- A declared volume; an external one is not managed by the deployment. -/
structure Volume where
  name : Option String := none
  driver : Option String := none
  driverOpts : Dict String := {}
  external : Bool := false
  labels : Dict String := {}
deriving DecidableEq, Inhabited

/-- Whether every option has its default value. -/
def Volume.isTrivial (v : Volume) : Bool :=
  isUnset v.driver && v.driverOpts.isEmpty && v.labels.isEmpty

end Stackwright
