import Stackwright.Decode.Record
import Stackwright.Decode.Shapes
import Stackwright.Model.Network

/-!
# Reading networks and volumes
-/

namespace Stackwright
namespace Decode

/-- The fields of an address pool. -/
def poolFields : List (Field IpamPool) :=
  [ field "subnet" (.optional .text) fun r v => { r with subnet := v },
    field "gateway" (.optional .text) fun r v => { r with gateway := v },
    field "ip_range" (.optional .text) fun r v => { r with ipRange := v },
    field "aux_addresses" .labels fun r v => { r with auxAddresses := v } ]

/-- The fields of the address management of a network. -/
def ipamFields : List (Field Ipam) :=
  [ field "driver" (.optional .text) fun r v => { r with driver := v },
    field "config" (.list (record poolFields {})) fun r v => { r with config := v } ]

/-- The fields of a network. -/
def networkFields : List (Field Network) :=
  [ field "name" (.optional .text) fun r v => { r with name := v },
    field "driver" (.optional .text) fun r v => { r with driver := v },
    field "driver_opts" .labels fun r v => { r with driverOpts := v },
    field "ipam" (.optional (record ipamFields {})) fun r v => { r with ipam := v },
    field "external" .external fun r v => { r with external := v },
    field "internal" .bool fun r v => { r with internal := v },
    field "attachable" .bool fun r v => { r with attachable := v },
    field "enable_ipv6" .bool fun r v => { r with enableIpv6 := v },
    field "labels" .labels fun r v => { r with labels := v } ]

/-- Reads a network. -/
def network : Reader Network :=
  record networkFields {}

/-- The fields of a volume. -/
def volumeFields : List (Field Volume) :=
  [ field "name" (.optional .text) fun r v => { r with name := v },
    field "driver" (.optional .text) fun r v => { r with driver := v },
    field "driver_opts" .labels fun r v => { r with driverOpts := v },
    field "external" .external fun r v => { r with external := v },
    field "labels" .labels fun r v => { r with labels := v } ]

/-- Reads a volume. -/
def volume : Reader Volume :=
  record volumeFields {}

end Decode
end Stackwright
