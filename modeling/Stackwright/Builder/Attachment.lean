import Stackwright.Builder.Calls
import Stackwright.Model.Service

/-!
# Network attachments and platform

The networks that a container is attached to, and the platform it runs on.
-/

namespace Stackwright

open Program

/-- The calls for the addresses of an endpoint. -/
def Endpoint.addressCalls (e : Endpoint) : List Expr :=
  List.flatten
    [ Calls.text .endpoint "IPv4Address" e.ipv4Address,
      Calls.text .endpoint "IPv6Address" e.ipv6Address,
      Calls.texts .endpoint "LinkLocalIPs" e.linkLocalIps ]

/-- The calls for the settings of an endpoint. -/
def Endpoint.calls (e : Endpoint) : List Expr :=
  List.flatten
    [ Calls.texts .endpoint "Aliases" e.aliases,
      Calls.group .endpoint "IPAMConfig" e.addressCalls,
      Calls.text .endpoint "MacAddress" e.macAddress,
      Calls.pairs .endpoint "DriverOpt" e.driverOpts ]

/-- The call that attaches a network. Without endpoint settings the hardware address of the service, if it
applies to this attachment, is the only setting. -/
def attachment (macAddress : Option String) (network : String) (endpoint : Option Endpoint) : Expr :=
  .packageCall .endpoint "Network"
    (.string network ::
      match endpoint with
      | some endpoint => endpoint.calls
      | none => Calls.text .endpoint "MacAddress" macAddress)

namespace Service

/-- The network attachments of a service. Its own hardware address applies to the first one only. -/
def endpointCalls (s : Service) : List Expr :=
  match s.networks.sorted with
  | [] => []
  | first :: rest =>
      attachment s.macAddress first.1 first.2 :: rest.map fun entry => attachment none entry.1 entry.2

/-- The platform of a service, written `architecture`, `os/architecture` or `os/architecture/variant`. A
text of any other shape is the architecture as a whole. -/
def platformCalls (s : Service) : List Expr :=
  match given s.platform with
  | none => []
  | some platform =>
      let setting (name : String) (value : List Char) : Expr :=
        .packageCall .platform name [.string (String.ofList value)]
      match Text.splitAll '/' platform.toList with
      | [os, arch] => [setting "OS" os, setting "Architecture" arch]
      | [os, arch, variant] =>
          [setting "OS" os, setting "Architecture" arch, setting "Variant" variant]
      | _ => [setting "Architecture" platform.toList]

end Service
end Stackwright
