import Stackwright.Builder.Container
import Stackwright.Builder.Mount

/-!
# Host settings

How the host runs the container of a service: published ports, mounts, restart policy, resource limits,
kernel namespaces, devices and rates of block devices.
-/

namespace Stackwright

open Program

/-- The host address of a port binding that names none. -/
def defaultHostIp : String := "0.0.0.0"

/-- The permissions of a device that declares none. -/
def defaultDevicePermissions : String := "rwm"

/-- The call for a published port; without a published port the container port is published. -/
def Port.call (p : Port) : Expr :=
  let target := String.ofList (Text.decimal p.target)
  .packageCall .host "PortBinding"
    [ .string ((given p.protocol).getD defaultProtocol),
      .string ((given p.hostIp).getD defaultHostIp),
      .string ((given p.published).getD target),
      .string target ]

/-- The call for a restart policy. -/
def RestartPolicy.call : RestartPolicy → Expr
  | .always => .packageCall .host "RestartAlways" []
  | .unlessStopped => .packageCall .host "RestartUnlessStopped" []
  | .onFailure retries => .packageCall .host "RestartOnFailure" [.int retries]
  | .never => .packageCall .host "RestartNever" []

/-- The call for a device; without a path in the container it keeps its host path. -/
def Device.call (d : Device) : Expr :=
  .packageCall .host "Device"
    [ .string d.source,
      .string (if d.target.isEmpty then d.source else d.target),
      .string ((given d.permissions).getD defaultDevicePermissions) ]

/-- The call for logging, if there is a driver. -/
def Logging.call? (l : Logging) : Option Expr :=
  (given l.driver).map fun driver =>
    .packageCall .host "LogConfig" [.string driver, .stringMap l.options.sorted]

/-- One call for each rate limit of a block device. -/
def Throttle.calls (name : String) (limits : List Throttle) : List Expr :=
  limits.map fun limit => .packageCall .host name [.string limit.path, .int limit.rate]

/-- The calls for the limits on block devices. -/
def BlockIo.fields (b : BlockIo) : List (List Expr) :=
  [ Calls.uint .host "BlkioWeight" b.weight,
    Throttle.calls "BlkioDeviceReadBps" b.readBps,
    Throttle.calls "BlkioDeviceWriteBps" b.writeBps,
    Throttle.calls "BlkioDeviceReadIOps" b.readIops,
    Throttle.calls "BlkioDeviceWriteIOps" b.writeIops ]

namespace Service

/-- The entries `host:address` of the additional hosts. -/
def hostEntries (s : Service) : List String :=
  s.extraHosts.sorted.flatMap fun entry => entry.2.map fun address => entry.1 ++ ":" ++ address

/-- The host settings of a service, a list of calls for each field. -/
def hostFields (s : Service) : List (List Expr) :=
  [ s.ports.map Port.call,
    s.volumes.filterMap Mount.call?,
    ((s.restart.bind RestartPolicy.parse?).map RestartPolicy.call).toList,
    Calls.flag .host "Privileged" s.privileged,
    Calls.flag .host "ReadonlyRootfs" s.readOnly,
    Calls.int .host "Memory" s.memLimit,
    Calls.int .host "ShmSize" s.shmSize,
    Calls.texts .host "DNS" s.dns,
    Calls.texts .host "ExtraHosts" s.hostEntries,
    Calls.flag .host "Init" (s.init.getD false),
    Calls.text .host "CgroupParent" s.cgroupParent,
    Calls.text .host "Cgroup" s.cgroup,
    Calls.int .host "CPUCount" s.cpuCount,
    Calls.int .host "CPUPercent" s.cpuPercent,
    Calls.int .host "CPUPeriod" s.cpuPeriod,
    Calls.int .host "CPUQuota" s.cpuQuota,
    Calls.int .host "CPUShares" s.cpuShares,
    Calls.text .host "CpusetCpus" s.cpuset,
    Calls.texts .host "DeviceCgroupRules" s.deviceCgroupRules,
    s.devices.map Device.call,
    Calls.texts .host "DNSOptions" s.dnsOpt,
    Calls.texts .host "DNSSearch" s.dnsSearch,
    Calls.texts .host "GroupAdd" s.groupAdd,
    Calls.text .host "IpcMode" s.ipc,
    Calls.text .host "Isolation" s.isolation,
    (s.logging.bind Logging.call?).toList,
    Calls.int .host "MemoryReservation" s.memReservation,
    Calls.int .host "MemorySwap" s.memswapLimit,
    Calls.int .host "OomScoreAdj" s.oomScoreAdj,
    Calls.flag .host "OomKillDisable" s.oomKillDisable,
    Calls.text .host "PidMode" s.pid,
    Calls.int .host "PidsLimit" s.pidsLimit,
    Calls.text .host "Runtime" s.runtime,
    Calls.texts .host "SecurityOpt" s.securityOpt,
    Calls.textMap .host "StorageOpt" s.storageOpt,
    Calls.pairs .host "Sysctl" s.sysctls,
    Calls.ulimits .host "Ulimit" s.ulimits,
    Calls.text .host "UsernsMode" s.usernsMode,
    Calls.text .host "UTSMode" s.uts,
    Calls.texts .host "VolumesFrom" s.volumesFrom,
    Calls.text .host "VolumeDriver" s.volumeDriver,
    Calls.texts .host "CapAdd" s.capAdd,
    Calls.texts .host "CapDrop" s.capDrop,
    Calls.text .host "NetworkMode" s.networkMode ]
    ++ (s.blockIo.map BlockIo.fields).getD []

/-- The host settings of a service. -/
def hostCalls (s : Service) : List Expr :=
  s.hostFields.flatten

end Service
end Stackwright
