import Stackwright.Decode.Build
import Stackwright.Decode.Deploy
import Stackwright.Model.Service
import Stackwright.ShellWords

/-!
# Reading services
-/

namespace Stackwright
namespace Decode

/-- Reads a command, as a shell line or as a list of words. -/
def command : Reader (List String) :=
  .map (·.getD []) (.optional (.oneOf
    [ .map ShellWords.splitString .text,
      .map (List.map Scalar.string) (.list .scalar) ]))

/-- Reads the test of a health check, as a shell line or as a list of words. -/
def healthTest : Reader (List String) :=
  .map (·.getD []) (.optional (.oneOf
    [ .map (fun line => ["CMD-SHELL", line]) .text,
      .list .text ]))

/-- The fields of a health check. -/
def healthCheckFields : List (Field HealthCheck) :=
  [ field "test" healthTest fun r v => { r with test := v },
    field "interval" .optDuration fun r v => { r with interval := v },
    field "timeout" .optDuration fun r v => { r with timeout := v },
    field "start_period" .optDuration fun r v => { r with startPeriod := v },
    field "retries" optCount fun r v => { r with retries := v },
    field "disable" .bool fun r v => { r with disable := v } ]

/-- The fields of a port binding. -/
def portFields : List (Field Port) :=
  [ field "target" (.natBelow Port.limit) fun r v => { r with target := v },
    field "published" .optText fun r v => { r with published := v },
    field "protocol" (.optional .text) fun r v => { r with protocol := v },
    field "host_ip" (.optional .text) fun r v => { r with hostIp := v } ]

/-- The bindings of one entry of a list of ports: a binding, or a compact text that is still to be read. -/
def expandPorts : List (Port ⊕ Scalar) → Except Fault (List Port)
  | [] => .ok []
  | .inl port :: rest => do
      let rest ← expandPorts rest
      return port :: rest
  | .inr scalar :: rest => do
      let ports ← (Port.parse scalar.string).mapError .port
      let rest ← expandPorts rest
      return ports ++ rest

/-- Reads published ports. -/
def ports : Reader (List Port) :=
  .check expandPorts (.entriesOf [.map Sum.inl (record portFields {}), .map Sum.inr .scalar])

/-- The fields of a mount in memory. -/
def tmpfsFields : List (Field Tmpfs) :=
  [ field "size" .optBytes fun r v => { r with size := v },
    field "mode" .optFileMode fun r v => { r with mode := v } ]

/-- The fields of a mount. -/
def mountFields : List (Field Mount) :=
  [ field "type" (.optional .text) fun r v => { r with kind := v },
    field "source" (.optional .text) fun r v => { r with source := v },
    field "target" .text fun r v => { r with target := v },
    field "read_only" .bool fun r v => { r with readOnly := v },
    field "tmpfs" (.optional (record tmpfsFields {})) fun r v => { r with tmpfs := v } ]

/-- Whether the source of a mount is a path on the host. -/
def isHostPath (source : List Char) : Bool :=
  source.head?.any fun c => c == '.' || c == '/' || c == '~'

/-- The mount from a source to a target, with the flags of its mode. -/
def mountOf (source : List Char) (target : List Char) (flags : List (List Char)) : Mount where
  kind := some (if isHostPath source then "bind" else "volume")
  source := some (String.ofList source)
  target := String.ofList target
  readOnly := flags.contains ['r', 'o']

/-- The mount that a short text writes: `target`, `source:target` or `source:target:mode`. -/
def shortMount (spec : String) : Mount :=
  match Text.splitFirst ':' spec.toList with
  | none => { kind := some "volume", target := spec }
  | some (source, rest) =>
      match Text.splitFirst ':' rest with
      | none => mountOf source rest []
      | some (target, mode) => mountOf source target (Text.splitAll ',' mode)

/-- Reads mounts. -/
def mounts : Reader (List Mount) :=
  .entriesOf [.map shortMount .text, record mountFields {}]

/-- The fields of a device. -/
def deviceFields : List (Field Device) :=
  [ field "source" .text fun r v => { r with source := v },
    field "target" .text fun r v => { r with target := v },
    field "permissions" (.optional .text) fun r v => { r with permissions := v } ]

/-- The device that a short text writes: `source`, `source:target` or `source:target:permissions`. -/
def shortDevice (spec : String) : Device :=
  match Text.splitFirst ':' spec.toList with
  | none => { source := spec, target := spec }
  | some (source, rest) =>
      match Text.splitFirst ':' rest with
      | none => { source := String.ofList source, target := String.ofList rest }
      | some (target, permissions) =>
          { source := String.ofList source
            target := String.ofList target
            permissions := some (String.ofList permissions) }

/-- Reads devices. -/
def devices : Reader (List Device) :=
  .entriesOf [.map shortDevice .text, record deviceFields {}]

/-- The fields of a log configuration. -/
def loggingFields : List (Field Logging) :=
  [ field "driver" (.optional .text) fun r v => { r with driver := v },
    field "options" .labels fun r v => { r with options := v } ]

/-- The fields of a throttled device. -/
def throttleFields : List (Field Throttle) :=
  [ field "path" .text fun r v => { r with path := v },
    field "rate" .bytes fun r v => { r with rate := v } ]

/-- Reads throttled devices. -/
def throttles : Reader (List Throttle) :=
  .list (record throttleFields {})

/-- The fields of limits on block devices. -/
def blockIoFields : List (Field BlockIo) :=
  [ field "weight" (.optional (.natBelow 65536)) fun r v => { r with weight := v },
    field "device_read_bps" throttles fun r v => { r with readBps := v },
    field "device_write_bps" throttles fun r v => { r with writeBps := v },
    field "device_read_iops" throttles fun r v => { r with readIops := v },
    field "device_write_iops" throttles fun r v => { r with writeIops := v } ]

/-- The fields of a network attachment. -/
def endpointFields : List (Field Endpoint) :=
  [ field "aliases" .texts fun r v => { r with aliases := v },
    field "ipv4_address" (.optional .text) fun r v => { r with ipv4Address := v },
    field "ipv6_address" (.optional .text) fun r v => { r with ipv6Address := v },
    field "link_local_ips" .texts fun r v => { r with linkLocalIps := v },
    field "mac_address" (.optional .text) fun r v => { r with macAddress := v },
    field "driver_opts" .labels fun r v => { r with driverOpts := v } ]

/-- The fields of a watch rule. -/
def watchFields : List (Field WatchRule) :=
  [ field "action" .text fun r v => { r with action := v },
    field "path" .text fun r v => { r with path := v },
    field "target" (.optional .text) fun r v => { r with target := v },
    field "ignore" .texts fun r v => { r with ignore := v } ]

/-- The fields of development settings. -/
def developFields : List (Field Develop) :=
  [ field "watch" (.list (record watchFields {})) fun r v => { r with watch := v } ]

/-- The fields of a dependency. -/
def dependencyFields : List (Field Dependency) :=
  [ field "condition" .text fun r v => { r with condition := v },
    field "restart" .bool fun r v => { r with restart := v },
    field "required" .bool fun r v => { r with required := v } ]

/-- Reads dependencies; one that is only named has the default settings. -/
def dependencies : Reader (Dict Dependency) :=
  .map (Dict.map fun _ dependency => dependency.getD {}) (.named (record dependencyFields {}))

/-- The fields of an environment file. -/
def envFileFields : List (Field EnvFile) :=
  [ field "path" .text fun r v => { r with path := v },
    field "required" .bool fun r v => { r with required := v } ]

/-- Reads environment files, one or many, each given by its path or as a record. -/
def envFiles : Reader (List EnvFile) :=
  .map (·.getD []) (.optional (.oneOrMany (.oneOf
    [ .map (fun path => { path, required := true }) .text,
      record envFileFields {} ])))

/-- The fields of a service, the container's first. -/
def serviceFields : List (Field Service) :=
  [ field "image" (.optional .text) fun r v => { r with image := v },
    field "expose" .texts fun r v => { r with expose := v },
    field "stop_grace_period" .optDuration fun r v => { r with stopGracePeriod := v },
    field "environment" .settings fun r v => { r with environment := v },
    field "command" command fun r v => { r with command := v },
    field "entrypoint" command fun r v => { r with entrypoint := v },
    field "user" (.optional .text) fun r v => { r with user := v },
    field "working_dir" (.optional .text) fun r v => { r with workingDir := v },
    field "hostname" (.optional .text) fun r v => { r with hostname := v },
    field "domainname" (.optional .text) fun r v => { r with domainname := v },
    field "stop_signal" (.optional .text) fun r v => { r with stopSignal := v },
    field "labels" .labels fun r v => { r with labels := v },
    field "healthcheck" (.optional (record healthCheckFields {})) fun r v => { r with healthcheck := v },
    field "tty" .bool fun r v => { r with tty := v },
    field "stdin_open" .bool fun r v => { r with stdinOpen := v },
    field "ports" ports fun r v => { r with ports := v },
    field "volumes" mounts fun r v => { r with volumes := v },
    field "restart" (.optional .text) fun r v => { r with restart := v },
    field "privileged" .bool fun r v => { r with privileged := v },
    field "read_only" .bool fun r v => { r with readOnly := v },
    field "mem_limit" .optBytes fun r v => { r with memLimit := v },
    field "shm_size" .optBytes fun r v => { r with shmSize := v },
    field "dns" .texts fun r v => { r with dns := v },
    field "extra_hosts" .hosts fun r v => { r with extraHosts := v },
    field "init" (.optional .bool) fun r v => { r with init := v },
    field "cgroup_parent" (.optional .text) fun r v => { r with cgroupParent := v },
    field "cgroup" (.optional .text) fun r v => { r with cgroup := v },
    field "cpu_count" (.optional .int64) fun r v => { r with cpuCount := v },
    field "cpu_percent" (.optional .int64) fun r v => { r with cpuPercent := v },
    field "cpu_period" (.optional .int64) fun r v => { r with cpuPeriod := v },
    field "cpu_quota" (.optional .int64) fun r v => { r with cpuQuota := v },
    field "cpu_shares" (.optional .int64) fun r v => { r with cpuShares := v },
    field "cpuset" (.optional .text) fun r v => { r with cpuset := v },
    field "device_cgroup_rules" (.list .text) fun r v => { r with deviceCgroupRules := v },
    field "devices" devices fun r v => { r with devices := v },
    field "dns_opt" .texts fun r v => { r with dnsOpt := v },
    field "dns_search" .texts fun r v => { r with dnsSearch := v },
    field "group_add" .texts fun r v => { r with groupAdd := v },
    field "ipc" (.optional .text) fun r v => { r with ipc := v },
    field "isolation" (.optional .text) fun r v => { r with isolation := v },
    field "logging" (.optional (record loggingFields {})) fun r v => { r with logging := v },
    field "mem_reservation" .optBytes fun r v => { r with memReservation := v },
    field "memswap_limit" .optBytes fun r v => { r with memswapLimit := v },
    field "oom_score_adj" (.optional .int64) fun r v => { r with oomScoreAdj := v },
    field "oom_kill_disable" .bool fun r v => { r with oomKillDisable := v },
    field "pid" (.optional .text) fun r v => { r with pid := v },
    field "pids_limit" (.optional .int64) fun r v => { r with pidsLimit := v },
    field "runtime" (.optional .text) fun r v => { r with runtime := v },
    field "security_opt" .texts fun r v => { r with securityOpt := v },
    field "storage_opt" .labels fun r v => { r with storageOpt := v },
    field "sysctls" .labels fun r v => { r with sysctls := v },
    field "ulimits" (.dict ulimit) fun r v => { r with ulimits := v },
    field "userns_mode" (.optional .text) fun r v => { r with usernsMode := v },
    field "uts" (.optional .text) fun r v => { r with uts := v },
    field "volumes_from" .texts fun r v => { r with volumesFrom := v },
    field "volume_driver" (.optional .text) fun r v => { r with volumeDriver := v },
    field "cap_add" .texts fun r v => { r with capAdd := v },
    field "cap_drop" .texts fun r v => { r with capDrop := v },
    field "network_mode" (.optional .text) fun r v => { r with networkMode := v },
    field "blkio_config" (.optional (record blockIoFields {})) fun r v => { r with blockIo := v },
    field "networks" (.named (record endpointFields {})) fun r v => { r with networks := v },
    field "mac_address" (.optional .text) fun r v => { r with macAddress := v },
    field "platform" (.optional .text) fun r v => { r with platform := v },
    field "annotations" .labels fun r v => { r with annotations := v },
    field "attach" (.optional .bool) fun r v => { r with attach := v },
    field "develop" (.optional (record developFields {})) fun r v => { r with develop := v },
    field "secrets" secrets fun r v => { r with secrets := v },
    field "build" build fun r v => { r with build := v },
    field "profiles" .texts fun r v => { r with profiles := v },
    field "pull_policy" (.optional .text) fun r v => { r with pullPolicy := v },
    field "depends_on" dependencies fun r v => { r with dependsOn := v },
    field "env_file" envFiles fun r v => { r with envFile := v },
    field "deploy" (.optional (record deployFields {})) fun r v => { r with deploy := v } ]

/-- Reads a service; its name is not part of it. -/
def service : Reader Service :=
  record serviceFields {}

end Decode
end Stackwright
