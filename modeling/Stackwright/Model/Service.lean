import Stackwright.Model.Build
import Stackwright.Model.Deploy
import Stackwright.Port
import Stackwright.Text.Blank
import Stackwright.Text.Digits

/-!
# Services

A service of a project: what runs in its container, how the host runs it, the networks it is attached to,
its platform, and how it is orchestrated.
-/

namespace Stackwright

/-- A health check of a container. -/
structure HealthCheck where
  test : List String := []
  interval : Option Duration := none
  timeout : Option Duration := none
  startPeriod : Option Duration := none
  retries : Option Nat := none
  disable : Bool := false
deriving DecidableEq, Repr, Inhabited

/-- Options of a mount in memory. -/
structure Tmpfs where
  size : Option Int := none
  mode : Option Nat := none
deriving DecidableEq, Repr, Inhabited

/-- A mount of a host path, a volume or memory. -/
structure Mount where
  kind : Option String := none
  source : Option String := none
  target : String := ""
  readOnly : Bool := false
  tmpfs : Option Tmpfs := none
deriving DecidableEq, Repr, Inhabited

/-- A host device that the container sees. -/
structure Device where
  source : String := ""
  target : String := ""
  permissions : Option String := none
deriving DecidableEq, Repr, Inhabited

/-- Where log lines go. -/
structure Logging where
  driver : Option String := none
  options : Dict String := {}
deriving DecidableEq, Inhabited

/-- The rate limit of one block device. -/
structure Throttle where
  path : String := ""
  rate : Int := 0
deriving DecidableEq, Repr, Inhabited

/-- Limits on block devices. -/
structure BlockIo where
  weight : Option Nat := none
  readBps : List Throttle := []
  writeBps : List Throttle := []
  readIops : List Throttle := []
  writeIops : List Throttle := []
deriving DecidableEq, Repr, Inhabited

/-- Settings of one network attachment. -/
structure Endpoint where
  aliases : List String := []
  ipv4Address : Option String := none
  ipv6Address : Option String := none
  linkLocalIps : List String := []
  macAddress : Option String := none
  driverOpts : Dict String := {}
deriving DecidableEq, Inhabited

/-- A rule that acts when watched files change. -/
structure WatchRule where
  action : String := ""
  path : String := ""
  target : Option String := none
  ignore : List String := []
deriving DecidableEq, Repr, Inhabited

/-- Settings for development. -/
structure Develop where
  watch : List WatchRule := []
deriving DecidableEq, Repr, Inhabited

/-- What a service waits for before it starts. -/
structure Dependency where
  condition : String := "service_started"
  restart : Bool := false
  required : Bool := true
deriving DecidableEq, Repr, Inhabited

/-- A file of environment variables. -/
structure EnvFile where
  path : String := ""
  required : Bool := false
deriving DecidableEq, Repr, Inhabited

/-- When a stopped container is started again. -/
inductive RestartPolicy where
  | always
  | unlessStopped
  /-- After a failure, up to a number of times; zero sets no bound. -/
  | onFailure (retries : Int)
  | never
deriving DecidableEq, Repr

/-- The policy that a text names, if it names one. A retry count that is no number counts as zero. -/
def RestartPolicy.parse? (text : String) : Option RestartPolicy :=
  if text = "always" then some .always
  else if text = "unless-stopped" then some .unlessStopped
  else if text = "no" || text = "" then some .never
  else if text = "on-failure" then some (.onFailure 0)
  else
    (Text.stripLead "on-failure:".toList text.toList).map fun retries =>
      .onFailure ((Text.readInt64 10 (Text.trim retries)).getD 0)

/-- A service of a project. An environment variable without a value is declared only, and an attached
network without an endpoint has no settings of its own. -/
structure Service where
  name : String := ""
  image : Option String := none
  expose : List String := []
  stopGracePeriod : Option Duration := none
  environment : Dict (Option String) := {}
  command : List String := []
  entrypoint : List String := []
  user : Option String := none
  workingDir : Option String := none
  hostname : Option String := none
  domainname : Option String := none
  stopSignal : Option String := none
  labels : Dict String := {}
  healthcheck : Option HealthCheck := none
  tty : Bool := false
  stdinOpen : Bool := false
  ports : List Port := []
  volumes : List Mount := []
  restart : Option String := none
  privileged : Bool := false
  readOnly : Bool := false
  memLimit : Option Int := none
  shmSize : Option Int := none
  dns : List String := []
  extraHosts : Dict (List String) := {}
  init : Option Bool := none
  cgroupParent : Option String := none
  cgroup : Option String := none
  cpuCount : Option Int := none
  cpuPercent : Option Int := none
  cpuPeriod : Option Int := none
  cpuQuota : Option Int := none
  cpuShares : Option Int := none
  cpuset : Option String := none
  deviceCgroupRules : List String := []
  devices : List Device := []
  dnsOpt : List String := []
  dnsSearch : List String := []
  groupAdd : List String := []
  ipc : Option String := none
  isolation : Option String := none
  logging : Option Logging := none
  memReservation : Option Int := none
  memswapLimit : Option Int := none
  oomScoreAdj : Option Int := none
  oomKillDisable : Bool := false
  pid : Option String := none
  pidsLimit : Option Int := none
  runtime : Option String := none
  securityOpt : List String := []
  storageOpt : Dict String := {}
  sysctls : Dict String := {}
  ulimits : Dict Ulimit := {}
  usernsMode : Option String := none
  uts : Option String := none
  volumesFrom : List String := []
  volumeDriver : Option String := none
  capAdd : List String := []
  capDrop : List String := []
  networkMode : Option String := none
  blockIo : Option BlockIo := none
  networks : Dict (Option Endpoint) := {}
  macAddress : Option String := none
  platform : Option String := none
  annotations : Dict String := {}
  attach : Option Bool := none
  develop : Option Develop := none
  secrets : List Secret := []
  build : Option Build := none
  profiles : List String := []
  pullPolicy : Option String := none
  dependsOn : Dict Dependency := {}
  envFile : List EnvFile := []
  deploy : Option Deploy := none
deriving Inhabited

end Stackwright
