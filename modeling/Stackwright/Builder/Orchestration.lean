import Stackwright.Builder.Calls
import Stackwright.Model.Service

/-!
# Orchestration settings

What an orchestrator does around a container: building its image, watching files, granting secrets,
ordering the start of services and deploying replicas.
-/

namespace Stackwright

open Program

/-! ## Image builds -/

/-- The call for a forwarded key, if it has an id. -/
def SshKey.call? (key : SshKey) : Option Expr :=
  let (id, path) := key.resolve
  if id.isEmpty then none else some (.packageCall .build "SSH" [.string id, .string path])

/-- The settings of an image build, a list of calls for each field. -/
def Build.fields (b : Build) : List (List Expr) :=
  [ Calls.text .build "Context" b.context,
    Calls.text .build "Dockerfile" b.dockerfile,
    Calls.text .build "DockerfileInline" b.dockerfileInline,
    Calls.text .build "Target" b.target,
    Calls.optionalPairs .build "Arg" b.args,
    Calls.texts .build "CacheFrom" b.cacheFrom,
    Calls.texts .build "CacheTo" b.cacheTo,
    Calls.flag .build "NoCache" b.noCache,
    b.ssh.filterMap SshKey.call?,
    Calls.pairs .build "Label" b.labels,
    Calls.text .build "Network" b.network,
    Calls.text .build "Isolation" b.isolation,
    Calls.flag .build "Pull" b.pull,
    Calls.secrets .build "Secret" b.secrets,
    Calls.texts .build "Tags" b.tags,
    Calls.ulimits .build "Ulimit" b.ulimits,
    Calls.texts .build "Platforms" b.platforms,
    Calls.flag .build "Privileged" b.privileged,
    b.extraHosts.sorted.flatMap fun entry =>
      entry.2.map fun address =>
        Expr.packageCall .build "ExtraHost" [.string entry.1, .string address],
    Calls.pairs .build "AdditionalContext" b.additionalContexts ]

/-- The settings of an image build. -/
def Build.calls (b : Build) : List Expr :=
  b.fields.flatten

/-! ## Deployment -/

/-- The settings of an update or a rollback. Delays are rounded to whole seconds, monitoring times cut. -/
def UpdatePolicy.calls (u : UpdatePolicy) : List Expr :=
  List.flatten
    [ Calls.uint .deploy "Parallelism" u.parallelism,
      Calls.duration .deploy "Delay" (u.delay.map Duration.round),
      Calls.text .deploy "FailureAction" u.failureAction,
      Calls.duration .deploy "Monitor" (u.monitor.map Duration.truncate),
      ((u.maxFailureRatio.filter (· > 0.0)).map fun ratio =>
        Expr.packageCall .deploy "MaxFailureRatio" [.literal (.float ratio)]).toList,
      Calls.text .deploy "Order" u.order ]

/-- Whether rounding the delay overflows. -/
def UpdatePolicy.overflows (u : UpdatePolicy) : Bool :=
  u.delay.any Duration.roundOverflows

/-- The call for a device request. -/
def DeviceRequest.call (d : DeviceRequest) : Expr :=
  .packageCall .deploy "Device"
    (List.flatten
      [ Calls.texts .deploy "Capabilities" d.capabilities,
        Calls.text .deploy "Driver" d.driver,
        Calls.int .deploy "Count" d.count,
        Calls.texts .deploy "DeviceIDs" d.deviceIds ])

/-- The settings of one side of the resource constraints. -/
def Resource.calls (r : Resource) : List Expr :=
  List.flatten
    [ Calls.int .deploy "MemoryBytes" r.memory,
      Calls.int .deploy "NanoCPUs" r.nanoCpus,
      r.devices.map DeviceRequest.call ]

/-- The settings of a deployment, a list of calls for each field. -/
def Deploy.fields (d : Deploy) : List (List Expr) :=
  [ Calls.uint .deploy "Replicas" d.replicas,
    Calls.text .deploy "Mode" d.mode,
    Calls.pairs .deploy "Label" d.labels,
    Calls.group .deploy "UpdateConfig" ((d.updateConfig.map UpdatePolicy.calls).getD []),
    Calls.group .deploy "RollbackConfig" ((d.rollbackConfig.map UpdatePolicy.calls).getD []),
    Calls.group .deploy "Limits"
      (((d.resources.bind (·.limits)).map Resource.calls).getD []),
    Calls.group .deploy "Reservations"
      (((d.resources.bind (·.reservations)).map Resource.calls).getD []) ]

/-- The settings of a deployment. -/
def Deploy.calls (d : Deploy) : List Expr :=
  d.fields.flatten

/-- Whether rounding a delay of an update or a rollback overflows. -/
def Deploy.overflows (d : Deploy) : Bool :=
  d.updateConfig.any UpdatePolicy.overflows || d.rollbackConfig.any UpdatePolicy.overflows

/-! ## Services -/

/-- The call for a watch rule. -/
def WatchRule.call (r : WatchRule) : Expr :=
  .packageCall .service "Watch"
    [ .string r.action, .string r.path, .string (r.target.getD ""),
      if r.ignore.isEmpty then .literal .nil else .strings r.ignore ]

/-- The condition that waits for the health check of a dependency. -/
def healthyCondition : String := "service_healthy"

/-- The call for a dependency. -/
def Dependency.call (name : String) (d : Dependency) : Expr :=
  .packageCall .service (if d.condition = healthyCondition then "DependsOnHealthy" else "DependsOn")
    [.string name]

namespace Service

/-- The orchestration settings of a service, a list of calls for each field. -/
def orchestrationFields (s : Service) : List (List Expr) :=
  [ Calls.pairs .service "Annotation" s.annotations,
    Calls.flag .service "NoAttach" (s.attach == some false),
    (s.develop.map fun develop => develop.watch.map WatchRule.call).getD [],
    Calls.secrets .service "Secret" s.secrets,
    (s.build.map fun build => Expr.packageCall .service "Build" build.calls).toList,
    Calls.texts .service "Profiles" s.profiles,
    Calls.text .service "PullPolicy" s.pullPolicy,
    s.dependsOn.sorted.map fun entry => entry.2.call entry.1,
    (s.envFile.filter (!·.path.isEmpty)).map fun file =>
      Expr.packageCall .service "EnvFile" [.string file.path],
    (s.deploy.map fun deploy => Expr.packageCall .service "Deploy" deploy.calls).toList ]

/-- The orchestration settings of a service. -/
def orchestrationCalls (s : Service) : List Expr :=
  s.orchestrationFields.flatten

/-- Whether rounding a delay of the deployment overflows. -/
def overflows (s : Service) : Bool :=
  s.deploy.any Deploy.overflows

end Service
end Stackwright
