import Stackwright.Builder.Assembly
import Stackwright.Proofs.Builder.Calls

/-!
# Durations in programs

A program holds a duration wherever a health check or an update policy gives one that is not
zero, and nowhere else.

Main results:

- Theorem `Service.durations_funcs`: the durations in the functions of a service.
- Theorem `Project.durations_assemble`: the durations in the program of a project.
-/

namespace Stackwright
namespace Program

/-! ## Durations of a tree -/

namespace Expr

mutual
/-- The durations in an expression. -/
def durations : Expr → List Duration
  | .call _ args => durationsAll args
  | .packageCall _ _ args => durationsAll args
  | .methodCall receiver _ args => receiver.durations ++ durationsAll args
  | .ident _ => []
  | .qualified _ _ => []
  | .literal (.duration value) => [value]
  | .literal _ => []
  | .list _ items => durationsAll items
  | .map _ _ entries => entryDurations entries
  | .group items => durationsAll items
  | .type _ => []
  | .unary _ operand => operand.durations
  | .binary _ left right => left.durations ++ right.durations

/-- The durations in a list of expressions. -/
def durationsAll : List Expr → List Duration
  | [] => []
  | e :: rest => e.durations ++ durationsAll rest

/-- The durations in the entries of a map. -/
def entryDurations : List (Expr × Expr) → List Duration
  | [] => []
  | (key, value) :: rest => key.durations ++ value.durations ++ entryDurations rest
end

/-- The durations in a list of expressions are those of its members. -/
theorem durationsAll_eq (items : List Expr) : durationsAll items = items.flatMap durations := by
  induction items with
  | nil => rfl
  | cons e rest ih => rw [durationsAll, ih, List.flatMap_cons]

/-- The durations in the entries of a map are those of their keys and values. -/
theorem entryDurations_eq (entries : List (Expr × Expr)) :
    entryDurations entries = entries.flatMap fun entry => entry.1.durations ++ entry.2.durations := by
  induction entries with
  | nil => rfl
  | cons entry rest ih => rw [entryDurations, ih, List.flatMap_cons]

/-- The durations in a call of a package are those of its arguments. -/
@[simp]
theorem durations_packageCall (package : Package) (name : String) (args : List Expr) :
    (packageCall package name args).durations = args.flatMap durations :=
  durationsAll_eq args

/-- The durations in a call of a method are those of its receiver and of its arguments. -/
@[simp]
theorem durations_methodCall (receiver : Expr) (name : String) (args : List Expr) :
    (methodCall receiver name args).durations = receiver.durations ++ args.flatMap durations := by
  rw [durations, durationsAll_eq]

@[simp]
theorem durations_group (items : List Expr) : (group items).durations = items.flatMap durations :=
  durationsAll_eq items

/-- A literal that is no duration has none. -/
theorem durations_literal {value : Literal} (h : ∀ d, value ≠ .duration d) :
    (literal value).durations = [] := by
  cases value with
  | duration d => exact absurd rfl (h d)
  | _ => rfl

@[simp]
theorem durations_string (value : String) : (string value).durations = [] :=
  rfl

@[simp]
theorem durations_int (value : Int) : (int value).durations = [] :=
  rfl

@[simp]
theorem durations_uint (value : Nat) : (uint value).durations = [] :=
  rfl

/-- Expressions without a duration that are made for each member of a list have none together. -/
theorem durations_map {α : Type} {values : List α} {f : α → Expr} (h : ∀ a, (f a).durations = []) :
    (values.map f).flatMap durations = [] := by
  simp [List.flatMap_map, h]

/-- Expressions without a duration that are made for some members of a list have none together. -/
theorem durations_filterMap {α : Type} {values : List α} {f : α → Option Expr}
    (h : ∀ a, ∀ e ∈ f a, e.durations = []) : (values.filterMap f).flatMap durations = [] := by
  rw [List.flatMap_eq_nil_iff]
  intro e he
  obtain ⟨a, -, ha⟩ := List.mem_filterMap.1 he
  exact h a e ha

/-- An expression without a duration, if there is one, has none. -/
theorem durations_toList {value : Option Expr} (h : ∀ e ∈ value, e.durations = []) :
    value.toList.flatMap durations = [] := by
  cases value with
  | none => rfl
  | some e => simpa using h e rfl

/-- A list of texts has no duration. -/
@[simp]
theorem durations_strings (values : List String) : (strings values).durations = [] := by
  rw [strings, durations, durationsAll_eq, durations_map durations_string]

/-- A map of texts has no duration. -/
@[simp]
theorem durations_stringMap (entries : List (String × String)) : (stringMap entries).durations = [] := by
  rw [stringMap, durations, entryDurations_eq, List.flatMap_map]
  simp

end Expr

namespace Stmt

mutual
/-- The durations in a statement. -/
def durations : Stmt → List Duration
  | .expr value => value.durations
  | .define _ value => value.durations
  | .return value => (value.map Expr.durations).getD []
  | .if init condition body => initDurations init ++ condition.durations ++ durationsAll body
  | .go body => durationsAll body
  | .defer body => durationsAll body
  | .deferCall call => call.durations
  | .blank => []

/-- The durations in an optional statement. -/
def initDurations : Option Stmt → List Duration
  | none => []
  | some s => s.durations

/-- The durations in a list of statements. -/
def durationsAll : List Stmt → List Duration
  | [] => []
  | s :: rest => s.durations ++ durationsAll rest
end

/-- The durations in a list of statements are those of its members. -/
theorem durationsAll_eq (body : List Stmt) : durationsAll body = body.flatMap durations := by
  induction body with
  | nil => rfl
  | cons s rest ih => rw [durationsAll, ih, List.flatMap_cons]

end Stmt

/-- The durations in a function. -/
def Func.durations (f : Func) : List Duration :=
  f.body.flatMap Stmt.durations

/-- The durations in a file. -/
def File.durations (f : File) : List Duration :=
  f.funcs.flatMap Func.durations

/-! ## Durations of calls -/

namespace Calls

variable {package : Package} {name : String}

/-- A call that is made if there are arguments has the durations of these. -/
theorem durations_optional (args : Option (List Expr)) :
    (optional package name args).flatMap Expr.durations
      = (args.getD []).flatMap Expr.durations := by
  cases args <;> simp

/-- The call of a flag has no argument and so no duration. -/
@[simp]
theorem durations_flag (on : Bool) : (flag package name on).flatMap Expr.durations = [] := by
  cases on <;> simp [flag_eq]

/-- A group of arguments has the durations of these, whether or not there is a call. -/
@[simp]
theorem durations_group (args : List Expr) :
    (group package name args).flatMap Expr.durations = args.flatMap Expr.durations := by
  rw [group_eq, durations_optional]
  cases args <;> simp [nonempty]

/-- The call of a text has no duration. -/
@[simp]
theorem durations_text (value : Option String) :
    (text package name value).flatMap Expr.durations = [] := by
  rw [text_eq, durations_optional]
  cases given value <;> simp

@[simp]
theorem durations_int (value : Option Int) :
    (int package name value).flatMap Expr.durations = [] := by
  rw [int_eq, durations_optional]
  cases nonzero value <;> simp

@[simp]
theorem durations_uint (value : Option Nat) :
    (uint package name value).flatMap Expr.durations = [] := by
  rw [uint_eq, durations_optional]
  cases nonzero value <;> simp

/-- A call with a duration has this one, and a duration of zero has no call. -/
@[simp]
theorem durations_duration (value : Option Duration) :
    (duration package name value).flatMap Expr.durations = (value.filter (!·.isZero)).toList := by
  rw [duration_eq, durations_optional]
  cases value.filter (!·.isZero) <;> simp [Expr.durations]

/-- The call of a list of texts has no duration. -/
@[simp]
theorem durations_texts (values : List String) :
    (texts package name values).flatMap Expr.durations = [] := by
  simp [texts]

/-- The calls of a dictionary have no duration. -/
@[simp]
theorem durations_pairs (values : Dict String) :
    (pairs package name values).flatMap Expr.durations = [] :=
  Expr.durations_map (by simp)

/-- The calls of a dictionary with values that may be missing have no duration. -/
@[simp]
theorem durations_optionalPairs (values : Dict (Option String)) :
    (optionalPairs package name values).flatMap Expr.durations = [] :=
  Expr.durations_map (by simp)

/-- The one call of a dictionary has no duration. -/
@[simp]
theorem durations_textMap (values : Dict String) :
    (textMap package name values).flatMap Expr.durations = [] := by
  rw [textMap_eq, durations_optional]
  split <;> simp

/-- The calls of resource limits have no duration. -/
@[simp]
theorem durations_ulimits (limits : Dict Ulimit) :
    (ulimits package name limits).flatMap Expr.durations = [] :=
  Expr.durations_map (by simp)

/-- The calls of secrets have no duration. -/
@[simp]
theorem durations_secrets (values : List Secret) :
    (secrets package name values).flatMap Expr.durations = [] := by
  refine Expr.durations_map fun secret => ?_
  have hmode : (secret.mode.map fun mode =>
      Expr.packageCall package "SecretMode" [.literal (.fileMode mode)]).toList.flatMap
        Expr.durations = [] := by
    cases secret.mode <;> simp [Expr.durations_literal]
  simp [secretArgs, hmode]

end Calls
end Program

open Program

/-! ## Containers and hosts -/

/-- A duration that is not zero. -/
def lasting (value : Option Duration) : List Duration :=
  (value.filter (!·.isZero)).toList

/-- The durations that a health check gives. -/
def HealthCheck.durations (check : HealthCheck) : List Duration :=
  lasting check.interval ++ lasting check.timeout ++ lasting check.startPeriod

/-- The call of a mount has no duration, whatever is mounted. -/
theorem Mount.durations_call (mount : Mount) {e : Expr} (h : mount.call? = some e) :
    e.durations = [] := by
  simp only [Mount.call?] at h
  split at h
  · obtain ⟨source, -, rfl⟩ := Option.map_eq_some_iff.1 h
    simp
  · split at h
    · cases h
      simp
    · split at h
      · cases h
        simp [Expr.durations_literal]
      · cases h

/-- The calls of a health check have its three durations, without those that are zero. -/
theorem HealthCheck.durations_calls (check : HealthCheck) :
    check.calls.flatMap Expr.durations = check.durations := by
  simp [HealthCheck.calls, HealthCheck.durations, lasting]

namespace Service

variable (s : Service)

/-- The settings of a container have the durations of a health check that is enabled. -/
theorem durations_containerCalls :
    s.containerCalls.flatMap Expr.durations
      = ((s.healthcheck.filter (!·.disable)).map HealthCheck.durations).getD [] := by
  have hexpose : (s.expose.map exposedPort).flatMap Expr.durations = [] :=
    Expr.durations_map (by simp [exposedPort])
  have hcheck : ((s.healthcheck.filter (!·.disable)).map fun check =>
      Expr.packageCall .container "Healthcheck" check.calls).toList.flatMap Expr.durations
        = ((s.healthcheck.filter (!·.disable)).map HealthCheck.durations).getD [] := by
    cases s.healthcheck.filter (!·.disable) <;> simp [HealthCheck.durations_calls]
  simp [containerCalls, containerFields, hexpose, hcheck]

/-- The settings of a host have no duration. -/
theorem durations_hostCalls : s.hostCalls.flatMap Expr.durations = [] := by
  have hports : (s.ports.map Port.call).flatMap Expr.durations = [] :=
    Expr.durations_map (by simp [Port.call])
  have hmounts : (s.volumes.filterMap Mount.call?).flatMap Expr.durations = [] :=
    Expr.durations_filterMap fun mount _ he => mount.durations_call he
  have hrestart : ((s.restart.bind RestartPolicy.parse?).map RestartPolicy.call).toList.flatMap
      Expr.durations = [] := by
    refine Expr.durations_toList fun e he => ?_
    obtain ⟨policy, -, rfl⟩ := Option.map_eq_some_iff.1 he
    cases policy <;> simp [RestartPolicy.call]
  have hdevices : (s.devices.map Device.call).flatMap Expr.durations = [] :=
    Expr.durations_map (by simp [Device.call])
  have hlogging : (s.logging.bind Logging.call?).toList.flatMap Expr.durations = [] := by
    refine Expr.durations_toList fun e he => ?_
    obtain ⟨logging, -, hcall⟩ := Option.bind_eq_some_iff.1 he
    obtain ⟨driver, -, rfl⟩ := Option.map_eq_some_iff.1 hcall
    simp
  have hthrottle (name : String) (limits : List Throttle) :
      (Throttle.calls name limits).flatMap Expr.durations = [] :=
    Expr.durations_map (by simp)
  have hblock : ((s.blockIo.map BlockIo.fields).getD []).flatten.flatMap Expr.durations = [] := by
    cases s.blockIo with
    | none => rfl
    | some block =>
        simp only [Option.map_some, Option.getD_some, BlockIo.fields, List.flatten_cons,
          List.flatten_nil, List.flatMap_append, Calls.durations_uint, hthrottle, List.append_nil]
  simp only [hostCalls, hostFields, List.flatten_append, List.flatten_cons, List.flatten_nil,
    List.flatMap_append, Calls.durations_flag, Calls.durations_text, Calls.durations_texts,
    Calls.durations_int, Calls.durations_textMap, Calls.durations_pairs, Calls.durations_ulimits,
    hports, hmounts, hrestart, hdevices, hlogging, hblock, List.append_nil]

/-- The attachments of a service to networks have no duration. -/
theorem durations_endpointCalls : s.endpointCalls.flatMap Expr.durations = [] := by
  have hendpoint (e : Endpoint) : e.calls.flatMap Expr.durations = [] := by
    simp [Endpoint.calls, Endpoint.addressCalls]
  have hattachment (macAddress : Option String) (network : String) (endpoint : Option Endpoint) :
      (attachment macAddress network endpoint).durations = [] := by
    cases endpoint <;> simp [attachment, hendpoint]
  unfold endpointCalls
  split
  · rfl
  · rw [List.flatMap_cons, hattachment, Expr.durations_map fun _ => hattachment ..]
    rfl

/-- The platform of a service has no duration. -/
theorem durations_platformCalls : s.platformCalls.flatMap Expr.durations = [] := by
  unfold platformCalls
  split
  · rfl
  · dsimp only
    split <;> simp

end Service

/-! ## Orchestration -/

/-- The settings of an image build have no duration. -/
theorem Build.durations_calls (b : Build) : b.calls.flatMap Expr.durations = [] := by
  have hssh : (b.ssh.filterMap SshKey.call?).flatMap Expr.durations = [] := by
    refine Expr.durations_filterMap fun key e he => ?_
    simp only [SshKey.call?] at he
    split at he
    · cases he
    · cases he
      simp
  have hhosts : (b.extraHosts.sorted.flatMap fun entry => entry.2.map fun address =>
      Expr.packageCall .build "ExtraHost" [.string entry.1, .string address]).flatMap
        Expr.durations = [] := by
    simp [List.flatMap_assoc, List.flatMap_map]
  simp only [Build.calls, Build.fields, List.flatten_cons, List.flatten_nil, List.flatMap_append,
    Calls.durations_text, Calls.durations_optionalPairs, Calls.durations_texts,
    Calls.durations_flag, Calls.durations_pairs, Calls.durations_secrets, Calls.durations_ulimits,
    hssh, hhosts, List.append_nil]

/-- The durations that an update or a rollback gives. -/
def UpdatePolicy.durations (u : UpdatePolicy) : List Duration :=
  lasting (u.delay.map Duration.round) ++ lasting (u.monitor.map Duration.truncate)

/-- The durations that a deployment gives. -/
def Deploy.durations (d : Deploy) : List Duration :=
  (d.updateConfig.map UpdatePolicy.durations).getD []
    ++ (d.rollbackConfig.map UpdatePolicy.durations).getD []

/-- The settings of an update have its delay and its monitoring time in whole seconds. -/
theorem UpdatePolicy.durations_calls (u : UpdatePolicy) :
    u.calls.flatMap Expr.durations = u.durations := by
  have hratio : ((u.maxFailureRatio.filter (· > 0.0)).map fun ratio =>
      Expr.packageCall .deploy "MaxFailureRatio" [.literal (.float ratio)]).toList.flatMap
        Expr.durations = [] := by
    cases u.maxFailureRatio.filter (· > 0.0) <;> simp [Expr.durations_literal]
  simp [UpdatePolicy.calls, UpdatePolicy.durations, lasting, hratio]

theorem Resource.durations_calls (r : Resource) : r.calls.flatMap Expr.durations = [] := by
  have hdevices : (r.devices.map DeviceRequest.call).flatMap Expr.durations = [] :=
    Expr.durations_map (by simp [DeviceRequest.call])
  simp [Resource.calls, hdevices]

/-- The settings of a deployment have the durations of its update and its rollback. -/
theorem Deploy.durations_calls (d : Deploy) : d.calls.flatMap Expr.durations = d.durations := by
  have hpolicy (policy : Option UpdatePolicy) :
      ((policy.map UpdatePolicy.calls).getD []).flatMap Expr.durations
        = (policy.map UpdatePolicy.durations).getD [] := by
    cases policy <;> simp [UpdatePolicy.durations_calls]
  have hresource (resource : Option Resource) :
      ((resource.map Resource.calls).getD []).flatMap Expr.durations = [] := by
    cases resource <;> simp [Resource.durations_calls]
  simp only [Deploy.calls, Deploy.fields, Deploy.durations, List.flatten_cons, List.flatten_nil,
    List.flatMap_append, Calls.durations_uint, Calls.durations_text, Calls.durations_pairs,
    Calls.durations_group, hpolicy, hresource, List.append_nil, List.nil_append]

/-- The orchestration settings of a service have the durations of its deployment. -/
theorem Service.durations_orchestrationCalls (s : Service) :
    s.orchestrationCalls.flatMap Expr.durations = (s.deploy.map Deploy.durations).getD [] := by
  have hwatch : ((s.develop.map fun develop => develop.watch.map WatchRule.call).getD []).flatMap
      Expr.durations = [] := by
    have hrule (rule : WatchRule) : rule.call.durations = [] := by
      unfold WatchRule.call
      split <;> simp [Expr.durations_literal]
    cases s.develop with
    | none => rfl
    | some develop => exact Expr.durations_map hrule
  have hbuild : (s.build.map fun build => Expr.packageCall .service "Build" build.calls).toList.flatMap
      Expr.durations = [] := by
    cases s.build <;> simp [Build.durations_calls]
  have hdepends : (s.dependsOn.sorted.map fun entry => entry.2.call entry.1).flatMap Expr.durations
      = [] :=
    Expr.durations_map (by simp [Dependency.call])
  have henv : ((s.envFile.filter (!·.path.isEmpty)).map fun file =>
      Expr.packageCall .service "EnvFile" [.string file.path]).flatMap Expr.durations = [] :=
    Expr.durations_map (by simp)
  have hdeploy : (s.deploy.map fun deploy =>
      Expr.packageCall .service "Deploy" deploy.calls).toList.flatMap Expr.durations
        = (s.deploy.map Deploy.durations).getD [] := by
    cases s.deploy <;> simp [Deploy.durations_calls]
  simp only [orchestrationCalls, orchestrationFields, List.flatten_cons, List.flatten_nil,
    List.flatMap_append, Calls.durations_pairs, Calls.durations_flag, Calls.durations_secrets,
    Calls.durations_texts, Calls.durations_text, hwatch, hbuild, hdepends, henv, hdeploy,
    List.append_nil, List.nil_append]

/-! ## Programs -/

/-- The durations that a service gives. -/
def Service.durations (s : Service) : List Duration :=
  ((s.healthcheck.filter (!·.disable)).map HealthCheck.durations).getD []
    ++ (s.deploy.map Deploy.durations).getD []

/-- The container of a service has the durations of its health check. -/
theorem Service.durations_containerExpr (s : Service) :
    s.containerExpr.durations
      = ((s.healthcheck.filter (!·.disable)).map HealthCheck.durations).getD [] := by
  -- The chain of calls grows at its end, so the receiver is general.
  have hchain (groups : List (String × List Expr)) (chain : Expr) :
      ((groups.filter (!·.2.isEmpty)).foldl
        (fun chain group => Expr.methodCall chain group.1 [.group group.2]) chain).durations
          = chain.durations ++ groups.flatMap fun group => group.2.flatMap Expr.durations := by
    induction groups generalizing chain with
    | nil => simp
    | cons group rest ih =>
        by_cases hempty : group.2 = []
        · simp [hempty, ih]
        · simp [hempty, ih]
  rw [containerExpr, hchain]
  simp [groups, durations_containerCalls, durations_hostCalls, durations_endpointCalls,
    durations_platformCalls]

/-- What orchestrates a service has the durations of its deployment, even where there is nothing to
orchestrate. -/
theorem Service.durations_orchestrationExpr (s : Service) :
    (s.orchestrationExpr.map Expr.durations).getD [] = (s.deploy.map Deploy.durations).getD [] := by
  rw [← s.durations_orchestrationCalls, orchestrationExpr]
  split
  · simp_all
  · simp

/-- The functions of a service hold the durations that it gives. -/
theorem Service.durations_funcs (s : Service) :
    s.code.funcs.flatMap Func.durations = s.durations := by
  have horchestration := s.durations_orchestrationExpr
  rw [durations, ← s.durations_containerExpr, ← horchestration]
  simp only [ServiceCode.funcs, code]
  cases s.orchestrationExpr <;> simp [Func.durations, Stmt.durations]

theorem IpamPool.durations_calls (pool : IpamPool) : pool.calls.flatMap Expr.durations = [] := by
  simp [IpamPool.calls]

/-- The call that creates a network has no duration. -/
theorem Network.durations_creation (n : Network) (key : String) : (n.creation key).durations = [] := by
  have hipam : ((n.ipam.map Ipam.fields).getD []).flatten.flatMap Expr.durations = [] := by
    cases n.ipam with
    | none => rfl
    | some ipam =>
        have hpools : (ipam.config.map fun pool =>
            Expr.packageCall .network "IPAMPool" pool.calls).flatMap Expr.durations = [] :=
          Expr.durations_map (by simp [IpamPool.durations_calls])
        simp only [Option.map_some, Option.getD_some, Ipam.fields, List.flatten_cons,
          List.flatten_nil, List.flatMap_append, Calls.durations_text, hpools, List.append_nil]
  have hcalls : n.calls.flatMap Expr.durations = [] := by
    simp only [Network.calls, Network.fields, List.flatten_append, List.flatten_cons,
      List.flatten_nil, List.flatMap_append, Calls.durations_text, Calls.durations_pairs,
      Calls.durations_flag, hipam, List.append_nil]
  unfold creation
  split <;> simp [hcalls]

/-- The call that creates a volume has no duration. -/
theorem Volume.durations_creation (v : Volume) (key : String) : (v.creation key).durations = [] := by
  have hcalls : v.calls.flatMap Expr.durations = [] := by
    simp [Volume.calls, Volume.fields]
  unfold creation
  split <;> simp [hcalls]

namespace Project

/-- An empty line in front of statements adds no duration. -/
theorem durations_stmtSection (body : List Stmt) :
    (stmtSection body).flatMap Stmt.durations = body.flatMap Stmt.durations := by
  unfold stmtSection
  split
  · simp_all
  · simp [Stmt.durations]

/-- Statements that add something without a duration have none. -/
theorem durations_additions {α : Type} {method : String} {args : α → List Expr} {values : List α}
    (h : ∀ a ∈ values, (args a).flatMap Expr.durations = []) :
    (values.map fun a => addition method (args a)).flatMap Stmt.durations = [] := by
  rw [List.flatMap_map, List.flatMap_eq_nil_iff]
  intro a ha
  rw [addition, Stmt.durations, Expr.durations_methodCall, h a ha]
  rfl

/-- The function that builds a project holds no duration. -/
theorem durations_constructorFunc (p : Project) (name : String) (services : List ServiceCode) :
    (p.constructorFunc name services).durations = [] := by
  have hnetworks : (p.networkCreations.map fun network => addition "AddNetwork" [network]).flatMap
      Stmt.durations = [] := by
    refine durations_additions fun network hnetwork => ?_
    obtain ⟨entry, -, rfl⟩ := List.mem_map.1 hnetwork
    simp [Network.durations_creation]
  have hvolumes : (p.volumeCreations.map fun volume => addition "AddVolume" [volume]).flatMap
      Stmt.durations = [] := by
    refine durations_additions fun volume hvolume => ?_
    obtain ⟨entry, -, rfl⟩ := List.mem_map.1 hvolume
    simp [Volume.durations_creation]
  have hservices : (services.map fun service => addition "AddService" service.registration).flatMap
      Stmt.durations = [] := by
    refine durations_additions fun service _ => ?_
    unfold ServiceCode.registration
    split <;> simp [Expr.durations]
  rw [Func.durations, constructorFunc, constructorBody]
  simp only [List.cons_append, List.flatMap_cons, List.flatMap_append, durations_stmtSection,
    hnetworks, hvolumes, hservices]
  simp [Stmt.durations, Expr.durations, Expr.durationsAll]

/-- The entry point holds no duration. -/
theorem durations_entryPoint (profiles : List String) :
    (entryPoint profiles).flatMap Func.durations = [] := by
  have hlifecycle {front : List Expr} (h : front.flatMap Expr.durations = []) :
      Expr.durationsAll (lifecycleArgs profiles front) = [] := by
    have hprofiles : (profiles.map Expr.string).flatMap Expr.durations = [] :=
      Expr.durations_map Expr.durations_string
    rw [Expr.durationsAll_eq, lifecycleArgs]
    split <;> simp [h, hprofiles]
  have hdown : Expr.durationsAll (lifecycleArgs profiles [background]) = [] :=
    hlifecycle (by simp [background])
  have hup : Expr.durationsAll (lifecycleArgs profiles
      [.ident "ctx", .packageCall .gantry "WithProgress" [.qualified .os "Stdout"]]) = [] :=
    hlifecycle (by simp [Expr.durations, Expr.durationsAll])
  have hbackground : background.durations = [] := rfl
  have hfailure : Program.failure.durations = [] := rfl
  have hfailed : failed.durations = [] := rfl
  simp [entryPoint, mainFunction, runFunction, Func.durations, teardown, bringUp, ifFails,
    signalHandler, Stmt.durations, Stmt.durationsAll, Stmt.initDurations, Expr.durations,
    Expr.durationsAll, hup, hdown, hbackground, hfailure, hfailed]

/-- The program of a project holds the durations that its services give, in ascending order of
their names. -/
theorem durations_assemble {p : Project} {options : GenerateOptions} {file : File}
    (h : p.assemble options = .ok file) :
    file.durations = p.sortedServices.flatMap Service.durations := by
  have hmain : (if options.emitMain then entryPoint options.profiles else []).flatMap Func.durations
      = [] := by
    split
    · exact durations_entryPoint _
    · rfl
  have hservices : (p.serviceCodes.flatMap ServiceCode.funcs).flatMap Func.durations
      = p.sortedServices.flatMap Service.durations := by
    rw [serviceCodes, List.flatMap_map, List.flatMap_assoc]
    simp only [Service.durations_funcs]
  unfold assemble at h
  dsimp only at h
  split at h
  · cases h
  · cases h
    rw [File.durations, List.cons_append, List.flatMap_cons, durations_constructorFunc,
      List.flatMap_append, hservices, hmain, List.append_nil, List.nil_append]

end Project
end Stackwright
