import Stackwright.Builder.ServiceCode
import Stackwright.Proofs.Builder.Calls

/-!
# Values that say nothing

Many values of a service say the same as no value: an empty text, the number zero, a flag at
its default, a mount that cannot be made.  The erased form of a service has none of them.
Every record is erased next to the calls that it makes, which do not change.

Main results:

- Definition `Service.erased`: the service without the values that say nothing.
- Theorems `containerCalls_erased`, `hostCalls_erased`, `endpointCalls_erased`,
  `platformCalls_erased` and `orchestrationCalls_erased`: no group of settings changes.
- Theorem `Service.code_erased_eq`: the code of a service does not change.
-/

namespace Stackwright

open Program

/-! ## Members that make nothing -/

/-- Members that a partial function leaves out may be removed before it is applied. -/
theorem filterMap_filter_isSome {α β : Type} (f : α → Option β) (l : List α) :
    (l.filter fun a => (f a).isSome).filterMap f = l.filterMap f := by
  rw [List.filterMap_filter]
  congr 1
  funext a
  cases f a <;> rfl

/-- Members that a list-valued function makes nothing of may be removed before it is applied. -/
theorem flatMap_filter_of_eq_nil {α β : Type} {keep : α → Bool} {f : α → List β}
    (h : ∀ a, keep a = false → f a = []) (l : List α) :
    (l.filter keep).flatMap f = l.flatMap f := by
  induction l with
  | nil => rfl
  | cons a rest ih =>
      cases hkeep : keep a with
      | false => rw [List.filter_cons_of_neg (by simp [hkeep]), ih, List.flatMap_cons, h a hkeep,
          List.nil_append]
      | true => rw [List.filter_cons_of_pos hkeep, List.flatMap_cons, List.flatMap_cons, ih]

/-- A host without an address makes nothing. -/
theorem flatMap_addresses_filter {β : Type} (hosts : Dict (List String)) (f : String → String → β) :
    (hosts.filter (!·.isEmpty)).sorted.flatMap (fun entry => entry.2.map (f entry.1))
      = hosts.sorted.flatMap fun entry => entry.2.map (f entry.1) := by
  rw [Dict.sorted_filter]
  exact flatMap_filter_of_eq_nil (by simp +contextual) _

/-! ## Single values -/

/-- An empty text is the same as the one that stands in for a missing text. -/
@[simp]
theorem getD_given (text : Option String) : (given text).getD "" = text.getD "" := by
  cases text with
  | none => rfl
  | some value =>
      by_cases h : value = "" <;> simp [given, Option.filter_some, h]

namespace Program.Calls

variable {package : Package} {name : String}

/-- An empty text has no call anyway. -/
@[simp]
theorem text_given (value : Option String) :
    text package name (given value) = text package name value := by
  simp only [text, given_given]

/-- The number zero has no call anyway. -/
@[simp]
theorem int_nonzero (value : Option Int) :
    int package name (nonzero value) = int package name value := by
  simp [int_eq, nonzero, Option.filter_filter]

@[simp]
theorem uint_nonzero (value : Option Nat) :
    uint package name (nonzero value) = uint package name value := by
  simp [uint_eq, nonzero, Option.filter_filter]

/-- A duration of zero has no call anyway. -/
@[simp]
theorem duration_filter (value : Option Duration) :
    duration package name (value.filter (!·.isZero)) = duration package name value := by
  simp [duration_eq, Option.filter_filter]

/-- A flag is set by what is left of a value that must be true. -/
@[simp]
theorem flag_filter_id (value : Option Bool) :
    flag package name ((value.filter id).getD false) = flag package name (value.getD false) := by
  rcases value with _ | _ | _ <;> rfl

/-- An entry with an empty text has the call of an entry without a value. -/
theorem optionalPairs_map_given (values : Dict (Option String)) :
    optionalPairs package name (values.map fun _ => given) = optionalPairs package name values := by
  simp [optionalPairs, Function.comp_def]

end Program.Calls

/-! ## Records of services and builds -/

/-- The secret without empty texts. -/
def Secret.erased (secret : Secret) : Secret :=
  { secret with
    target := given secret.target
    uid := given secret.uid
    gid := given secret.gid }

/-- The arguments of a secret are the same without its empty texts. -/
theorem Secret.args_erased (package : Package) (secret : Secret) :
    Calls.secretArgs package secret.erased = Calls.secretArgs package secret := by
  simp [Calls.secretArgs, Secret.erased]

/-- Secrets have the same calls without their empty texts. -/
theorem Program.Calls.secrets_map_erased (package : Package) (name : String) (values : List Secret) :
    Calls.secrets package name (values.map Secret.erased) = Calls.secrets package name values := by
  simp [Calls.secrets, Secret.args_erased, Function.comp_def]

/-- The build without empty texts, keys without an id and hosts without an address. -/
def Build.erased (b : Build) : Build :=
  { b with
    context := given b.context
    dockerfile := given b.dockerfile
    dockerfileInline := given b.dockerfileInline
    target := given b.target
    args := b.args.map fun _ => given
    ssh := b.ssh.filter (!·.resolve.1.isEmpty)
    network := given b.network
    isolation := given b.isolation
    secrets := b.secrets.map Secret.erased
    extraHosts := b.extraHosts.filter (!·.isEmpty) }

/-- A key makes a call exactly if it has an id. -/
theorem SshKey.isSome_call? (key : SshKey) : key.call?.isSome = !key.resolve.1.isEmpty := by
  simp only [SshKey.call?]
  split <;> simp [*]

/-- An image build makes the same calls without the values that say nothing. -/
theorem Build.fields_erased (b : Build) : b.erased.fields = b.fields := by
  have hssh : (b.ssh.filter (!·.resolve.1.isEmpty)).filterMap SshKey.call?
      = b.ssh.filterMap SshKey.call? := by
    simp only [← SshKey.isSome_call?]
    exact filterMap_filter_isSome _ _
  have hhosts := flatMap_addresses_filter b.extraHosts fun host address =>
    Expr.packageCall .build "ExtraHost" [.string host, .string address]
  simp only [Build.fields, Build.erased, Calls.text_given, Calls.optionalPairs_map_given,
    Calls.secrets_map_erased, hssh, hhosts]

/-! ## Records of deployments -/

/-- The policy without empty texts, zeros and what rounds to zero. -/
def UpdatePolicy.erased (u : UpdatePolicy) : UpdatePolicy where
  parallelism := nonzero u.parallelism
  delay := u.delay.filter (!·.round.isZero)
  failureAction := given u.failureAction
  monitor := u.monitor.filter (1 ≤ ·.seconds)
  maxFailureRatio := u.maxFailureRatio.filter (· > 0.0)
  order := given u.order

/-- The request without an empty driver and a count of zero. -/
def DeviceRequest.erased (d : DeviceRequest) : DeviceRequest :=
  { d with
    driver := given d.driver
    count := nonzero d.count }

/-- The resource without a share of processors that is not positive, a memory of zero and what
its requests say nothing with. -/
def Resource.erased (r : Resource) : Resource where
  cpus := r.cpus.filter (· > 0.0)
  memory := nonzero r.memory
  devices := r.devices.map DeviceRequest.erased

/-- The constraints without a side that makes no call. -/
def Resources.erased (r : Resources) : Resources where
  limits := (r.limits.filter (!·.calls.isEmpty)).map Resource.erased
  reservations := (r.reservations.filter (!·.calls.isEmpty)).map Resource.erased

/-- The deployment without empty texts, zeros and groups that make no call. -/
def Deploy.erased (d : Deploy) : Deploy where
  mode := given d.mode
  replicas := nonzero d.replicas
  labels := d.labels
  updateConfig := (d.updateConfig.filter (!·.calls.isEmpty)).map UpdatePolicy.erased
  rollbackConfig := (d.rollbackConfig.filter (!·.calls.isEmpty)).map UpdatePolicy.erased
  resources := d.resources.map Resources.erased

/-- A monitoring time is left if there is a whole second in it. -/
theorem Duration.isZero_truncate (d : Duration) : (!d.truncate.isZero) = decide (1 ≤ d.seconds) := by
  rw [Bool.eq_iff_iff]
  simp [Duration.truncate, Duration.isZero, Duration.ofSeconds, Duration.perSecond]
  omega

/-- An update makes the same calls without the values that say nothing, and without the durations
that are rounded to zero. -/
theorem UpdatePolicy.calls_erased (u : UpdatePolicy) : u.erased.calls = u.calls := by
  have hdelay : Calls.duration .deploy "Delay" ((u.delay.filter (!·.round.isZero)).map Duration.round)
      = Calls.duration .deploy "Delay" (u.delay.map Duration.round) := by
    rw [← Calls.duration_filter (u.delay.map Duration.round), Option.filter_map]
    rfl
  have hmonitor :
      Calls.duration .deploy "Monitor" ((u.monitor.filter (1 ≤ ·.seconds)).map Duration.truncate)
        = Calls.duration .deploy "Monitor" (u.monitor.map Duration.truncate) := by
    rw [← Calls.duration_filter (u.monitor.map Duration.truncate), Option.filter_map]
    simp only [Function.comp_def, Duration.isZero_truncate]
  simp only [UpdatePolicy.calls, UpdatePolicy.erased, Calls.uint_nonzero, Calls.text_given, hdelay,
    hmonitor, Option.filter_filter, Bool.and_self]

theorem DeviceRequest.call_erased (d : DeviceRequest) : d.erased.call = d.call := by
  simp only [DeviceRequest.call, DeviceRequest.erased, Calls.text_given, Calls.int_nonzero]

/-- One side of the resource constraints makes the same calls without the values that say nothing.
-/
theorem Resource.calls_erased (r : Resource) : r.erased.calls = r.calls := by
  simp only [Resource.calls, Resource.erased, Resource.nanoCpus, Calls.int_nonzero, List.map_map,
    Function.comp_def, DeviceRequest.call_erased, Option.filter_filter, Bool.and_self]

/-- A group that makes no call may be removed. -/
theorem getD_map_erased {α : Type} {calls : α → List Expr} {erased : α → α}
    (h : ∀ a, calls (erased a) = calls a) (value : Option α) :
    (((value.filter fun a => !(calls a).isEmpty).map erased).map calls).getD []
      = (value.map calls).getD [] := by
  cases value with
  | none => rfl
  | some a => cases hcalls : calls a <;> simp [Option.filter_some, h, hcalls]

/-- A deployment makes the same calls without the values that say nothing and without the groups
that have no member left. -/
theorem Deploy.fields_erased (d : Deploy) : d.erased.fields = d.fields := by
  have hpolicy := getD_map_erased UpdatePolicy.calls_erased
  have hresource := getD_map_erased Resource.calls_erased
  have hlimits : (((d.resources.map Resources.erased).bind (·.limits)).map Resource.calls).getD []
      = ((d.resources.bind (·.limits)).map Resource.calls).getD [] := by
    cases d.resources with
    | none => rfl
    | some r => exact hresource r.limits
  have hreservations :
      (((d.resources.map Resources.erased).bind (·.reservations)).map Resource.calls).getD []
        = ((d.resources.bind (·.reservations)).map Resource.calls).getD [] := by
    cases d.resources with
    | none => rfl
    | some r => exact hresource r.reservations
  simp only [Deploy.fields, Deploy.erased, Calls.uint_nonzero, Calls.text_given, hpolicy, hlimits,
    hreservations]

/-! ## Records of containers and hosts -/

/-- The health check without zeros. -/
def HealthCheck.erased (check : HealthCheck) : HealthCheck :=
  { check with
    interval := check.interval.filter (!·.isZero)
    timeout := check.timeout.filter (!·.isZero)
    startPeriod := check.startPeriod.filter (!·.isZero)
    retries := nonzero check.retries }

/-- The port without empty texts. -/
def Port.erased (p : Port) : Port :=
  { p with
    published := given p.published
    protocol := given p.protocol
    hostIp := given p.hostIp }

/-- The options of a mount in memory without a size of zero. -/
def Tmpfs.erased (t : Tmpfs) : Tmpfs :=
  { t with size := nonzero t.size }

/-- The mount without empty texts and with its options erased. -/
def Mount.erased (m : Mount) : Mount :=
  { m with
    kind := given m.kind
    source := given m.source
    tmpfs := m.tmpfs.map Tmpfs.erased }

/-- Whether a mount can be made: it has a known type, and a host path if that is what it mounts. -/
def Mount.isMade (m : Mount) : Bool :=
  m.type = "volume" || m.type = "tmpfs" || (m.type = "bind" && (given m.source).isSome)

/-- The device without empty permissions. -/
def Device.erased (d : Device) : Device :=
  { d with permissions := given d.permissions }

/-- The limits on block devices without a weight of zero. -/
def BlockIo.erased (b : BlockIo) : BlockIo :=
  { b with weight := nonzero b.weight }

/-- The settings of an attachment without empty texts. -/
def Endpoint.erased (e : Endpoint) : Endpoint :=
  { e with
    ipv4Address := given e.ipv4Address
    ipv6Address := given e.ipv6Address
    macAddress := given e.macAddress }

/-- The rule without an empty target. -/
def WatchRule.erased (r : WatchRule) : WatchRule :=
  { r with target := given r.target }

/-- A health check that is disabled stays so. -/
@[simp]
theorem HealthCheck.disable_erased (check : HealthCheck) : check.erased.disable = check.disable :=
  rfl

/-- A health check makes the same calls without the durations that are zero. -/
theorem HealthCheck.calls_erased (check : HealthCheck) : check.erased.calls = check.calls := by
  simp only [HealthCheck.calls, HealthCheck.erased, Calls.duration_filter, Calls.uint_nonzero]

/-- A port is bound in the same way without its empty texts. -/
theorem Port.call_erased (p : Port) : p.erased.call = p.call := by
  simp only [Port.call, Port.erased, given_given]

/-- A size of zero is the same as no size. -/
theorem Tmpfs.getD_size_erased (value : Option Tmpfs) :
    ((value.map Tmpfs.erased).bind (·.size)).getD 0 = (value.bind (·.size)).getD 0 := by
  rcases value with _ | ⟨_ | size, mode⟩
  · rfl
  · rfl
  · by_cases h : size = 0 <;> simp [Tmpfs.erased, nonzero, Option.filter_some, h]

/-- A mount makes the same call without its empty texts. -/
theorem Mount.call?_erased (m : Mount) : m.erased.call? = m.call? := by
  have hmode : (m.tmpfs.map Tmpfs.erased).bind (·.mode) = m.tmpfs.bind (·.mode) := by
    cases m.tmpfs <;> rfl
  simp only [Mount.call?, Mount.type, Mount.erased, given_given, Tmpfs.getD_size_erased, hmode]
  rfl

/-- The mounts that are made are those with a call. -/
theorem Mount.isSome_call? (m : Mount) : m.call?.isSome = m.isMade := by
  simp only [Mount.call?, Mount.isMade]
  split
  · simp [*]
  · split
    · simp [*]
    · split <;> simp [*]

/-- A device makes the same call without the values that say nothing. -/
theorem Device.call_erased (d : Device) : d.erased.call = d.call := by
  simp only [Device.call, Device.erased, given_given]
  rfl

/-- An endpoint makes the same calls without its empty texts. -/
theorem Endpoint.calls_erased (e : Endpoint) : e.erased.calls = e.calls := by
  simp only [Endpoint.calls, Endpoint.addressCalls, Endpoint.erased, Calls.text_given]

theorem WatchRule.call_erased (r : WatchRule) : r.erased.call = r.call := by
  simp only [WatchRule.call, WatchRule.erased, getD_given]
  rfl

/-- Limits on block devices make the same calls without a weight of zero. -/
theorem BlockIo.fields_erased (b : BlockIo) : b.erased.fields = b.fields := by
  simp only [BlockIo.fields, BlockIo.erased, Calls.uint_nonzero]

/-- Limits on block devices make no call exactly if nothing is left of them. -/
theorem BlockIo.flatten_fields_eq_nil_iff (b : BlockIo) : b.fields.flatten = [] ↔ b.erased = {} := by
  simp [BlockIo.fields, BlockIo.erased, Throttle.calls, Calls.uint_eq, nonzero, BlockIo.mk.injEq]

/-! ## Services -/

/-- The attachments without empty texts in their settings; whether the first has settings at all
stays, for it decides on the hardware address. -/
def erasedNetworks (networks : Dict (Option Endpoint)) : Dict (Option Endpoint) :=
  networks.map fun _ endpoint => endpoint.map Endpoint.erased

/-- The service without the values that say nothing.  A restart policy, a file mode and the bounds
of a resource limit say something whatever they are. -/
def Service.erased (s : Service) : Service :=
  { s with
    image := given s.image
    stopGracePeriod := s.stopGracePeriod.filter (1 ≤ ·.seconds)
    environment := s.environment.map fun _ => given
    user := given s.user
    workingDir := given s.workingDir
    hostname := given s.hostname
    domainname := given s.domainname
    stopSignal := given s.stopSignal
    healthcheck := (s.healthcheck.filter (!·.disable)).map HealthCheck.erased
    ports := s.ports.map Port.erased
    volumes := (s.volumes.filter Mount.isMade).map Mount.erased
    memLimit := nonzero s.memLimit
    shmSize := nonzero s.shmSize
    extraHosts := s.extraHosts.filter (!·.isEmpty)
    init := s.init.filter id
    cgroupParent := given s.cgroupParent
    cgroup := given s.cgroup
    cpuCount := nonzero s.cpuCount
    cpuPercent := nonzero s.cpuPercent
    cpuPeriod := nonzero s.cpuPeriod
    cpuQuota := nonzero s.cpuQuota
    cpuShares := nonzero s.cpuShares
    cpuset := given s.cpuset
    devices := s.devices.map Device.erased
    ipc := given s.ipc
    isolation := given s.isolation
    logging := s.logging.filter fun logging => (given logging.driver).isSome
    memReservation := nonzero s.memReservation
    memswapLimit := nonzero s.memswapLimit
    oomScoreAdj := nonzero s.oomScoreAdj
    pid := given s.pid
    pidsLimit := nonzero s.pidsLimit
    runtime := given s.runtime
    usernsMode := given s.usernsMode
    uts := given s.uts
    volumeDriver := given s.volumeDriver
    networkMode := given s.networkMode
    blockIo := (s.blockIo.map BlockIo.erased).filter (· ≠ {})
    networks := erasedNetworks s.networks
    macAddress := given s.macAddress
    platform := given s.platform
    attach := s.attach.filter (!·)
    develop := (s.develop.filter (!·.watch.isEmpty)).map fun develop =>
      { watch := develop.watch.map WatchRule.erased }
    secrets := s.secrets.map Secret.erased
    build := s.build.map Build.erased
    pullPolicy := given s.pullPolicy
    envFile := s.envFile.filter (!·.path.isEmpty)
    deploy := s.deploy.map Deploy.erased }

namespace Service

variable (s : Service)

/-- The settings of a container are the same without the values that say nothing. -/
theorem containerFields_erased : s.erased.containerFields = s.containerFields := by
  have hgrace : Calls.uint .container "StopTimeout"
        ((s.stopGracePeriod.filter (1 ≤ ·.seconds)).map Duration.seconds)
      = Calls.uint .container "StopTimeout" (s.stopGracePeriod.map Duration.seconds) := by
    rw [← Calls.uint_nonzero (s.stopGracePeriod.map Duration.seconds), nonzero, Option.filter_map]
    congr 3
    funext d
    simp [Nat.one_le_iff_ne_zero]
  have hcheck : (((s.healthcheck.filter (!·.disable)).map HealthCheck.erased).filter (!·.disable)).map
        (fun check => Expr.packageCall .container "Healthcheck" check.calls)
      = (s.healthcheck.filter (!·.disable)).map
        fun check => Expr.packageCall .container "Healthcheck" check.calls := by
    cases s.healthcheck with
    | none => rfl
    | some check =>
        cases hdisable : check.disable <;>
          simp [Option.filter_some, HealthCheck.calls_erased, hdisable]
  simp only [containerFields, erased, Calls.text_given, Calls.optionalPairs_map_given, hgrace, hcheck]

theorem hostEntries_erased : s.erased.hostEntries = s.hostEntries :=
  flatMap_addresses_filter s.extraHosts fun host address => host ++ ":" ++ address

/-- The settings of a host are the same without the values that say nothing. -/
theorem hostCalls_erased : s.erased.hostCalls = s.hostCalls := by
  have hports : (s.ports.map Port.erased).map Port.call = s.ports.map Port.call := by
    simp [Port.call_erased]
  have hvolumes : ((s.volumes.filter Mount.isMade).map Mount.erased).filterMap Mount.call?
      = s.volumes.filterMap Mount.call? := by
    simp only [List.filterMap_map, Function.comp_def, Mount.call?_erased]
    simp only [← funext Mount.isSome_call?]
    exact filterMap_filter_isSome _ _
  have hdevices : (s.devices.map Device.erased).map Device.call = s.devices.map Device.call := by
    simp [Device.call_erased]
  have hlogging :
      ((s.logging.filter fun logging => (given logging.driver).isSome).bind Logging.call?).toList
        = (s.logging.bind Logging.call?).toList := by
    cases s.logging with
    | none => rfl
    | some logging =>
        cases hdriver : given logging.driver <;> simp [Option.filter_some, Logging.call?, hdriver]
  have hblock :
      ((((s.blockIo.map BlockIo.erased).filter (· ≠ {})).map BlockIo.fields).getD []).flatten
        = ((s.blockIo.map BlockIo.fields).getD []).flatten := by
    cases s.blockIo with
    | none => rfl
    | some b =>
        by_cases hb : b.erased = {}
        · simp [Option.filter_some, hb, b.flatten_fields_eq_nil_iff.2 hb]
        · simp [Option.filter_some, hb, BlockIo.fields_erased]
  have hentries := s.hostEntries_erased
  simp only [erased] at hentries
  simp only [hostCalls, hostFields, List.flatten_append, erased, Calls.text_given, Calls.int_nonzero,
    Calls.flag_filter_id, hports, hvolumes, hdevices, hlogging, hblock, hentries]

/-- A network is attached in the same way without the empty texts of its endpoint. -/
theorem attachment_erased (macAddress : Option String) (network : String)
    (endpoint : Option Endpoint) :
    attachment (given macAddress) network (endpoint.map Endpoint.erased)
      = attachment macAddress network endpoint := by
  cases endpoint <;> simp [attachment, Endpoint.calls_erased]

/-- A service is attached to the same networks in the same way. -/
theorem endpointCalls_erased : s.erased.endpointCalls = s.endpointCalls := by
  simp only [endpointCalls, erased, erasedNetworks, Dict.sorted_map]
  cases s.networks.sorted with
  | nil => rfl
  | cons first rest =>
      have hrest (network : String) (endpoint : Option Endpoint) :=
        attachment_erased none network endpoint
      simp_all [attachment_erased]

/-- An empty platform is the same as none. -/
theorem platformCalls_erased : s.erased.platformCalls = s.platformCalls := by
  simp only [platformCalls, erased, given_given]

/-- The orchestration settings are the same without the values that say nothing. -/
theorem orchestrationFields_erased : s.erased.orchestrationFields = s.orchestrationFields := by
  have hattach : (s.attach.filter (!·) == some false) = (s.attach == some false) := by
    rcases s.attach with _ | _ | _ <;> rfl
  have hwatch :
      (((s.develop.filter (!·.watch.isEmpty)).map fun develop =>
          ({ watch := develop.watch.map WatchRule.erased } : Develop)).map
        fun develop => develop.watch.map WatchRule.call).getD []
        = (s.develop.map fun develop => develop.watch.map WatchRule.call).getD [] := by
    cases s.develop with
    | none => rfl
    | some develop =>
        cases hwatch : develop.watch <;>
          simp [Option.filter_some, WatchRule.call_erased, hwatch]
  have hbuild : (s.build.map Build.erased).map
        (fun build => Expr.packageCall .service "Build" build.calls)
      = s.build.map fun build => Expr.packageCall .service "Build" build.calls := by
    simp only [Option.map_map, Function.comp_def, Build.calls, Build.fields_erased]
  have hdeploy : (s.deploy.map Deploy.erased).map
        (fun deploy => Expr.packageCall .service "Deploy" deploy.calls)
      = s.deploy.map fun deploy => Expr.packageCall .service "Deploy" deploy.calls := by
    simp only [Option.map_map, Function.comp_def, Deploy.calls, Deploy.fields_erased]
  simp only [orchestrationFields, erased, hattach, hwatch, hbuild, hdeploy, Calls.secrets_map_erased,
    Calls.text_given, List.filter_filter, Bool.and_self]

/-- The code of a service does not change when the values that say nothing are removed. -/
theorem code_erased_eq : s.erased.code = s.code := by
  have hname : s.erased.name = s.name := rfl
  simp only [code, containerExpr, groups, orchestrationExpr, containerCalls, orchestrationCalls,
    hname, containerFields_erased, hostCalls_erased, endpointCalls_erased, platformCalls_erased,
    orchestrationFields_erased]
  rfl

end Service
end Stackwright
