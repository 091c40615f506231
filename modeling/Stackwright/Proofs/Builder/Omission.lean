import Stackwright.Proofs.Builder.Erasure

/-!
# What the code of a service leaves out

A group of settings makes no call exactly if nothing is left of its fields in the erased form of
the service.  Together this says that no field is forgotten: a service has the code of one that
is only named if it says nothing at all, apart from a hardware address, which needs a network to
apply to, and a restart policy that is not known.

Main results:

- Theorems `containerCalls_eq_nil_iff`, `hostCalls_eq_nil_iff`, `endpointCalls_eq_nil_iff`,
  `platformCalls_eq_nil_iff` and `orchestrationCalls_eq_nil_iff`: which fields a group is about.
- Theorem `Service.code_erased_and_bare_iff`: the code of a service is that of its erased form,
  and it is bare exactly if the erased form is.
-/

namespace Stackwright

open Program

namespace Service

variable {s : Service}

/-! ## Settings of a container -/

/-- A container has no settings exactly if each of its fields says nothing. -/
theorem containerCalls_eq_nil_iff : s.containerCalls = [] ↔
    given s.image = none ∧ s.expose = [] ∧ s.stopGracePeriod.filter (1 ≤ ·.seconds) = none ∧
    s.environment = {} ∧ s.command = [] ∧ s.entrypoint = [] ∧ given s.user = none ∧
    given s.workingDir = none ∧ given s.hostname = none ∧ given s.domainname = none ∧
    given s.stopSignal = none ∧ s.labels = {} ∧ s.healthcheck.filter (!·.disable) = none ∧
    s.tty = false ∧ s.stdinOpen = false := by
  have hgrace : nonzero (s.stopGracePeriod.map Duration.seconds) = none
      ↔ s.stopGracePeriod.filter (1 ≤ ·.seconds) = none := by
    simp [nonzero, Option.filter_map]
  simp only [containerCalls, containerFields, List.flatten_cons, List.flatten_nil, List.append_nil,
    List.append_eq_nil_iff, List.map_eq_nil_iff, Option.toList_eq_nil_iff, Option.map_eq_none_iff,
    Calls.text_eq_nil_iff, Calls.uint_eq_nil_iff, Calls.texts_eq_nil_iff, Calls.pairs_eq_nil_iff,
    Calls.optionalPairs_eq_nil_iff, Calls.flag_eq_nil_iff, hgrace]

/-! ## Settings of the host -/

/-- There are no entries of hosts exactly if no host has an address. -/
theorem hostEntries_eq_nil_iff : s.hostEntries = [] ↔ s.extraHosts.filter (!·.isEmpty) = {} := by
  rw [hostEntries, ← Dict.sorted_eq_nil_iff]
  simp

/-- A service without settings of its host says nothing of it, but for a restart policy that is
not known. -/
theorem hostCalls_eq_nil_iff : s.hostCalls = [] ↔
    s.ports = [] ∧ s.volumes.filter Mount.isMade = [] ∧
    (∀ policy ∈ s.restart, RestartPolicy.parse? policy = none) ∧
    s.privileged = false ∧ s.readOnly = false ∧ nonzero s.memLimit = none ∧
    nonzero s.shmSize = none ∧ s.dns = [] ∧ s.extraHosts.filter (!·.isEmpty) = {} ∧
    s.init.filter id = none ∧ given s.cgroupParent = none ∧ given s.cgroup = none ∧
    nonzero s.cpuCount = none ∧ nonzero s.cpuPercent = none ∧ nonzero s.cpuPeriod = none ∧
    nonzero s.cpuQuota = none ∧ nonzero s.cpuShares = none ∧ given s.cpuset = none ∧
    s.deviceCgroupRules = [] ∧ s.devices = [] ∧ s.dnsOpt = [] ∧ s.dnsSearch = [] ∧
    s.groupAdd = [] ∧ given s.ipc = none ∧ given s.isolation = none ∧
    s.logging.filter (fun logging => (given logging.driver).isSome) = none ∧
    nonzero s.memReservation = none ∧ nonzero s.memswapLimit = none ∧
    nonzero s.oomScoreAdj = none ∧ s.oomKillDisable = false ∧ given s.pid = none ∧
    nonzero s.pidsLimit = none ∧ given s.runtime = none ∧ s.securityOpt = [] ∧
    s.storageOpt = {} ∧ s.sysctls = {} ∧ s.ulimits = {} ∧ given s.usernsMode = none ∧
    given s.uts = none ∧ s.volumesFrom = [] ∧ given s.volumeDriver = none ∧ s.capAdd = [] ∧
    s.capDrop = [] ∧ given s.networkMode = none ∧
    (s.blockIo.map BlockIo.erased).filter (· ≠ {}) = none := by
  have hvolumes : s.volumes.filterMap Mount.call? = [] ↔ s.volumes.filter Mount.isMade = [] := by
    simp only [List.filterMap_eq_nil_iff, List.filter_eq_nil_iff, ← Mount.isSome_call?,
      Option.not_isSome_iff_eq_none]
  have hrestart : s.restart.bind RestartPolicy.parse? = none
      ↔ ∀ policy ∈ s.restart, RestartPolicy.parse? policy = none := by
    simp [Option.bind_eq_none_iff]
  have hinit : s.init.getD false = false ↔ s.init.filter id = none := by
    rcases s.init with _ | _ | _ <;> simp
  have hlogging : s.logging.bind Logging.call? = none
      ↔ s.logging.filter (fun logging => (given logging.driver).isSome) = none := by
    simp [Option.bind_eq_none_iff, Logging.call?]
  have hblock : ((s.blockIo.map BlockIo.fields).getD []).flatten = []
      ↔ (s.blockIo.map BlockIo.erased).filter (· ≠ {}) = none := by
    cases s.blockIo with
    | none => simp
    | some b => simp [Option.filter_some, ← BlockIo.flatten_fields_eq_nil_iff]
  rw [hostCalls, hostFields, List.flatten_append, List.append_eq_nil_iff, hblock]
  simp only [List.flatten_cons, List.flatten_nil, List.append_nil,
    List.append_eq_nil_iff, List.map_eq_nil_iff, Option.toList_eq_nil_iff, Option.map_eq_none_iff,
    Calls.text_eq_nil_iff, Calls.int_eq_nil_iff, Calls.texts_eq_nil_iff, Calls.pairs_eq_nil_iff,
    Calls.textMap_eq_nil_iff, Calls.ulimits_eq_nil_iff, Calls.flag_eq_nil_iff,
    hostEntries_eq_nil_iff, hvolumes, hrestart, hinit, hlogging, and_assoc]

/-! ## Attachments, platform and orchestration -/

/-- A service without attachments has no networks. -/
theorem endpointCalls_eq_nil_iff : s.endpointCalls = [] ↔ s.networks = {} := by
  rw [endpointCalls, ← Dict.sorted_eq_nil_iff]
  cases s.networks.sorted <;> simp

/-- A service without a platform has none that is given. -/
theorem platformCalls_eq_nil_iff : s.platformCalls = [] ↔ given s.platform = none := by
  simp only [platformCalls]
  split
  · simp [*]
  · split <;> simp [*]

/-- A service has no orchestration settings exactly if each of these fields says nothing. -/
theorem orchestrationCalls_eq_nil_iff : s.orchestrationCalls = [] ↔
    s.annotations = {} ∧ s.attach.filter (!·) = none ∧
    s.develop.filter (!·.watch.isEmpty) = none ∧ s.secrets = [] ∧ s.build = none ∧
    s.profiles = [] ∧ given s.pullPolicy = none ∧ s.dependsOn = {} ∧
    s.envFile.filter (!·.path.isEmpty) = [] ∧ s.deploy = none := by
  have hattach : (s.attach == some false) = false ↔ s.attach.filter (!·) = none := by
    rcases s.attach with _ | _ | _ <;> simp
  have hwatch : (s.develop.map fun develop => develop.watch.map WatchRule.call).getD [] = []
      ↔ s.develop.filter (!·.watch.isEmpty) = none := by
    cases s.develop with
    | none => simp
    | some develop => simp [Option.filter_some]
  simp only [orchestrationCalls, orchestrationFields, List.flatten_cons, List.flatten_nil,
    List.append_nil, List.append_eq_nil_iff, List.map_eq_nil_iff, Option.toList_eq_nil_iff,
    Option.map_eq_none_iff, Calls.text_eq_nil_iff, Calls.texts_eq_nil_iff, Calls.pairs_eq_nil_iff,
    Calls.flag_eq_nil_iff, Calls.secrets_eq_nil_iff, Dict.sorted_eq_nil_iff, hattach, hwatch]

/-! ## Bare services -/

/-- A chain of groups is the value that it starts from exactly if there is no group. -/
theorem foldl_methodCall_eq_iff {package : Package} {name : String} {args : List Expr}
    {groups : List (String × List Expr)} :
    groups.foldl (fun chain group => .methodCall chain group.1 [.group group.2])
        (.packageCall package name args) = Expr.packageCall package name args ↔ groups = [] := by
  rcases List.eq_nil_or_concat groups with rfl | ⟨front, last, rfl⟩ <;> simp

theorem containerExpr_eq_iff : s.containerExpr = .packageCall .gantry "NewContainer" []
    ↔ s.containerCalls = [] ∧ s.hostCalls = [] ∧ s.endpointCalls = [] ∧ s.platformCalls = [] := by
  rw [containerExpr, foldl_methodCall_eq_iff, List.filter_eq_nil_iff]
  simp [groups]

/-- Nothing orchestrates a service exactly if there are no settings for it. -/
theorem orchestrationExpr_eq_none_iff : s.orchestrationExpr = none ↔ s.orchestrationCalls = [] := by
  simp [orchestrationExpr]

/-- A service makes no call at all exactly if nothing is left of it but its name, a hardware
address and a restart policy that is not known. -/
theorem calls_eq_nil_iff :
    (s.containerCalls = [] ∧ s.hostCalls = [] ∧ s.endpointCalls = [] ∧ s.platformCalls = []) ∧
        s.orchestrationCalls = []
      ↔ (∀ policy ∈ s.restart, RestartPolicy.parse? policy = none) ∧
        s.erased = { name := s.name, macAddress := given s.macAddress, restart := s.restart } := by
  rw [containerCalls_eq_nil_iff, hostCalls_eq_nil_iff, endpointCalls_eq_nil_iff,
    platformCalls_eq_nil_iff, orchestrationCalls_eq_nil_iff, erased, Service.mk.injEq]
  simp only [Option.map_eq_none_iff, List.map_eq_nil_iff, erasedNetworks, Dict.map_eq_empty_iff,
    true_and]
  constructor
  · rintro ⟨⟨hcontainer, hhost, hnetworks, hplatform⟩, horchestration⟩
    refine ⟨hhost.2.2.1, ?_⟩
    simp only [hcontainer, hhost, hnetworks, hplatform, horchestration, and_self]
  · rintro ⟨hrestart, h⟩
    simp only [h, and_self, and_true, true_and]
    exact hrestart

/-- The code of a service does not depend on the values that say nothing, and it is the bare
container without orchestration exactly if the rest is a name, possibly with a hardware address
and a restart policy that is not known. -/
theorem code_erased_and_bare_iff (s : Service) :
    s.erased.code = s.code ∧
      (s.code.container = .packageCall .gantry "NewContainer" [] ∧ s.code.orchestration = none
        ↔ ∃ macAddress restart, (∀ policy ∈ restart, RestartPolicy.parse? policy = none) ∧
            s.erased = { name := s.name, macAddress := macAddress, restart := restart }) := by
  refine ⟨s.code_erased_eq, ?_⟩
  have hbare : s.code.container = .packageCall .gantry "NewContainer" [] ∧ s.code.orchestration = none
      ↔ (∀ policy ∈ s.restart, RestartPolicy.parse? policy = none) ∧
        s.erased = { name := s.name, macAddress := given s.macAddress, restart := s.restart } := by
    rw [← calls_eq_nil_iff]
    exact and_congr containerExpr_eq_iff orchestrationExpr_eq_none_iff
  rw [hbare]
  constructor
  · rintro ⟨hrestart, herased⟩
    exact ⟨_, _, hrestart, herased⟩
  · rintro ⟨macAddress, restart, hrestart, herased⟩
    have hmac : given s.macAddress = macAddress := congrArg Service.macAddress herased
    have hpolicy : s.restart = restart := congrArg Service.restart herased
    rw [hmac, hpolicy]
    exact ⟨hrestart, herased⟩

end Service
end Stackwright
