import Stackwright.Proofs.Builder.Registry
import Stackwright.Proofs.Builder.Slots

/-!
# The order of calls

Every group of settings has one layout.  It is a constant, so the calls stand in the same order
whatever is set; ways to write one field, such as the restart policies, share a slot in it.

Main results:

- Theorems `Service.container_inOrder`, `Service.host_inOrder`, `Service.orchestration_inOrder`,
  `Build.inOrder`, `Deploy.inOrder`, `Network.inOrder` and `Volume.inOrder`: the calls of a group
  follow its layout.
- Theorem `Service.exists_links`: the chain of a container takes its groups in a fixed order.
- Theorem `calls_follow_layouts`: all calls follow the layouts.
-/

namespace Stackwright

open Program

/-- A partial function makes at most one member of a single one. -/
theorem filterMap_singleton {α β : Type} (f : α → Option β) (a : α) :
    [a].filterMap f = (f a).toList := by
  cases h : f a <;> simp [h]

/-! ## Containers -/

/-- The slots of the calls of a health check. -/
def HealthCheck.layout : List (Slot HealthCheck) :=
  [ .gathered ["Test"] (·.test),
    .once ["Interval"],
    .once ["Timeout"],
    .once ["StartPeriod"],
    .once ["Retries"] ]

theorem HealthCheck.inOrder : InOrder .healthcheck HealthCheck.calls HealthCheck.layout := by
  refine ⟨by decide, fun check => ⟨_, ?_, rfl⟩⟩
  exact .cons fits_texts <| .cons fits_duration <| .cons fits_duration <| .cons fits_duration <|
    .cons fits_uint .nil

/-- The slots of the calls for the settings of a container. -/
def Service.containerLayout : List (Slot Service) :=
  [ .once ["Image"],
    .each ["ExposedPort"] (·.expose) fun token => { expose := [token] },
    .once ["StopTimeout"],
    .keyed ["Env"] (·.environment.keys),
    .gathered ["Cmd"] (·.command),
    .gathered ["Entrypoint"] (·.entrypoint),
    .once ["User"],
    .once ["WorkingDir"],
    .once ["Hostname"],
    .once ["Domainname"],
    .once ["StopSignal"],
    .keyed ["Label"] (·.labels.keys),
    .once ["Healthcheck"],
    .once ["Tty"],
    .once ["OpenStdin"] ]

/-- The calls of a container stand in the order of its layout. -/
theorem Service.container_inOrder :
    InOrder .container Service.containerCalls Service.containerLayout := by
  refine ⟨by decide, fun s => ⟨s.containerFields, ?_, rfl⟩⟩
  have hexpose (token : String) :
      ({ expose := [token] } : Service).containerCalls = [exposedPort token] := rfl
  exact .cons fits_text <| .cons (fits_map hexpose (by simp [exposedPort])) <| .cons fits_uint <|
    .cons fits_optionalPairs <| .cons fits_texts <| .cons fits_texts <| .cons fits_text <|
    .cons fits_text <| .cons fits_text <| .cons fits_text <| .cons fits_text <|
    .cons fits_pairs <| .cons fits_map_toList <| .cons fits_flag <| .cons fits_flag .nil

/-! ## Hosts -/

/-- The names of the calls for a mount. -/
def Mount.callNames : List String :=
  ["BindMount", "BindMountReadOnly", "VolumeMount", "VolumeMountReadOnly", "TmpfsMount"]

/-- The call of a mount, if there is one, has one of the five names. -/
theorem Mount.call?_name {mount : Mount} {e : Expr} (h : mount.call? = some e) :
    ∃ name ∈ Mount.callNames, ∃ args, e = .packageCall .host name args := by
  simp only [Mount.call?] at h
  split at h
  · obtain ⟨source, -, rfl⟩ := Option.map_eq_some_iff.1 h
    exact ⟨_, by split <;> decide, _, rfl⟩
  · split at h
    · cases h
      exact ⟨_, by split <;> decide, _, rfl⟩
    · split at h
      · cases h
        exact ⟨_, by decide, _, rfl⟩
      · cases h

/-- The names of the calls for a restart policy. -/
def RestartPolicy.callNames : List String :=
  ["RestartAlways", "RestartUnlessStopped", "RestartOnFailure", "RestartNever"]

/-- The call of a restart policy has one of the four names. -/
theorem RestartPolicy.call_name (policy : RestartPolicy) :
    ∃ name ∈ RestartPolicy.callNames, ∃ args, policy.call = .packageCall .host name args := by
  cases policy <;> exact ⟨_, by decide, _, rfl⟩

/-- The rate limits of one kind; there are none without limits on block devices. -/
def Service.throttles (s : Service) (kind : BlockIo → List Throttle) : List Throttle :=
  kind (s.blockIo.getD {})

/-- The slots of the calls for the settings of a host. -/
def Service.hostLayout : List (Slot Service) :=
  [ .each ["PortBinding"] (·.ports) fun port => { ports := [port] },
    .each Mount.callNames (·.volumes) fun mount => { volumes := [mount] },
    .once RestartPolicy.callNames,
    .once ["Privileged"],
    .once ["ReadonlyRootfs"],
    .once ["Memory"],
    .once ["ShmSize"],
    .gathered ["DNS"] (·.dns),
    .gathered ["ExtraHosts"] Service.hostEntries,
    .once ["Init"],
    .once ["CgroupParent"],
    .once ["Cgroup"],
    .once ["CPUCount"],
    .once ["CPUPercent"],
    .once ["CPUPeriod"],
    .once ["CPUQuota"],
    .once ["CPUShares"],
    .once ["CpusetCpus"],
    .gathered ["DeviceCgroupRules"] (·.deviceCgroupRules),
    .each ["Device"] (·.devices) fun device => { devices := [device] },
    .gathered ["DNSOptions"] (·.dnsOpt),
    .gathered ["DNSSearch"] (·.dnsSearch),
    .gathered ["GroupAdd"] (·.groupAdd),
    .once ["IpcMode"],
    .once ["Isolation"],
    .once ["LogConfig"],
    .once ["MemoryReservation"],
    .once ["MemorySwap"],
    .once ["OomScoreAdj"],
    .once ["OomKillDisable"],
    .once ["PidMode"],
    .once ["PidsLimit"],
    .once ["Runtime"],
    .gathered ["SecurityOpt"] (·.securityOpt),
    .once ["StorageOpt"],
    .keyed ["Sysctl"] (·.sysctls.keys),
    .keyed ["Ulimit"] (·.ulimits.keys),
    .once ["UsernsMode"],
    .once ["UTSMode"],
    .gathered ["VolumesFrom"] (·.volumesFrom),
    .once ["VolumeDriver"],
    .gathered ["CapAdd"] (·.capAdd),
    .gathered ["CapDrop"] (·.capDrop),
    .once ["NetworkMode"],
    .once ["BlkioWeight"],
    .each ["BlkioDeviceReadBps"] (·.throttles BlockIo.readBps) fun limit =>
      { blockIo := some { readBps := [limit] } },
    .each ["BlkioDeviceWriteBps"] (·.throttles BlockIo.writeBps) fun limit =>
      { blockIo := some { writeBps := [limit] } },
    .each ["BlkioDeviceReadIOps"] (·.throttles BlockIo.readIops) fun limit =>
      { blockIo := some { readIops := [limit] } },
    .each ["BlkioDeviceWriteIOps"] (·.throttles BlockIo.writeIops) fun limit =>
      { blockIo := some { writeIops := [limit] } } ]

/-- The calls of a host do not change when limits on block devices that say nothing are added. -/
theorem Service.hostCalls_getD_blockIo (s : Service) :
    ({ s with blockIo := some (s.blockIo.getD {}) } : Service).hostCalls = s.hostCalls := by
  have hblock : (BlockIo.fields (s.blockIo.getD {})).flatten
      = ((s.blockIo.map BlockIo.fields).getD []).flatten := by
    cases s.blockIo <;> rfl
  simp only [hostCalls, hostFields, List.flatten_append, Option.map_some, Option.getD_some, hblock]
  rfl

/-- The calls of a host stand in the order of its layout, those of block devices at the end. -/
theorem Service.host_inOrder : InOrder .host Service.hostCalls Service.hostLayout := by
  refine ⟨by decide, fun s => ⟨_, ?_, s.hostCalls_getD_blockIo.symm⟩⟩
  have hport (port : Port) : ({ ports := [port] } : Service).hostCalls = [port.call] := rfl
  have hmount (mount : Mount) :
      ({ volumes := [mount] } : Service).hostCalls = mount.call?.toList := by
    have hone : ({ volumes := [mount] } : Service).hostCalls = [mount].filterMap Mount.call? ++ [] :=
      rfl
    rw [hone, List.append_nil, filterMap_singleton]
  have hrestart : ∀ e ∈ (s.restart.bind RestartPolicy.parse?).map RestartPolicy.call,
      ∃ name ∈ RestartPolicy.callNames, ∃ args, e = .packageCall .host name args := by
    intro e he
    obtain ⟨policy, -, rfl⟩ := Option.map_eq_some_iff.1 he
    exact policy.call_name
  have hdevice (device : Device) : ({ devices := [device] } : Service).hostCalls = [device.call] := rfl
  have hlogging : ∀ e ∈ s.logging.bind Logging.call?,
      ∃ name ∈ ["LogConfig"], ∃ args, e = .packageCall .host name args := by
    intro e he
    obtain ⟨logging, -, hcall⟩ := Option.bind_eq_some_iff.1 he
    obtain ⟨driver, -, rfl⟩ := Option.map_eq_some_iff.1 hcall
    exact ⟨_, List.mem_cons_self, _, rfl⟩
  exact .cons (fits_map hport (by simp [Port.call])) <|
    .cons (fits_filterMap hmount fun _ _ h => Mount.call?_name h) <| .cons (fits_toList hrestart) <|
    .cons fits_flag <| .cons fits_flag <| .cons fits_int <|
    .cons fits_int <| .cons fits_texts <| .cons fits_texts <| .cons fits_flag <|
    .cons fits_text <| .cons fits_text <| .cons fits_int <| .cons fits_int <| .cons fits_int <|
    .cons fits_int <| .cons fits_int <| .cons fits_text <| .cons fits_texts <|
    .cons (fits_map hdevice (by simp [Device.call])) <| .cons fits_texts <| .cons fits_texts <|
    .cons fits_texts <| .cons fits_text <| .cons fits_text <| .cons (fits_toList hlogging) <|
    .cons fits_int <| .cons fits_int <| .cons fits_int <| .cons fits_flag <| .cons fits_text <|
    .cons fits_int <| .cons fits_text <| .cons fits_texts <| .cons fits_textMap <|
    .cons fits_pairs <| .cons fits_ulimits <| .cons fits_text <| .cons fits_text <|
    .cons fits_texts <| .cons fits_text <| .cons fits_texts <| .cons fits_texts <|
    .cons fits_text <| .cons fits_uint <|
    .cons (fits_map (fun _ => rfl) (by simp)) <| .cons (fits_map (fun _ => rfl) (by simp)) <|
    .cons (fits_map (fun _ => rfl) (by simp)) <| .cons (fits_map (fun _ => rfl) (by simp)) .nil

/-! ## Image builds -/

/-- The slots of the calls of an image build. -/
def Build.layout : List (Slot Build) :=
  [ .once ["Context"],
    .once ["Dockerfile"],
    .once ["DockerfileInline"],
    .once ["Target"],
    .keyed ["Arg"] (·.args.keys),
    .gathered ["CacheFrom"] (·.cacheFrom),
    .gathered ["CacheTo"] (·.cacheTo),
    .once ["NoCache"],
    .each ["SSH"] (·.ssh) fun key => { ssh := [key] },
    .keyed ["Label"] (·.labels.keys),
    .once ["Network"],
    .once ["Isolation"],
    .once ["Pull"],
    .each ["Secret"] (·.secrets) fun secret => { secrets := [secret] },
    .gathered ["Tags"] (·.tags),
    .keyed ["Ulimit"] (·.ulimits.keys),
    .gathered ["Platforms"] (·.platforms),
    .once ["Privileged"],
    .keyedLists ["ExtraHost"] (·.extraHosts) fun member =>
      { extraHosts := ({} : Dict (List String)).insert member.1 [member.2] },
    .keyed ["AdditionalContext"] (·.additionalContexts.keys) ]

/-- The calls of an image build stand in the order of its layout. -/
theorem Build.inOrder : InOrder .build Build.calls Build.layout := by
  refine ⟨by decide, fun b => ⟨b.fields, ?_, rfl⟩⟩
  have hssh (key : SshKey) : ({ ssh := [key] } : Build).calls = key.call?.toList := by
    have hone : ({ ssh := [key] } : Build).calls = [key].filterMap SshKey.call? ++ [] := rfl
    rw [hone, List.append_nil, filterMap_singleton]
  have hhosts : b.extraHosts.members.map
        (fun member => Expr.packageCall .build "ExtraHost" [.string member.1, .string member.2])
      = b.extraHosts.sorted.flatMap fun entry => entry.2.map fun address =>
          Expr.packageCall .build "ExtraHost" [.string entry.1, .string address] := by
    simp [Dict.members, List.map_flatMap, Function.comp_def]
  have hkey (key : SshKey) : ∀ e ∈ key.call?,
      ∃ name ∈ ["SSH"], ∃ args, e = .packageCall .build name args := by
    intro e he
    simp only [SshKey.call?] at he
    split at he
    · cases he
    · cases he
      exact ⟨_, List.mem_cons_self, _, rfl⟩
  exact .cons fits_text <| .cons fits_text <| .cons fits_text <| .cons fits_text <|
    .cons fits_optionalPairs <| .cons fits_texts <| .cons fits_texts <| .cons fits_flag <|
    .cons (fits_filterMap hssh hkey) <| .cons fits_pairs <| .cons fits_text <| .cons fits_text <|
    .cons fits_flag <| .cons (fits_map (fun _ => rfl) (by simp)) <| .cons fits_texts <|
    .cons fits_ulimits <| .cons fits_texts <| .cons fits_flag <|
    .cons (hhosts ▸ fits_members fun _ => rfl) <| .cons fits_pairs .nil

/-! ## Deployments -/

/-- The slots of the calls of an update or a rollback. -/
def UpdatePolicy.layout : List (Slot UpdatePolicy) :=
  [ .once ["Parallelism"],
    .once ["Delay"],
    .once ["FailureAction"],
    .once ["Monitor"],
    .once ["MaxFailureRatio"],
    .once ["Order"] ]

theorem UpdatePolicy.inOrder : InOrder .deploy UpdatePolicy.calls UpdatePolicy.layout := by
  refine ⟨by decide, fun u => ⟨_, ?_, rfl⟩⟩
  exact .cons fits_uint <| .cons fits_duration <| .cons fits_text <| .cons fits_duration <|
    .cons fits_map_toList <| .cons fits_text .nil

/-- The slots of the calls of a device request. -/
def DeviceRequest.layout : List (Slot DeviceRequest) :=
  [ .gathered ["Capabilities"] (·.capabilities),
    .once ["Driver"],
    .once ["Count"],
    .gathered ["DeviceIDs"] (·.deviceIds) ]

/-- The arguments of a device request stand in the order of its layout. -/
theorem DeviceRequest.inOrder :
    InOrder .deploy (fun d => d.call.callArgs) DeviceRequest.layout := by
  refine ⟨by decide, fun d => ⟨_, ?_, rfl⟩⟩
  exact .cons fits_texts <| .cons fits_text <| .cons fits_int <| .cons fits_texts .nil

/-- The slots of the calls for one side of the resource constraints. -/
def Resource.layout : List (Slot Resource) :=
  [ .once ["MemoryBytes"],
    .once ["NanoCPUs"],
    .each ["Device"] (·.devices) fun device => { devices := [device] } ]

theorem Resource.inOrder : InOrder .deploy Resource.calls Resource.layout := by
  refine ⟨by decide, fun r => ⟨_, ?_, rfl⟩⟩
  exact .cons fits_int <| .cons fits_int <|
    .cons (fits_map (fun _ => rfl) (by simp [DeviceRequest.call])) .nil

/-- The slots of the calls of a deployment. -/
def Deploy.layout : List (Slot Deploy) :=
  [ .once ["Replicas"],
    .once ["Mode"],
    .keyed ["Label"] (·.labels.keys),
    .once ["UpdateConfig"],
    .once ["RollbackConfig"],
    .once ["Limits"],
    .once ["Reservations"] ]

/-- The calls of a deployment stand in the order of its layout, each with its own group of
arguments. -/
theorem Deploy.inOrder : InOrder .deploy Deploy.calls Deploy.layout := by
  refine ⟨by decide, fun d => ⟨d.fields, ?_, rfl⟩⟩
  exact .cons fits_uint <| .cons fits_text <| .cons fits_pairs <| .cons fits_group <|
    .cons fits_group <| .cons fits_group <| .cons fits_group .nil

/-! ## Orchestration -/

/-- The watch rules of a service; there are none without settings for development. -/
def Service.watchRules (s : Service) : List WatchRule :=
  (s.develop.getD {}).watch

/-- The slots of the calls for orchestration. -/
def Service.orchestrationLayout : List (Slot Service) :=
  [ .keyed ["Annotation"] (·.annotations.keys),
    .once ["NoAttach"],
    .each ["Watch"] Service.watchRules fun rule =>
      { develop := some { watch := [rule] } },
    .each ["Secret"] (·.secrets) fun secret => { secrets := [secret] },
    .once ["Build"],
    .gathered ["Profiles"] (·.profiles),
    .once ["PullPolicy"],
    .keyed ["DependsOn", "DependsOnHealthy"] (·.dependsOn.keys),
    .each ["EnvFile"] (·.envFile) fun file => { envFile := [file] },
    .once ["Deploy"] ]

/-- The call for a file of environment variables, if it has a path. -/
def EnvFile.call? (file : EnvFile) : Option Expr :=
  if file.path.isEmpty then none else some (.packageCall .service "EnvFile" [.string file.path])

/-- The calls of an orchestration stand in the order of its layout. -/
theorem Service.orchestration_inOrder :
    InOrder .service Service.orchestrationCalls Service.orchestrationLayout := by
  refine ⟨by decide, fun s => ⟨s.orchestrationFields, ?_, rfl⟩⟩
  have hwatch : s.watchRules.map WatchRule.call
      = (s.develop.map fun develop => develop.watch.map WatchRule.call).getD [] := by
    cases h : s.develop <;> simp [watchRules, h]
  have hdependency (entry : String × Dependency) : ∃ name ∈ ["DependsOn", "DependsOnHealthy"],
      ∃ args, entry.2.call entry.1 = .packageCall .service name (.string entry.1 :: args) :=
    ⟨_, by split <;> decide, [], rfl⟩
  have hfiles (files : List EnvFile) :
      files.filterMap EnvFile.call? = (files.filter (!·.path.isEmpty)).map fun file =>
        Expr.packageCall .service "EnvFile" [.string file.path] := by
    rw [← List.filterMap_eq_map, List.filterMap_filter]
    congr 1
    funext file
    simp only [EnvFile.call?]
    cases file.path.isEmpty <;> rfl
  have hfile (file : EnvFile) :
      ({ envFile := [file] } : Service).orchestrationCalls = file.call?.toList := by
    have hone : ({ envFile := [file] } : Service).orchestrationCalls
        = (([file].filter (!·.path.isEmpty)).map fun file =>
            Expr.packageCall .service "EnvFile" [.string file.path]) ++ [] := rfl
    rw [hone, ← hfiles, List.append_nil, filterMap_singleton]
  have hcall (file : EnvFile) : ∀ e ∈ file.call?,
      ∃ name ∈ ["EnvFile"], ∃ args, e = .packageCall .service name args := by
    intro e he
    simp only [EnvFile.call?] at he
    split at he
    · cases he
    · cases he
      exact ⟨_, List.mem_cons_self, _, rfl⟩
  exact .cons fits_pairs <| .cons fits_flag <|
    .cons (hwatch ▸ fits_map (fun _ => rfl) (by simp [WatchRule.call])) <|
    .cons (fits_map (fun _ => rfl) (by simp)) <| .cons fits_map_toList <| .cons fits_texts <|
    .cons fits_text <| .cons (fits_entries hdependency) <|
    .cons (hfiles _ ▸ fits_filterMap hfile hcall) <| .cons fits_map_toList .nil

/-! ## Networks and volumes -/

/-- The slots of the calls of a pool of addresses. -/
def IpamPool.layout : List (Slot IpamPool) :=
  [ .once ["Subnet"],
    .once ["Gateway"],
    .once ["IPRange"],
    .keyed ["AuxAddress"] (·.auxAddresses.keys) ]

theorem IpamPool.inOrder : InOrder .ipam IpamPool.calls IpamPool.layout := by
  refine ⟨by decide, fun p => ⟨_, ?_, rfl⟩⟩
  exact .cons fits_text <| .cons fits_text <| .cons fits_text <| .cons fits_pairs .nil

/-- The slots of the calls of a network. -/
def Network.layout : List (Slot Network) :=
  [ .once ["Driver"],
    .keyed ["DriverOpt"] (·.driverOpts.keys),
    .once ["Internal"],
    .once ["Attachable"],
    .once ["EnableIPv6"],
    .keyed ["Label"] (·.labels.keys),
    .once ["IPAMDriver"],
    .each ["IPAMPool"] (fun n => (n.ipam.getD {}).config) fun pool =>
      { ipam := some { config := [pool] } } ]

/-- The calls of a network do not change when an address management that says nothing is added. -/
theorem Network.calls_getD_ipam (n : Network) :
    ({ n with ipam := some (n.ipam.getD {}) } : Network).calls = n.calls := by
  cases h : n.ipam <;> simp [calls, fields, Ipam.fields, h]

/-- The calls of a network stand in the order of its layout, those of its address management at the
end. -/
theorem Network.inOrder : InOrder .network Network.calls Network.layout := by
  refine ⟨by decide, fun n => ⟨_, ?_, n.calls_getD_ipam.symm⟩⟩
  exact .cons fits_text <| .cons fits_pairs <| .cons fits_flag <| .cons fits_flag <|
    .cons fits_flag <| .cons fits_pairs <| .cons fits_text <|
    .cons (fits_map (fun _ => rfl) (by simp)) .nil

/-- The slots of the calls of a volume. -/
def Volume.layout : List (Slot Volume) :=
  [ .once ["Driver"],
    .keyed ["DriverOpt"] (·.driverOpts.keys),
    .keyed ["Label"] (·.labels.keys) ]

/-- The calls of a volume stand in the order of its layout. -/
theorem Volume.inOrder : InOrder .volume Volume.calls Volume.layout := by
  refine ⟨by decide, fun v => ⟨v.fields, ?_, rfl⟩⟩
  exact .cons fits_text <| .cons fits_pairs <| .cons fits_pairs .nil

/-! ## The chain of a container -/

/-- The chain of a container takes some of its groups, each with settings, in a fixed order. -/
theorem Service.exists_links (s : Service) :
    ∃ links : List (String × List Expr),
      links.Sublist
        [ ("WithConfig", s.containerCalls), ("WithHostConfig", s.hostCalls),
          ("WithNetworkingConfig", s.endpointCalls), ("WithPlatform", s.platformCalls) ] ∧
      (∀ link ∈ links, link.2 ≠ []) ∧
      s.containerExpr = links.foldl (fun chain link => .methodCall chain link.1 [.group link.2])
        (.packageCall .gantry "NewContainer" []) := by
  refine ⟨s.groups.filter (!·.2.isEmpty), List.filter_sublist, ?_, rfl⟩
  intro link hlink
  simpa using (List.mem_filter.1 hlink).2

/-! ## All groups -/

/-- The calls of every group of settings, those of nested groups included, follow the layout of
the group, and the chain of a container takes its groups in a fixed order. -/
theorem calls_follow_layouts :
    (InOrder .container Service.containerCalls Service.containerLayout ∧
      InOrder .healthcheck HealthCheck.calls HealthCheck.layout) ∧
    InOrder .host Service.hostCalls Service.hostLayout ∧
    InOrder .service Service.orchestrationCalls Service.orchestrationLayout ∧
    InOrder .build Build.calls Build.layout ∧
    (InOrder .deploy Deploy.calls Deploy.layout ∧
      InOrder .deploy UpdatePolicy.calls UpdatePolicy.layout ∧
      InOrder .deploy Resource.calls Resource.layout ∧
      InOrder .deploy (fun d => d.call.callArgs) DeviceRequest.layout) ∧
    ((∀ (n : Network) key,
        n.creation key = .packageCall .network "New" (.string (n.nameFor key) :: n.calls)) ∧
      InOrder .network Network.calls Network.layout ∧
      InOrder .ipam IpamPool.calls IpamPool.layout) ∧
    ((∀ (v : Volume) key,
        v.creation key = .packageCall .volume "New" (.string (v.nameFor key) :: v.calls)) ∧
      InOrder .volume Volume.calls Volume.layout) ∧
    ∀ s : Service, ∃ links : List (String × List Expr),
      links.Sublist
        [ ("WithConfig", s.containerCalls), ("WithHostConfig", s.hostCalls),
          ("WithNetworkingConfig", s.endpointCalls), ("WithPlatform", s.platformCalls) ] ∧
      (∀ link ∈ links, link.2 ≠ []) ∧
      s.containerExpr = links.foldl (fun chain link => .methodCall chain link.1 [.group link.2])
        (.packageCall .gantry "NewContainer" []) :=
  ⟨⟨Service.container_inOrder, HealthCheck.inOrder⟩, Service.host_inOrder,
    Service.orchestration_inOrder, Build.inOrder,
    ⟨Deploy.inOrder, UpdatePolicy.inOrder, Resource.inOrder, DeviceRequest.inOrder⟩,
    ⟨Network.creation_eq, Network.inOrder, IpamPool.inOrder⟩,
    ⟨Volume.creation_eq, Volume.inOrder⟩, Service.exists_links⟩

end Stackwright
