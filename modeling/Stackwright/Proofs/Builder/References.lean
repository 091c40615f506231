import Stackwright.Builder.Assembly
import Stackwright.Proofs.Dict

/-!
# Names that containers refer to

A container refers to the networks that it is attached to and to the volumes that it
mounts by the names that its service gives, which are the keys of the project.  The
project creates networks and volumes under the names that they are given themselves, and
under their keys only if they are given none.  So a reference leads to what is created if
the network or volume has no name of its own, or its key as its name, and else it leads
nowhere.

Main results:

- Theorem `Service.networkTexts_container`: the names of the attached networks.
- Theorem `Service.volumeTexts_container`: the names of the mounted volumes.
- Theorem `Project.references_resolve_iff`: which references lead to what is created.
-/

namespace Stackwright

open Program

namespace Program

/-! ## Texts given to calls -/

/-- Functions of a package, by their names. -/
structure Callee where
  package : Package
  names : List String

/-- Whether a call is one of these functions. -/
def Callee.takes (c : Callee) (package : Package) (name : String) : Bool :=
  package == c.package && c.names.contains name

/-- A callee takes nothing from calls of another package. -/
theorem Callee.takes_of_ne {c : Callee} {package : Package} (h : package ≠ c.package)
    (name : String) : c.takes package name = false := by
  simp [takes, h]

/-- A callee with one name takes nothing from calls with another name. -/
theorem Callee.takes_of_name_ne {package other : Package} {only name : String}
    (h : name ≠ only) : (Callee.mk package [only]).takes other name = false := by
  simp [takes, h]

/-- The text that stands first among arguments. -/
def firstText : List Expr → List String
  | .literal (.string text) :: _ => [text]
  | _ => []

namespace Expr

mutual
/-- The first texts that are given to some functions, wherever an expression calls them. -/
def textsFor (c : Callee) : Expr → List String
  | .call _ args => textsForAll c args
  | .packageCall package name args =>
      (if c.takes package name then firstText args else []) ++ textsForAll c args
  | .methodCall receiver _ args => receiver.textsFor c ++ textsForAll c args
  | .ident _ => []
  | .qualified _ _ => []
  | .literal _ => []
  | .list _ items => textsForAll c items
  | .map _ _ entries => entryTextsFor c entries
  | .group items => textsForAll c items
  | .type _ => []
  | .unary _ operand => operand.textsFor c
  | .binary _ left right => left.textsFor c ++ right.textsFor c

/-- The first texts that are given to some functions in a list of expressions. -/
def textsForAll (c : Callee) : List Expr → List String
  | [] => []
  | e :: rest => e.textsFor c ++ textsForAll c rest

/-- The first texts that are given to some functions in the entries of a map. -/
def entryTextsFor (c : Callee) : List (Expr × Expr) → List String
  | [] => []
  | (key, value) :: rest => key.textsFor c ++ value.textsFor c ++ entryTextsFor c rest
end

variable {c : Callee}

/-- The texts for a callee in a list of expressions are those in its members. -/
theorem textsForAll_eq (items : List Expr) : textsForAll c items = items.flatMap (textsFor c) := by
  induction items with
  | nil => rfl
  | cons e rest ih => rw [textsForAll, ih, List.flatMap_cons]

/-- The texts for a callee in the entries of a map are those in their keys and values. -/
theorem entryTextsFor_eq (entries : List (Expr × Expr)) :
    entryTextsFor c entries
      = entries.flatMap fun entry => entry.1.textsFor c ++ entry.2.textsFor c := by
  induction entries with
  | nil => rfl
  | cons entry rest ih => rw [entryTextsFor, ih, List.flatMap_cons]

@[simp]
theorem textsFor_string (value : String) : (string value).textsFor c = [] :=
  rfl

/-- A map of texts calls nothing. -/
@[simp]
theorem textsFor_stringMap (entries : List (String × String)) :
    (stringMap entries).textsFor c = [] := by
  rw [stringMap, textsFor, entryTextsFor_eq, List.flatMap_map]
  simp

@[simp]
theorem textsFor_literal (value : Literal) : (literal value).textsFor c = [] :=
  rfl

/-- A call of another function gives what its arguments give. -/
theorem textsFor_other {package : Package} {name : String} (h : c.takes package name = false)
    (args : List Expr) :
    (packageCall package name args).textsFor c = args.flatMap (textsFor c) := by
  rw [textsFor, h, textsForAll_eq]
  rfl

/-- A call of one of the functions gives its first text and what its arguments give. -/
theorem textsFor_one {package : Package} {name : String} (h : c.takes package name = true)
    (text : String) (args : List Expr) :
    (packageCall package name (.string text :: args)).textsFor c
      = text :: args.flatMap (textsFor c) := by
  rw [textsFor, h, textsForAll_eq]
  rfl

end Expr

namespace Stmt

mutual
/-- The first texts that are given to some functions, wherever a statement calls them. -/
def textsFor (c : Callee) : Stmt → List String
  | .expr value => value.textsFor c
  | .define _ value => value.textsFor c
  | .return value => (value.map (Expr.textsFor c)).getD []
  | .if init condition body => initTextsFor c init ++ condition.textsFor c ++ textsForAll c body
  | .go body => textsForAll c body
  | .defer body => textsForAll c body
  | .deferCall call => call.textsFor c
  | .blank => []

/-- The first texts that are given to some functions in an optional statement. -/
def initTextsFor (c : Callee) : Option Stmt → List String
  | none => []
  | some s => s.textsFor c

/-- The first texts that are given to some functions in a list of statements. -/
def textsForAll (c : Callee) : List Stmt → List String
  | [] => []
  | s :: rest => s.textsFor c ++ textsForAll c rest
end

theorem textsForAll_eq (c : Callee) (body : List Stmt) :
    textsForAll c body = body.flatMap (textsFor c) := by
  induction body with
  | nil => rfl
  | cons s rest ih => rw [textsForAll, ih, List.flatMap_cons]

end Stmt

/-! ## Calls of other functions -/

namespace Calls

variable {c : Callee} {package : Package} {name : String}

/-- A call that is not for the callee gives it no text but those of its arguments. -/
theorem texts_one (h : c.takes package name = false) {args : List Expr}
    (hargs : args.flatMap (Expr.textsFor c) = []) :
    (one package name args).flatMap (Expr.textsFor c) = [] := by
  simp [one, Expr.textsFor_other h, hargs]

/-- A group that is not for the callee gives it no text but those of its members. -/
theorem texts_group (h : c.takes package name = false) {args : List Expr}
    (hargs : args.flatMap (Expr.textsFor c) = []) :
    (group package name args).flatMap (Expr.textsFor c) = [] := by
  unfold group
  split
  · rfl
  · exact texts_one h hargs

theorem texts_flag (h : c.takes package name = false) (on : Bool) :
    (flag package name on).flatMap (Expr.textsFor c) = [] := by
  cases on with
  | false => rfl
  | true => exact texts_one h rfl

/-- The call of a text is for its own name only. -/
theorem texts_text (h : c.takes package name = false) (value : Option String) :
    (text package name value).flatMap (Expr.textsFor c) = [] := by
  unfold text
  split
  · exact texts_one h rfl
  · rfl

theorem texts_int (h : c.takes package name = false) (value : Option Int) :
    (int package name value).flatMap (Expr.textsFor c) = [] := by
  unfold int
  split
  · exact texts_one h rfl
  · rfl

theorem texts_uint (h : c.takes package name = false) (value : Option Nat) :
    (uint package name value).flatMap (Expr.textsFor c) = [] := by
  unfold uint
  split
  · exact texts_one h rfl
  · rfl

theorem texts_duration (h : c.takes package name = false) (value : Option Duration) :
    (duration package name value).flatMap (Expr.textsFor c) = [] := by
  unfold duration
  split
  · exact texts_one h rfl
  · rfl

theorem texts_texts (h : c.takes package name = false) (values : List String) :
    (texts package name values).flatMap (Expr.textsFor c) = [] :=
  texts_group h (by simp)

/-- Calls made for each member of a list give no text if none of them does. -/
theorem texts_map {α : Type} {values : List α} {f : α → Expr}
    (h : ∀ a ∈ values, (f a).textsFor c = []) : (values.map f).flatMap (Expr.textsFor c) = [] := by
  simpa [List.flatMap_eq_nil_iff] using h

/-- The calls of a dictionary are for their own name only. -/
theorem texts_pairs (h : c.takes package name = false) (values : Dict String) :
    (pairs package name values).flatMap (Expr.textsFor c) = [] :=
  texts_map fun _ _ => Expr.textsFor_other h _

theorem texts_optionalPairs (h : c.takes package name = false) (values : Dict (Option String)) :
    (optionalPairs package name values).flatMap (Expr.textsFor c) = [] :=
  texts_map fun _ _ => Expr.textsFor_other h _

theorem texts_textMap (h : c.takes package name = false) (values : Dict String) :
    (textMap package name values).flatMap (Expr.textsFor c) = [] := by
  unfold textMap
  split
  · rfl
  · exact texts_one h (by simp)

theorem texts_ulimits (h : c.takes package name = false) (limits : Dict Ulimit) :
    (ulimits package name limits).flatMap (Expr.textsFor c) = [] :=
  texts_map fun _ _ => Expr.textsFor_other h _

/-- At most one call gives no text if it gives none where it is made. -/
theorem texts_toList {value : Option Expr} (h : ∀ e, value = some e → e.textsFor c = []) :
    value.toList.flatMap (Expr.textsFor c) = [] := by
  cases value with
  | none => rfl
  | some e => simpa using h e rfl

end Calls
end Program

/-! ## Containers -/

/-- A health check calls its own package only. -/
theorem HealthCheck.texts_calls {c : Callee} (h : .healthcheck ≠ c.package) (check : HealthCheck) :
    check.calls.flatMap (Expr.textsFor c) = [] := by
  simp (disch := exact c.takes_of_ne h _) only [HealthCheck.calls, List.flatten_cons,
    List.flatten_nil, List.flatMap_append, Calls.texts_texts, Calls.texts_duration,
    Calls.texts_uint, List.append_nil]

/-- The settings of an endpoint name no network. -/
theorem Endpoint.texts_calls {c : Callee}
    (h : ∀ name, name ≠ "Network" → c.takes .endpoint name = false) (e : Endpoint) :
    e.calls.flatMap (Expr.textsFor c) = [] := by
  have haddress : e.addressCalls.flatMap (Expr.textsFor c) = [] := by
    simp (disch := exact h _ (by decide)) only [Endpoint.addressCalls, List.flatten_cons,
      List.flatten_nil, List.flatMap_append, Calls.texts_text, Calls.texts_texts,
      List.append_nil]
  have hgroup := Calls.texts_group (h "IPAMConfig" (by decide)) haddress
  simp (disch := exact h _ (by decide)) only [Endpoint.calls, List.flatten_cons, List.flatten_nil,
    List.flatMap_append, Calls.texts_text, Calls.texts_texts, Calls.texts_pairs, hgroup,
    List.append_nil]

namespace Service

/-- The settings of a container call two packages only. -/
theorem texts_containerCalls {c : Callee} (hcontainer : .container ≠ c.package)
    (hhealth : .healthcheck ≠ c.package) (s : Service) :
    s.containerCalls.flatMap (Expr.textsFor c) = [] := by
  have hother := c.takes_of_ne hcontainer
  have hexpose : (s.expose.map exposedPort).flatMap (Expr.textsFor c) = [] :=
    Calls.texts_map fun _ _ => Expr.textsFor_other (hother _) _
  have hcheck : ((s.healthcheck.filter (!·.disable)).map fun check =>
      Expr.packageCall .container "Healthcheck" check.calls).toList.flatMap (Expr.textsFor c)
        = [] := by
    refine Calls.texts_toList fun e he => ?_
    obtain ⟨check, -, rfl⟩ := Option.map_eq_some_iff.1 he
    rw [Expr.textsFor_other (hother _), check.texts_calls hhealth]
  simp (disch := exact hother _) only [containerCalls, containerFields, List.flatten_cons,
    List.flatten_nil, List.flatMap_append, Calls.texts_text, Calls.texts_texts,
    Calls.texts_uint, Calls.texts_pairs, Calls.texts_optionalPairs, Calls.texts_flag, hexpose,
    hcheck, List.append_nil]

end Service

/-- The functions that mount a volume. -/
def volumeMounts : Callee := ⟨.host, ["VolumeMount", "VolumeMountReadOnly"]⟩

/-- The function that attaches a network. -/
def networkAttachments : Callee := ⟨.endpoint, ["Network"]⟩

/-- The function that creates a network. -/
def networkNews : Callee := ⟨.network, ["New"]⟩

/-- The function that creates a volume. -/
def volumeNews : Callee := ⟨.volume, ["New"]⟩

namespace Mount

/-- The volume that a mount refers to; a mount without a source refers to the anonymous one. -/
def volumeName (m : Mount) : String :=
  (given m.source).getD anonymousVolume

/-- A mount gives the name of a volume if it mounts one. -/
theorem texts_call (m : Mount) :
    m.call?.toList.flatMap (Expr.textsFor volumeMounts)
      = if m.type = "volume" then [m.volumeName] else [] := by
  unfold call?
  by_cases hbind : m.type = "bind"
  · simp only [hbind, if_true]
    refine (Calls.texts_toList fun e he => ?_).trans (if_neg (by decide)).symm
    obtain ⟨source, -, rfl⟩ := Option.map_eq_some_iff.1 he
    exact Expr.textsFor_other (by split <;> decide) _
  · by_cases hvolume : m.type = "volume"
    · have htakes : volumeMounts.takes .host
          (if m.readOnly then "VolumeMountReadOnly" else "VolumeMount") = true := by
        split <;> decide
      simp [hvolume, Expr.textsFor_one htakes, volumeName]
    · by_cases htmpfs : m.type = "tmpfs"
      · have htakes : volumeMounts.takes .host "TmpfsMount" = false := by decide
        simp [htmpfs, Expr.textsFor_other htakes, Expr.int]
      · simp [hbind, hvolume, htmpfs]

/-- A mount gives no name to functions of other packages. -/
theorem texts_call_other {c : Callee} (h : .host ≠ c.package) (m : Mount) :
    m.call?.toList.flatMap (Expr.textsFor c) = [] := by
  have hother := c.takes_of_ne h
  refine Calls.texts_toList fun e he => ?_
  unfold call? at he
  dsimp only at he
  split at he
  · obtain ⟨source, -, rfl⟩ := Option.map_eq_some_iff.1 he
    exact Expr.textsFor_other (hother _) _
  · split at he
    · cases he
      exact Expr.textsFor_other (hother _) _
    · split at he
      · cases he
        exact Expr.textsFor_other (hother _) _
      · cases he

end Mount

/-- Of the functions of the host package only those that mount a volume may be meant. -/
def Program.Callee.OnlyMounts (c : Callee) : Prop :=
  ∀ name, name ∉ volumeMounts.names → c.takes .host name = false

/-- A callee for mounts takes nothing from the other settings of a host. -/
theorem Program.Callee.OnlyMounts.takes {c : Callee} (h : c.OnlyMounts) {name : String}
    (hname : name ∉ volumeMounts.names) : c.takes .host name = false :=
  h name hname

theorem RestartPolicy.texts_call {c : Callee} (h : c.OnlyMounts) (policy : RestartPolicy) :
    policy.call.textsFor c = [] := by
  cases policy <;> exact Expr.textsFor_other (h.takes (by decide)) _

theorem BlockIo.texts_fields {c : Callee} (h : c.OnlyMounts) (b : BlockIo) :
    b.fields.flatten.flatMap (Expr.textsFor c) = [] := by
  have hthrottle : ∀ name limits, name ∉ volumeMounts.names →
      (Throttle.calls name limits).flatMap (Expr.textsFor c) = [] :=
    fun name limits hname => Calls.texts_map fun _ _ => Expr.textsFor_other (h.takes hname) _
  simp (disch := first | exact h.takes (by decide) | decide) only [BlockIo.fields,
    List.flatten_cons, List.flatten_nil, List.flatMap_append, Calls.texts_uint, hthrottle,
    List.append_nil]

namespace Service

/-- Of the host settings only mounts give names of volumes. -/
theorem texts_hostCalls {c : Callee} (h : c.OnlyMounts) (s : Service) :
    s.hostCalls.flatMap (Expr.textsFor c)
      = s.volumes.flatMap fun m => m.call?.toList.flatMap (Expr.textsFor c) := by
  have hports : (s.ports.map Port.call).flatMap (Expr.textsFor c) = [] :=
    Calls.texts_map fun _ _ => Expr.textsFor_other (h.takes (by decide)) _
  have hmounts : (s.volumes.filterMap Mount.call?).flatMap (Expr.textsFor c)
      = s.volumes.flatMap fun m => m.call?.toList.flatMap (Expr.textsFor c) := by
    induction s.volumes with
    | nil => rfl
    | cons m rest ih =>
        rw [List.flatMap_cons, ← ih]
        cases hcall : m.call? <;> simp [hcall]
  have hrestart : ((s.restart.bind RestartPolicy.parse?).map RestartPolicy.call).toList.flatMap
      (Expr.textsFor c) = [] := by
    refine Calls.texts_toList fun e he => ?_
    obtain ⟨policy, -, rfl⟩ := Option.map_eq_some_iff.1 he
    exact policy.texts_call h
  have hdevices : (s.devices.map Device.call).flatMap (Expr.textsFor c) = [] :=
    Calls.texts_map fun _ _ => Expr.textsFor_other (h.takes (by decide)) _
  have hlogging : (s.logging.bind Logging.call?).toList.flatMap (Expr.textsFor c) = [] := by
    refine Calls.texts_toList fun e he => ?_
    obtain ⟨logging, -, hcall⟩ := Option.bind_eq_some_iff.1 he
    obtain ⟨driver, -, rfl⟩ := Option.map_eq_some_iff.1 hcall
    rw [Expr.textsFor_other (h.takes (by decide))]
    simp
  have hblock : ((s.blockIo.map BlockIo.fields).getD []).flatten.flatMap (Expr.textsFor c)
      = [] := by
    cases s.blockIo with
    | none => rfl
    | some block => exact block.texts_fields h
  simp (disch := exact h.takes (by decide)) only [hostCalls, hostFields, List.flatten_append,
    List.flatten_cons, List.flatten_nil, List.flatMap_append, Calls.texts_flag, Calls.texts_text,
    Calls.texts_texts, Calls.texts_int, Calls.texts_textMap, Calls.texts_pairs,
    Calls.texts_ulimits, hports, hmounts, hrestart, hdevices, hlogging, hblock, List.append_nil,
    List.nil_append]

/-- The platform of a service calls its own package only. -/
theorem texts_platformCalls {c : Callee} (h : .platform ≠ c.package) (s : Service) :
    s.platformCalls.flatMap (Expr.textsFor c) = [] := by
  have hsetting : ∀ name value : String,
      (Expr.packageCall .platform name [.string value]).textsFor c = [] :=
    fun name value => Expr.textsFor_other (c.takes_of_ne h name) _
  unfold platformCalls
  split
  · rfl
  · dsimp only
    split <;> simp [hsetting]

/-- An attachment gives the name of its network. -/
theorem texts_attachment (macAddress : Option String) (network : String)
    (endpoint : Option Endpoint) :
    (attachment macAddress network endpoint).textsFor networkAttachments = [network] := by
  have hother : ∀ name, name ≠ "Network" → networkAttachments.takes .endpoint name = false :=
    fun _ => Callee.takes_of_name_ne
  unfold attachment
  rw [Expr.textsFor_one (by decide)]
  cases endpoint with
  | none => rw [Calls.texts_text (hother _ (by decide))]
  | some endpoint => rw [endpoint.texts_calls hother]

/-- An attachment calls the package of endpoints only. -/
theorem texts_attachment_other {c : Callee} (h : .endpoint ≠ c.package) (macAddress : Option String)
    (network : String) (endpoint : Option Endpoint) :
    (attachment macAddress network endpoint).textsFor c = [] := by
  have hother := c.takes_of_ne h
  unfold attachment
  rw [Expr.textsFor_other (hother _), List.flatMap_cons, Expr.textsFor_string]
  cases endpoint with
  | none => exact Calls.texts_text (hother _) macAddress
  | some endpoint => exact endpoint.texts_calls fun name _ => hother name

/-- Attachments give something for each network, whichever of them has the hardware address. -/
theorem texts_endpointCalls {c : Callee} {f : String → List String}
    (h : ∀ macAddress network endpoint,
      (attachment macAddress network endpoint).textsFor c = f network) (s : Service) :
    s.endpointCalls.flatMap (Expr.textsFor c) = s.networks.keys.flatMap f := by
  unfold endpointCalls Dict.keys
  cases s.networks.sorted with
  | nil => rfl
  | cons first rest => simp [List.flatMap_map, h]

/-- A container gives what its groups of settings give. -/
theorem texts_containerExpr {c : Callee} (h : .gantry ≠ c.package) (s : Service) :
    s.containerExpr.textsFor c
      = s.groups.flatMap fun group => group.2.flatMap (Expr.textsFor c) := by
  -- The chain of calls grows at its end, so the receiver is general.
  have hchain : ∀ (groups : List (String × List Expr)) (chain : Expr),
      ((groups.filter (!·.2.isEmpty)).foldl
        (fun chain group => Expr.methodCall chain group.1 [.group group.2]) chain).textsFor c
          = chain.textsFor c ++ groups.flatMap fun group => group.2.flatMap (Expr.textsFor c) := by
    intro groups
    induction groups with
    | nil => simp
    | cons group rest ih =>
        intro chain
        by_cases hempty : group.2 = []
        · simp [hempty, ih]
        · simp [hempty, ih, Expr.textsFor, Expr.textsForAll, Expr.textsForAll_eq]
  rw [containerExpr, hchain, Expr.textsFor_other (c.takes_of_ne h _)]
  rfl

/-- A container refers to the networks that its service is attached to by their keys. -/
theorem networkTexts_container (s : Service) :
    s.containerExpr.textsFor networkAttachments = s.networks.keys := by
  have hmounts : s.hostCalls.flatMap (Expr.textsFor networkAttachments) = [] := by
    rw [s.texts_hostCalls fun name _ => networkAttachments.takes_of_ne (by decide) name]
    simp [Mount.texts_call_other (c := networkAttachments) (by decide)]
  rw [s.texts_containerExpr (by decide)]
  simp [groups, s.texts_containerCalls (c := networkAttachments) (by decide) (by decide), hmounts,
    s.texts_endpointCalls texts_attachment,
    s.texts_platformCalls (c := networkAttachments) (by decide)]

/-- A container refers to the volumes that its service mounts by their sources. -/
theorem volumeTexts_container (s : Service) :
    s.containerExpr.textsFor volumeMounts
      = (s.volumes.filter (·.type = "volume")).map Mount.volumeName := by
  have hother : volumeMounts.OnlyMounts := by
    intro name hname
    simp [Callee.takes, hname]
  have hmounts : s.hostCalls.flatMap (Expr.textsFor volumeMounts)
      = (s.volumes.filter (·.type = "volume")).map Mount.volumeName := by
    rw [s.texts_hostCalls hother]
    induction s.volumes with
    | nil => rfl
    | cons m rest ih =>
        rw [List.flatMap_cons, ih, Mount.texts_call]
        by_cases hvolume : m.type = "volume" <;> simp [hvolume]
  have hendpoints := s.texts_endpointCalls (f := fun _ => [])
    (texts_attachment_other (c := volumeMounts) (by decide))
  rw [s.texts_containerExpr (by decide)]
  simp [groups, s.texts_containerCalls (c := volumeMounts) (by decide) (by decide), hmounts,
    hendpoints, s.texts_platformCalls (c := volumeMounts) (by decide)]

end Service

/-! ## Networks and volumes -/

theorem IpamPool.texts_calls {c : Callee} (h : .ipam ≠ c.package) (pool : IpamPool) :
    pool.calls.flatMap (Expr.textsFor c) = [] := by
  simp (disch := exact c.takes_of_ne h _) only [IpamPool.calls, List.flatten_cons,
    List.flatten_nil, List.flatMap_append, Calls.texts_text, Calls.texts_pairs, List.append_nil]

/-- The settings of a network create none. -/
theorem Network.texts_calls {c : Callee} (hipam : .ipam ≠ c.package)
    (h : ∀ name, name ≠ "New" → c.takes .network name = false) (n : Network) :
    n.calls.flatMap (Expr.textsFor c) = [] := by
  have hpools : ∀ pools : List IpamPool, (pools.map fun pool =>
      Expr.packageCall .network "IPAMPool" pool.calls).flatMap (Expr.textsFor c) = [] := by
    refine fun pools => Calls.texts_map fun pool _ => ?_
    rw [Expr.textsFor_other (h _ (by decide)), pool.texts_calls hipam]
  have hdriver : ∀ driver, (Calls.text .network "IPAMDriver" driver).flatMap (Expr.textsFor c)
      = [] := Calls.texts_text (h _ (by decide))
  have hipamFields : ((n.ipam.map Ipam.fields).getD []).flatten.flatMap (Expr.textsFor c) = [] := by
    cases n.ipam with
    | none => rfl
    | some ipam => simp [Ipam.fields, hpools, hdriver]
  simp (disch := exact h _ (by decide)) only [Network.calls, Network.fields, List.flatten_append,
    List.flatten_cons, List.flatten_nil, List.flatMap_append, Calls.texts_text,
    Calls.texts_pairs, Calls.texts_flag, hipamFields, List.append_nil]

/-- The settings of a volume create none. -/
theorem Volume.texts_calls {c : Callee} (h : ∀ name, name ≠ "New" → c.takes .volume name = false)
    (v : Volume) : v.calls.flatMap (Expr.textsFor c) = [] := by
  simp (disch := exact h _ (by decide)) only [Volume.calls, Volume.fields, List.flatten_cons,
    List.flatten_nil, List.flatMap_append, Calls.texts_text, Calls.texts_pairs, List.append_nil]

/-- The call that creates something under a name gives this name. -/
theorem texts_creation {c : Callee} {package : Package} (h : c.takes package "New" = true)
    (name : String) {trivial : Bool} {calls : List Expr}
    (hcalls : calls.flatMap (Expr.textsFor c) = []) :
    (Expr.packageCall package "New" (.string name :: if trivial then [] else calls)).textsFor c
      = [name] := by
  rw [Expr.textsFor_one h]
  cases trivial <;> simp [hcalls]

/-- The call that creates something else gives nothing. -/
theorem texts_creation_other {c : Callee} {package : Package} (h : c.takes package "New" = false)
    (name : String) {trivial : Bool} {calls : List Expr}
    (hcalls : calls.flatMap (Expr.textsFor c) = []) :
    (Expr.packageCall package "New" (.string name :: if trivial then [] else calls)).textsFor c
      = [] := by
  rw [Expr.textsFor_other h, List.flatMap_cons, Expr.textsFor_string]
  cases trivial <;> simp [hcalls]

namespace Project

/-- The networks that a project creates, by their keys. -/
def ownNetworks (p : Project) : List (String × Network) :=
  p.networks.sorted.filter (!·.2.external)

/-- The volumes that a project creates, by their keys. -/
def ownVolumes (p : Project) : List (String × Volume) :=
  p.volumes.sorted.filter (!·.2.external)

/-- An empty line in front of statements adds no text. -/
theorem texts_stmtSection (c : Callee) (body : List Stmt) :
    (stmtSection body).flatMap (Stmt.textsFor c) = body.flatMap (Stmt.textsFor c) := by
  unfold stmtSection
  split
  · simp_all
  · simp [Stmt.textsFor]

/-- A statement that adds something gives a callee the texts of what is added. -/
theorem texts_addition (c : Callee) (method : String) (args : List Expr) :
    (addition method args).textsFor c = args.flatMap (Expr.textsFor c) := by
  simp [addition, Stmt.textsFor, Expr.textsFor, Expr.textsForAll_eq]

/-- Registering a service is no call for a network or a volume. -/
theorem texts_registration (c : Callee) (service : ServiceCode) :
    service.registration.flatMap (Expr.textsFor c) = [] := by
  unfold ServiceCode.registration
  split <;> simp [Expr.textsFor]

/-- Statements that add something give a callee the texts of all that is added. -/
theorem texts_additions (c : Callee) (method : String) (values : List Expr) :
    (values.map fun value => addition method [value]).flatMap (Stmt.textsFor c)
      = values.flatMap (Expr.textsFor c) := by
  simp [List.flatMap_map, texts_addition]

/-- The function that builds a project gives what its networks and volumes give. -/
theorem texts_constructorBody {c : Callee} (h : .gantry ≠ c.package) (p : Project) (name : String)
    (services : List ServiceCode) :
    Stmt.textsForAll c (p.constructorBody name services)
      = p.networkCreations.flatMap (Expr.textsFor c)
        ++ p.volumeCreations.flatMap (Expr.textsFor c) := by
  have hproject : (Stmt.define [projectVar]
      (.packageCall .gantry "NewProject" [.string name])).textsFor c = [] :=
    Expr.textsFor_other (c.takes_of_ne h _) _
  have hservices : (services.map fun service => addition "AddService" service.registration).flatMap
      (Stmt.textsFor c) = [] := by
    simp [List.flatMap_eq_nil_iff, texts_addition, texts_registration]
  have hend : [Stmt.blank, .return (some (.ident projectVar))].flatMap (Stmt.textsFor c) = [] := rfl
  rw [Stmt.textsForAll_eq, constructorBody]
  simp only [List.cons_append, List.flatMap_cons, List.flatMap_append, hproject, texts_stmtSection,
    texts_additions, hservices, hend, List.nil_append, List.append_nil]

/-- Calls that each give one text give these texts in their order. -/
theorem texts_map_eq {α : Type} {c : Callee} {f : α → Expr} {g : α → String}
    (h : ∀ a, (f a).textsFor c = [g a]) (values : List α) :
    (values.map f).flatMap (Expr.textsFor c) = values.map g := by
  rw [List.flatMap_map, List.map_eq_flatMap]
  simp only [h]

/-- A project creates its networks under their names. -/
theorem networkTexts_body (p : Project) (name : String) (services : List ServiceCode) :
    Stmt.textsForAll networkNews (p.constructorBody name services)
      = p.ownNetworks.map fun entry => entry.2.nameFor entry.1 := by
  have hnew : ∀ name, name ≠ "New" → networkNews.takes .network name = false :=
    fun _ => Callee.takes_of_name_ne
  have hnetworks : p.networkCreations.flatMap (Expr.textsFor networkNews)
      = p.ownNetworks.map fun entry => entry.2.nameFor entry.1 :=
    texts_map_eq (fun entry => texts_creation (by decide) _
      (entry.2.texts_calls (by decide) hnew)) _
  have hvolumes : p.volumeCreations.flatMap (Expr.textsFor networkNews) = [] :=
    Calls.texts_map fun entry _ => texts_creation_other (by decide) _
      (entry.2.texts_calls fun name _ => networkNews.takes_of_ne (by decide) name)
  rw [texts_constructorBody (by decide), hnetworks, hvolumes, List.append_nil]

/-- A project creates its volumes under their names. -/
theorem volumeTexts_body (p : Project) (name : String) (services : List ServiceCode) :
    Stmt.textsForAll volumeNews (p.constructorBody name services)
      = p.ownVolumes.map fun entry => entry.2.nameFor entry.1 := by
  have hnew : ∀ name, name ≠ "New" → volumeNews.takes .volume name = false :=
    fun _ => Callee.takes_of_name_ne
  have hvolumes : p.volumeCreations.flatMap (Expr.textsFor volumeNews)
      = p.ownVolumes.map fun entry => entry.2.nameFor entry.1 :=
    texts_map_eq (fun entry => texts_creation (by decide) _ (entry.2.texts_calls hnew)) _
  have hnetworks : p.networkCreations.flatMap (Expr.textsFor volumeNews) = [] :=
    Calls.texts_map fun entry _ => texts_creation_other (by decide) _
      (entry.2.texts_calls (by decide) fun name _ => volumeNews.takes_of_ne (by decide) name)
  rw [texts_constructorBody (by decide), hvolumes, hnetworks, List.nil_append]

/-! ## References -/

theorem eq_of_mem_zip_map {α β : Type} {values : List α} {f : α → β} {a : α} {b : β}
    (h : (a, b) ∈ values.zip (values.map f)) : b = f a := by
  rw [← List.map_prod_left_eq_zip] at h
  obtain ⟨first, -, heq⟩ := List.mem_map.1 h
  cases heq
  rfl

/-- A key is the name of something if that has no name of its own, or its key as its name. -/
theorem eq_getD_given_iff (key : String) (name : Option String) :
    key = (given name).getD key ↔ ∀ own, given name = some own → own = key := by
  cases given name with
  | none => simp
  | some own => simp [eq_comm]

/-- What containers refer to and what the project creates.  Each attached network and each mounted
volume is referred to once, and each network and volume of the project is created once.  A
reference by a key is the name that the network or volume under this key is created with exactly
if this has no name of its own that is another one. -/
theorem references_resolve_iff (p : Project) (s : Service) (name : String) :
    let attached := s.containerExpr.textsFor networkAttachments
    let mounted := s.containerExpr.textsFor volumeMounts
    let networks := Stmt.textsForAll networkNews (p.constructorBody name p.serviceCodes)
    let volumes := Stmt.textsForAll volumeNews (p.constructorBody name p.serviceCodes)
    let mounts := s.volumes.filter (·.type = "volume")
    (attached.length = s.networks.keys.length ∧ mounted.length = mounts.length
        ∧ networks.length = p.ownNetworks.length ∧ volumes.length = p.ownVolumes.length)
      ∧ (∀ key reference network created, (key, reference) ∈ s.networks.keys.zip attached →
          ((key, network), created) ∈ p.ownNetworks.zip networks →
            (reference = created ↔ ∀ own, given network.name = some own → own = key))
      ∧ ∀ mount key reference volume created, (mount, reference) ∈ mounts.zip mounted →
          given mount.source = some key → ((key, volume), created) ∈ p.ownVolumes.zip volumes →
            (reference = created ↔ ∀ own, given volume.name = some own → own = key) := by
  intro attached mounted networks volumes mounts
  have hattached : attached = s.networks.keys.map id :=
    s.networkTexts_container.trans (List.map_id _).symm
  have hmounted : mounted = mounts.map Mount.volumeName := s.volumeTexts_container
  have hnetworks : networks = p.ownNetworks.map fun entry => entry.2.nameFor entry.1 :=
    p.networkTexts_body name _
  have hvolumes : volumes = p.ownVolumes.map fun entry => entry.2.nameFor entry.1 :=
    p.volumeTexts_body name _
  rw [hattached, hmounted, hnetworks, hvolumes]
  refine ⟨by simp, fun key reference network created href hcreated => ?_,
    fun mount key reference volume created href hsource hcreated => ?_⟩
  · rw [eq_of_mem_zip_map href, eq_of_mem_zip_map hcreated]
    exact eq_getD_given_iff key network.name
  · have hname : mount.volumeName = key := by simp [Mount.volumeName, hsource]
    rw [eq_of_mem_zip_map href, eq_of_mem_zip_map hcreated, hname]
    exact eq_getD_given_iff key volume.name

/-- A service on two networks, with a volume. -/
def webService : Service where
  name := "web"
  networks := Dict.ofList [("front", none), ("shared", none)]
  volumes := [{ kind := some "volume", source := some "data", target := "/data" }]

/-- A project with a network and a volume that have names of their own. -/
def namedProject : Project where
  name := "shop"
  services := Dict.ofList [("web", webService)]
  networks := Dict.ofList [("front", {}), ("shared", { name := some "shared-net" })]
  volumes := Dict.ofList [("data", { name := some "shop-data" })]

/-- The reference to the network without a name of its own leads to it, and the one to the volume
with another name does not. -/
theorem references_resolve_iff_named :
    let body := namedProject.constructorBody "shop" namedProject.serviceCodes
    let mount : Mount := { kind := some "volume", source := some "data", target := "/data" }
    ("front", "front") ∈ webService.networks.keys.zip
        (webService.containerExpr.textsFor networkAttachments)
      ∧ (("front", ({} : Network)), "front") ∈ namedProject.ownNetworks.zip
          (Stmt.textsForAll networkNews body)
      ∧ (∀ own, given ({} : Network).name = some own → own = "front")
      ∧ (mount, "data") ∈ (webService.volumes.filter (·.type = "volume")).zip
          (webService.containerExpr.textsFor volumeMounts)
      ∧ (("data", ({ name := some "shop-data" } : Volume)), "shop-data") ∈
          namedProject.ownVolumes.zip (Stmt.textsForAll volumeNews body)
      ∧ ¬ ∀ own, given (some "shop-data") = some own → own = "data" := by
  intro body mount
  obtain ⟨-, hnetworks, hvolumes⟩ := references_resolve_iff namedProject webService "shop"
  have hattached : ("front", "front") ∈ webService.networks.keys.zip
      (webService.containerExpr.textsFor networkAttachments) := by decide +kernel
  have hcreated : (("front", ({} : Network)), "front") ∈ namedProject.ownNetworks.zip
      (Stmt.textsForAll networkNews body) := by decide +kernel
  have hmounted : (mount, "data") ∈ (webService.volumes.filter (·.type = "volume")).zip
      (webService.containerExpr.textsFor volumeMounts) := by decide +kernel
  have hvolume : (("data", ({ name := some "shop-data" } : Volume)), "shop-data") ∈
      namedProject.ownVolumes.zip (Stmt.textsForAll volumeNews body) := by decide +kernel
  have hdata := hvolumes mount "data" "data" _ "shop-data" hmounted (by decide) hvolume
  exact ⟨hattached, hcreated, (hnetworks "front" "front" _ "front" hattached hcreated).1 rfl,
    hmounted, hvolume, fun hown => absurd (hdata.2 hown) (by decide)⟩

/-- A network and a volume with names of their own are referred to by their keys, under which
nothing is created. -/
theorem references_dangle_named :
    let body := namedProject.constructorBody "shop" namedProject.serviceCodes
    namedProject.services.get? "web" = some webService
      ∧ webService.containerExpr.textsFor networkAttachments = ["front", "shared"]
      ∧ Stmt.textsForAll networkNews body = ["front", "shared-net"]
      ∧ webService.containerExpr.textsFor volumeMounts = ["data"]
      ∧ Stmt.textsForAll volumeNews body = ["shop-data"] := by
  refine ⟨rfl, ?_⟩
  decide +kernel

end Project
end Stackwright
