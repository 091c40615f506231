import Stackwright.Builder.Assembly
import Stackwright.Proofs.Decimal.Infinity
import Stackwright.Proofs.Program.Layout

/-!
# The trees of the builder are well-formed

Every call that a setting becomes can be printed, whatever texts the setting
holds: names of calls are fixed identifiers, groups stand in argument lists, and
a float is written only for a failure ratio.  A ratio is written if it is
positive, so the only one that cannot be printed is infinity.

Main result:

- Theorem `Service.wellFormed_containerExpr`: the container of a service can
  always be printed.
-/

namespace Stackwright

open Program

namespace Program
namespace Expr

/-- Arguments that can be printed on their own can be printed as arguments. -/
theorem argsWellFormed_of_all {args : List Expr} (h : args.all wellFormed = true) :
    argsWellFormed args = true := by
  induction args with
  | nil => simp [argsWellFormed]
  | cons e rest ih =>
      rw [List.all_cons, Bool.and_eq_true] at h
      have he : ∀ items, e ≠ .group items := by
        rintro items rfl
        simp [wellFormed] at h
      rw [argsWellFormed.eq_3 e rest he, h.1, ih h.2]
      rfl

/-- Among arguments that can be printed, each call can be printed. -/
theorem wellFormed_of_mem_args {args : List Expr} (h : argsWellFormed args = true)
    {package : Package} {name : String} {inner : List Expr}
    (hmem : .packageCall package name inner ∈ args) :
    (packageCall package name inner).wellFormed = true := by
  induction args using argsInduction with
  | nil => simp at hmem
  | group items rest ihitems ihrest =>
      rw [argsWellFormed, Bool.and_eq_true] at h
      rcases List.mem_cons.1 hmem with heq | hmem
      · cases heq
      · exact ihrest h.2 hmem
  | cons e rest he ih =>
      rw [argsWellFormed.eq_3 e rest he, Bool.and_eq_true] at h
      rcases List.mem_cons.1 hmem with rfl | hmem
      · exact h.1
      · exact ih h.2 hmem

/-- Arguments cannot be printed if those of a call among them cannot. -/
theorem not_argsWellFormed_of_mem {args : List Expr} {package : Package} {name : String}
    {inner : List Expr} (hmem : .packageCall package name inner ∈ args)
    (h : argsWellFormed inner ≠ true) : argsWellFormed args ≠ true := by
  intro hargs
  have hcall := wellFormed_of_mem_args hargs hmem
  rw [wellFormed, Bool.and_eq_true] at hcall
  exact h hcall.2

/-- A call of a package can be printed if its name is an identifier and its
arguments can be printed. -/
theorem wellFormed_packageCall {package : Package} {name : String} {args : List Expr}
    (hname : isIdentifier name.toList = true) (hargs : args.all wellFormed = true) :
    (packageCall package name args).wellFormed = true := by
  rw [wellFormed, hname, argsWellFormed_of_all hargs]
  rfl

/-- A call of a method can be printed if its receiver and arguments can be printed and its name
is an identifier. -/
theorem wellFormed_methodCall {receiver : Expr} {name : String} {args : List Expr}
    (hreceiver : receiver.wellFormed = true) (hname : isIdentifier name.toList = true)
    (hargs : args.all wellFormed = true) : (methodCall receiver name args).wellFormed = true := by
  rw [wellFormed, hreceiver, hname, argsWellFormed_of_all hargs]
  rfl

@[simp]
theorem wellFormed_string (value : String) : (string value).wellFormed = true :=
  rfl

/-- A list of texts can be printed, whatever is in the texts. -/
@[simp]
theorem wellFormed_strings (values : List String) : (strings values).wellFormed = true := by
  simp [strings, wellFormed, itemsWellFormed_eq, TypeExpr.wellFormed]
  decide

/-- A map of texts can be printed, whatever is in the texts. -/
@[simp]
theorem wellFormed_stringMap (entries : List (String × String)) :
    (stringMap entries).wellFormed = true := by
  simp [stringMap, wellFormed, entriesWellFormed_eq, TypeExpr.wellFormed]
  decide

end Expr

/-! ## Calls -/

namespace Calls

variable {package : Package} {name : String}

/-- A call under an identifier can be printed if its arguments can. -/
theorem all_one (hname : isIdentifier name.toList = true) {args : List Expr}
    (hargs : args.all Expr.wellFormed = true) :
    (one package name args).all Expr.wellFormed = true := by
  simp [one, Expr.wellFormed_packageCall hname hargs]

theorem all_flag (hname : isIdentifier name.toList = true) (on : Bool) :
    (flag package name on).all Expr.wellFormed = true := by
  cases on with
  | false => rfl
  | true => exact all_one hname rfl

/-- A group can be printed if its members can. -/
theorem all_group (hname : isIdentifier name.toList = true) {args : List Expr}
    (hargs : args.all Expr.wellFormed = true) :
    (group package name args).all Expr.wellFormed = true := by
  unfold group
  split
  · rfl
  · exact all_one hname hargs

/-- A group with members is a call with them. -/
theorem mem_group (package : Package) (name : String) {args : List Expr} (hne : args ≠ []) :
    .packageCall package name args ∈ group package name args := by
  simp [group, one, hne]

/-- The call of a text can be printed, whatever the text is. -/
theorem all_text (hname : isIdentifier name.toList = true) (value : Option String) :
    (text package name value).all Expr.wellFormed = true := by
  unfold text
  split
  · exact all_one hname rfl
  · rfl

theorem all_int (hname : isIdentifier name.toList = true) (value : Option Int) :
    (int package name value).all Expr.wellFormed = true := by
  unfold int
  split
  · exact all_one hname rfl
  · rfl

theorem all_uint (hname : isIdentifier name.toList = true) (value : Option Nat) :
    (uint package name value).all Expr.wellFormed = true := by
  unfold uint
  split
  · exact all_one hname rfl
  · rfl

theorem all_duration (hname : isIdentifier name.toList = true) (value : Option Duration) :
    (duration package name value).all Expr.wellFormed = true := by
  unfold duration
  split
  · exact all_one hname rfl
  · rfl

theorem all_texts (hname : isIdentifier name.toList = true) (values : List String) :
    (texts package name values).all Expr.wellFormed = true :=
  all_group hname (by simp)

/-- Calls made for each member of a list can be printed if each of them can. -/
theorem all_map {α : Type} {values : List α} {f : α → Expr}
    (h : ∀ a ∈ values, (f a).wellFormed = true) :
    (values.map f).all Expr.wellFormed = true := by
  simpa using h

/-- The calls of a dictionary can be printed. -/
theorem all_pairs (hname : isIdentifier name.toList = true) (values : Dict String) :
    (pairs package name values).all Expr.wellFormed = true :=
  all_map fun _ _ => Expr.wellFormed_packageCall hname rfl

theorem all_optionalPairs (hname : isIdentifier name.toList = true)
    (values : Dict (Option String)) :
    (optionalPairs package name values).all Expr.wellFormed = true :=
  all_map fun _ _ => Expr.wellFormed_packageCall hname rfl

theorem all_textMap (hname : isIdentifier name.toList = true) (values : Dict String) :
    (textMap package name values).all Expr.wellFormed = true := by
  unfold textMap
  split
  · rfl
  · exact all_one hname (by simp)

theorem all_ulimits (hname : isIdentifier name.toList = true) (limits : Dict Ulimit) :
    (ulimits package name limits).all Expr.wellFormed = true :=
  all_map fun _ _ => Expr.wellFormed_packageCall hname rfl

/-- The calls of secrets can be printed. -/
theorem all_secrets (hname : isIdentifier name.toList = true) (values : List Secret) :
    (secrets package name values).all Expr.wellFormed = true := by
  refine all_map fun secret _ => Expr.wellFormed_packageCall hname ?_
  have huid : (text package "SecretUID" secret.uid).all Expr.wellFormed = true :=
    all_text (by decide) secret.uid
  have hgid : (text package "SecretGID" secret.gid).all Expr.wellFormed = true :=
    all_text (by decide) secret.gid
  have hmode : (secret.mode.map fun mode =>
      Expr.packageCall package "SecretMode" [.literal (.fileMode mode)]).toList.all
        Expr.wellFormed = true := by
    cases secret.mode with
    | none => rfl
    | some mode => exact all_one (by decide) rfl
  simp only [secretArgs, List.all_append, huid, hgid, hmode, Bool.and_true]
  rfl

/-- At most one call can be printed if it can be printed where it is made. -/
theorem all_toList {α : Type} {value : Option α} {f : α → Expr}
    (h : ∀ a, value = some a → (f a).wellFormed = true) :
    (value.map f).toList.all Expr.wellFormed = true := by
  cases value with
  | none => rfl
  | some a => simpa using h a rfl

end Calls
end Program

/-! ## Containers -/

/-- The calls of a health check can be printed. -/
theorem HealthCheck.all_calls (check : HealthCheck) : check.calls.all Expr.wellFormed = true := by
  simp (disch := decide) only [HealthCheck.calls, List.flatten_cons, List.flatten_nil,
    List.all_append, List.all_nil, Calls.all_texts, Calls.all_duration, Calls.all_uint,
    Bool.and_true]

/-- The call of a mount can be printed, whatever is mounted. -/
theorem Mount.wellFormed_call {m : Mount} {e : Expr} (h : m.call? = some e) :
    e.wellFormed = true := by
  unfold Mount.call? at h
  split at h
  · obtain ⟨source, -, rfl⟩ := Option.map_eq_some_iff.1 h
    exact Expr.wellFormed_packageCall (by split <;> decide) rfl
  · split at h
    · cases h
      exact Expr.wellFormed_packageCall (by split <;> decide) rfl
    · split at h
      · cases h
        exact Expr.wellFormed_packageCall (by decide) rfl
      · cases h

theorem RestartPolicy.wellFormed_call (policy : RestartPolicy) :
    policy.call.wellFormed = true := by
  cases policy <;> exact Expr.wellFormed_packageCall (by decide) rfl

theorem Logging.wellFormed_call {l : Logging} {e : Expr} (h : l.call? = some e) :
    e.wellFormed = true := by
  obtain ⟨driver, -, rfl⟩ := Option.map_eq_some_iff.1 h
  exact Expr.wellFormed_packageCall (by decide) (by simp)

theorem Throttle.all_calls {name : String} (hname : isIdentifier name.toList = true)
    (limits : List Throttle) : (Throttle.calls name limits).all Expr.wellFormed = true :=
  Calls.all_map fun _ _ => Expr.wellFormed_packageCall hname rfl

theorem BlockIo.all_fields (b : BlockIo) : b.fields.flatten.all Expr.wellFormed = true := by
  simp (disch := decide) only [BlockIo.fields, List.flatten_cons, List.flatten_nil,
    List.all_append, List.all_nil, Calls.all_uint, Throttle.all_calls, Bool.and_true]

/-- The calls of an endpoint can be printed. -/
theorem Endpoint.all_calls (e : Endpoint) : e.calls.all Expr.wellFormed = true := by
  have haddress : e.addressCalls.all Expr.wellFormed = true := by
    simp (disch := decide) only [Endpoint.addressCalls, List.flatten_cons, List.flatten_nil,
      List.all_append, List.all_nil, Calls.all_text, Calls.all_texts, Bool.and_true]
  simp (disch := decide) only [Endpoint.calls, List.flatten_cons, List.flatten_nil,
    List.all_append, List.all_nil, Calls.all_text, Calls.all_texts, Calls.all_pairs,
    Calls.all_group _ haddress, Bool.and_true]

/-- An attachment to a network can be printed, with or without settings. -/
theorem wellFormed_attachment (macAddress : Option String) (network : String)
    (endpoint : Option Endpoint) : (attachment macAddress network endpoint).wellFormed = true := by
  apply Expr.wellFormed_packageCall (by decide)
  rw [List.all_cons, Expr.wellFormed_string, Bool.true_and]
  cases endpoint with
  | none => exact Calls.all_text (by decide) macAddress
  | some endpoint => exact endpoint.all_calls

namespace Service

/-- The settings of a container can be printed. -/
theorem all_containerCalls (s : Service) : s.containerCalls.all Expr.wellFormed = true := by
  have hexpose : (s.expose.map exposedPort).all Expr.wellFormed = true :=
    Calls.all_map fun _ _ => Expr.wellFormed_packageCall (by decide) rfl
  have hcheck : ((s.healthcheck.filter (!·.disable)).map fun check =>
      Expr.packageCall .container "Healthcheck" check.calls).toList.all Expr.wellFormed = true :=
    Calls.all_toList fun check _ => Expr.wellFormed_packageCall (by decide) check.all_calls
  simp (disch := decide) only [containerCalls, containerFields, List.flatten_cons,
    List.flatten_nil, List.all_append, List.all_nil, Calls.all_text, Calls.all_texts,
    Calls.all_uint, Calls.all_pairs, Calls.all_optionalPairs, Calls.all_flag, hexpose, hcheck,
    Bool.and_true]

/-- The settings of a host can be printed. -/
theorem all_hostCalls (s : Service) : s.hostCalls.all Expr.wellFormed = true := by
  have hports : (s.ports.map Port.call).all Expr.wellFormed = true :=
    Calls.all_map fun _ _ => Expr.wellFormed_packageCall (by decide) rfl
  have hmounts : (s.volumes.filterMap Mount.call?).all Expr.wellFormed = true := by
    rw [List.all_eq_true]
    intro e he
    obtain ⟨mount, -, hcall⟩ := List.mem_filterMap.1 he
    exact Mount.wellFormed_call hcall
  have hrestart : ((s.restart.bind RestartPolicy.parse?).map RestartPolicy.call).toList.all
      Expr.wellFormed = true :=
    Calls.all_toList fun policy _ => policy.wellFormed_call
  have hdevices : (s.devices.map Device.call).all Expr.wellFormed = true :=
    Calls.all_map fun _ _ => Expr.wellFormed_packageCall (by decide) rfl
  have hlogging : (s.logging.bind Logging.call?).toList.all Expr.wellFormed = true := by
    rw [List.all_eq_true]
    intro e he
    obtain ⟨logging, -, hcall⟩ := Option.bind_eq_some_iff.1 (Option.mem_toList.1 he)
    exact Logging.wellFormed_call hcall
  have hblock : ((s.blockIo.map BlockIo.fields).getD []).flatten.all Expr.wellFormed = true := by
    cases s.blockIo with
    | none => rfl
    | some block => exact block.all_fields
  simp (disch := decide) only [hostCalls, hostFields, List.flatten_append, List.flatten_cons,
    List.flatten_nil, List.all_append, List.all_nil, Calls.all_flag, Calls.all_text,
    Calls.all_texts, Calls.all_int, Calls.all_textMap, Calls.all_pairs, Calls.all_ulimits, hports,
    hmounts, hrestart, hdevices, hlogging, hblock, Bool.and_true]

/-- The attachments of a service to networks can be printed. -/
theorem all_endpointCalls (s : Service) : s.endpointCalls.all Expr.wellFormed = true := by
  unfold endpointCalls
  split
  · rfl
  · rw [List.all_cons, wellFormed_attachment, Bool.true_and]
    exact Calls.all_map fun _ _ => wellFormed_attachment _ _ _

/-- The platform of a service can be printed, whatever its shape is. -/
theorem all_platformCalls (s : Service) : s.platformCalls.all Expr.wellFormed = true := by
  have hsetting : ∀ {name : String}, isIdentifier name.toList = true → ∀ value : List Char,
      (Expr.packageCall .platform name [.string (String.ofList value)]).wellFormed = true :=
    fun hname _ => Expr.wellFormed_packageCall hname rfl
  unfold platformCalls
  split
  · rfl
  · dsimp only
    split <;> simp (disch := decide) only [List.all_cons, List.all_nil, hsetting, Bool.and_true]

/-- The container of a service can be printed. -/
theorem wellFormed_containerExpr (s : Service) : s.containerExpr.wellFormed = true := by
  -- The chain of calls grows at its end, so the receiver is general.
  have hchain : ∀ (groups : List (String × List Expr)) (chain : Expr), chain.wellFormed = true →
      (∀ group ∈ groups, isIdentifier group.1.toList = true ∧
        group.2.all Expr.wellFormed = true) →
      (groups.foldl (fun chain group => Expr.methodCall chain group.1 [.group group.2])
        chain).wellFormed = true := by
    intro groups
    induction groups with
    | nil => exact fun _ hchain _ => hchain
    | cons group rest ih =>
        intro chain hchain hgroups
        obtain ⟨hname, hcalls⟩ := hgroups group List.mem_cons_self
        refine ih _ ?_ fun g hg => hgroups g (List.mem_cons_of_mem _ hg)
        simp only [Expr.wellFormed, Expr.argsWellFormed, hchain, hname,
          Expr.argsWellFormed_of_all hcalls, Bool.and_true]
  apply hchain _ _ (Expr.wellFormed_packageCall (by decide) rfl)
  intro group hgroup
  have hmem := (List.mem_filter.1 hgroup).1
  simp only [groups, List.mem_cons, List.not_mem_nil, or_false] at hmem
  rcases hmem with rfl | rfl | rfl | rfl
  · exact ⟨by dsimp only; decide, s.all_containerCalls⟩
  · exact ⟨by dsimp only; decide, s.all_hostCalls⟩
  · exact ⟨by dsimp only; decide, s.all_endpointCalls⟩
  · exact ⟨by dsimp only; decide, s.all_platformCalls⟩

end Service

/-! ## Orchestration settings -/

theorem SshKey.wellFormed_call {key : SshKey} {e : Expr} (h : key.call? = some e) :
    e.wellFormed = true := by
  unfold SshKey.call? at h
  dsimp only at h
  split at h
  · cases h
  · cases h
    exact Expr.wellFormed_packageCall (by decide) rfl

/-- The settings of an image build can be printed. -/
theorem Build.all_calls (b : Build) : b.calls.all Expr.wellFormed = true := by
  have hssh : (b.ssh.filterMap SshKey.call?).all Expr.wellFormed = true := by
    rw [List.all_eq_true]
    intro e he
    obtain ⟨key, -, hcall⟩ := List.mem_filterMap.1 he
    exact SshKey.wellFormed_call hcall
  have hhosts : (b.extraHosts.sorted.flatMap fun entry => entry.2.map fun address =>
      Expr.packageCall .build "ExtraHost" [.string entry.1, .string address]).all
        Expr.wellFormed = true := by
    rw [List.all_flatMap, List.all_eq_true]
    exact fun _ _ => Calls.all_map fun _ _ => Expr.wellFormed_packageCall (by decide) rfl
  simp (disch := decide) only [Build.calls, Build.fields, List.flatten_cons, List.flatten_nil,
    List.all_append, List.all_nil, Calls.all_flag, Calls.all_text, Calls.all_texts,
    Calls.all_pairs, Calls.all_optionalPairs, Calls.all_ulimits, Calls.all_secrets, hssh, hhosts,
    Bool.and_true]

/-- The settings of one side of the resource constraints can be printed. -/
theorem Resource.all_calls (r : Resource) : r.calls.all Expr.wellFormed = true := by
  have hdevices : (r.devices.map DeviceRequest.call).all Expr.wellFormed = true := by
    refine Calls.all_map fun device _ => Expr.wellFormed_packageCall (by decide) ?_
    simp (disch := decide) only [List.flatten_cons, List.flatten_nil, List.all_append,
      List.all_nil, Calls.all_text, Calls.all_texts, Calls.all_int, Bool.and_true]
  simp (disch := decide) only [Resource.calls, List.flatten_cons, List.flatten_nil,
    List.all_append, List.all_nil, Calls.all_int, hdevices, Bool.and_true]

/-- A float can be printed if it is finite. -/
theorem wellFormed_ratio (ratio : Float) :
    (Expr.packageCall .deploy "MaxFailureRatio" [.literal (.float ratio)]).wellFormed
      = ratio.isFinite := by
  have hname : isIdentifier "MaxFailureRatio".toList = true := by decide
  rw [Expr.wellFormed, hname, Bool.true_and, Expr.argsWellFormed, Bool.and_comm]
  · rfl
  · rintro items ⟨⟩

namespace UpdatePolicy

/-- The settings of an update can be printed if its failure ratio is not infinite. -/
theorem all_calls {u : UpdatePolicy} (h : u.maxFailureRatio ≠ some Decimal.infinity) :
    u.calls.all Expr.wellFormed = true := by
  have hratio : ((u.maxFailureRatio.filter (· > 0.0)).map fun ratio =>
      Expr.packageCall .deploy "MaxFailureRatio" [.literal (.float ratio)]).toList.all
        Expr.wellFormed = true := by
    apply Calls.all_toList
    intro ratio hsome
    obtain ⟨hsome, hpos⟩ := Option.filter_eq_some_iff.1 hsome
    rw [wellFormed_ratio, ← Bool.not_eq_false]
    intro hinfinite
    have hpos : 0.0 < ratio := of_decide_eq_true hpos
    rw [(Decimal.isFinite_eq_false_iff_of_pos hpos).1 hinfinite] at hsome
    exact h hsome
  simp (disch := decide) only [calls, List.flatten_cons, List.flatten_nil, List.all_append,
    List.all_nil, Calls.all_uint, Calls.all_duration, Calls.all_text, hratio, Bool.and_true]

/-- The settings of an update with an infinite failure ratio cannot be printed. -/
theorem not_argsWellFormed_calls {u : UpdatePolicy}
    (h : u.maxFailureRatio = some Decimal.infinity) :
    Expr.argsWellFormed u.calls ≠ true := by
  intro hargs
  have hmem : Expr.packageCall .deploy "MaxFailureRatio" [.literal (.float Decimal.infinity)]
      ∈ u.calls := by
    have hfilter : (some Decimal.infinity).filter (· > 0.0) = some Decimal.infinity :=
      Option.filter_eq_some_iff.2 ⟨rfl, decide_eq_true Decimal.infinity_pos⟩
    simp [calls, h, hfilter]
  have hwell := Expr.wellFormed_of_mem_args hargs hmem
  rw [wellFormed_ratio, (Decimal.isFinite_eq_false_iff_of_pos Decimal.infinity_pos).2 rfl] at hwell
  cases hwell

end UpdatePolicy

namespace Deploy

/-- An update or a rollback has an infinite failure ratio. -/
def HasInfiniteRatio (d : Deploy) : Prop :=
  ∃ policy, (d.updateConfig = some policy ∨ d.rollbackConfig = some policy)
    ∧ policy.maxFailureRatio = some Decimal.infinity

/-- The settings of a deployment without an infinite failure ratio can be printed. -/
theorem all_calls {d : Deploy} (h : ¬ d.HasInfiniteRatio) :
    d.calls.all Expr.wellFormed = true := by
  have hpolicy : ∀ policy : Option UpdatePolicy,
      (policy = d.updateConfig ∨ policy = d.rollbackConfig) →
      ((policy.map UpdatePolicy.calls).getD []).all Expr.wellFormed = true := by
    intro policy hpolicy
    cases policy with
    | none => rfl
    | some policy =>
        refine UpdatePolicy.all_calls fun hratio => h ⟨policy, ?_, hratio⟩
        exact hpolicy.imp Eq.symm Eq.symm
  have hresource : ∀ resource : Option Resource,
      ((resource.map Resource.calls).getD []).all Expr.wellFormed = true := by
    intro resource
    cases resource with
    | none => rfl
    | some resource => exact resource.all_calls
  simp (disch := decide) only [calls, fields, List.flatten_cons, List.flatten_nil,
    List.all_append, List.all_nil, Calls.all_uint, Calls.all_text, Calls.all_pairs,
    Calls.all_group _ (hpolicy _ (.inl rfl)), Calls.all_group _ (hpolicy _ (.inr rfl)),
    Calls.all_group _ (hresource _), Bool.and_true]

/-- The settings of a deployment with an infinite failure ratio cannot be printed. -/
theorem not_argsWellFormed_calls {d : Deploy} (h : d.HasInfiniteRatio) :
    Expr.argsWellFormed d.calls ≠ true := by
  obtain ⟨policy, hpolicy, hratio⟩ := h
  have hcalls := UpdatePolicy.not_argsWellFormed_calls hratio
  have hne : policy.calls ≠ [] := by
    intro hnil
    rw [hnil] at hcalls
    exact hcalls (by simp [Expr.argsWellFormed])
  rcases hpolicy with hupdate | hrollback
  · have hmem : Calls.group .deploy "UpdateConfig" policy.calls ∈ d.fields := by
      simp [fields, hupdate]
    exact Expr.not_argsWellFormed_of_mem
      (List.mem_flatten.2 ⟨_, hmem, Calls.mem_group .deploy "UpdateConfig" hne⟩) hcalls
  · have hmem : Calls.group .deploy "RollbackConfig" policy.calls ∈ d.fields := by
      simp [fields, hrollback]
    exact Expr.not_argsWellFormed_of_mem
      (List.mem_flatten.2 ⟨_, hmem, Calls.mem_group .deploy "RollbackConfig" hne⟩) hcalls

end Deploy

namespace Service

/-- An update or a rollback of the service has an infinite failure ratio. -/
def HasInfiniteRatio (s : Service) : Prop :=
  ∃ deploy, s.deploy = some deploy ∧ deploy.HasInfiniteRatio

/-- Orchestration settings without an infinite failure ratio can be printed. -/
theorem all_orchestrationCalls {s : Service} (h : ¬ s.HasInfiniteRatio) :
    s.orchestrationCalls.all Expr.wellFormed = true := by
  have hwatch : ((s.develop.map fun develop => develop.watch.map WatchRule.call).getD []).all
      Expr.wellFormed = true := by
    cases s.develop with
    | none => rfl
    | some develop =>
        refine Calls.all_map fun rule _ => Expr.wellFormed_packageCall (by decide) ?_
        by_cases hignore : rule.ignore.isEmpty = true
        · rw [if_pos hignore]
          rfl
        · rw [if_neg hignore]
          simp
  have hbuild : (s.build.map fun build =>
      Expr.packageCall .service "Build" build.calls).toList.all Expr.wellFormed = true :=
    Calls.all_toList fun build _ => Expr.wellFormed_packageCall (by decide) build.all_calls
  have hdepends : (s.dependsOn.sorted.map fun entry => entry.2.call entry.1).all
      Expr.wellFormed = true :=
    Calls.all_map fun _ _ => Expr.wellFormed_packageCall (by split <;> decide) rfl
  have henv : ((s.envFile.filter (!·.path.isEmpty)).map fun file =>
      Expr.packageCall .service "EnvFile" [.string file.path]).all Expr.wellFormed = true :=
    Calls.all_map fun _ _ => Expr.wellFormed_packageCall (by decide) rfl
  have hdeploy : (s.deploy.map fun deploy =>
      Expr.packageCall .service "Deploy" deploy.calls).toList.all Expr.wellFormed = true := by
    refine Calls.all_toList fun deploy hsome => Expr.wellFormed_packageCall (by decide) ?_
    exact Deploy.all_calls fun hratio => h ⟨deploy, hsome, hratio⟩
  simp (disch := decide) only [orchestrationCalls, orchestrationFields, List.flatten_cons,
    List.flatten_nil, List.all_append, List.all_nil, Calls.all_pairs, Calls.all_flag,
    Calls.all_secrets, Calls.all_texts, Calls.all_text, hwatch, hbuild, hdepends, henv, hdeploy,
    Bool.and_true]

/-- Orchestration settings with an infinite failure ratio cannot be printed. -/
theorem not_argsWellFormed_orchestrationCalls {s : Service} (h : s.HasInfiniteRatio) :
    Expr.argsWellFormed s.orchestrationCalls ≠ true := by
  obtain ⟨deploy, hsome, hratio⟩ := h
  have hmem : [Expr.packageCall .service "Deploy" deploy.calls] ∈ s.orchestrationFields := by
    simp [orchestrationFields, hsome]
  exact Expr.not_argsWellFormed_of_mem (List.mem_flatten.2 ⟨_, hmem, List.mem_singleton_self _⟩)
    (Deploy.not_argsWellFormed_calls hratio)

/-- The orchestration settings of a service can be printed exactly if no failure ratio of it is
infinite. -/
theorem wellFormed_orchestrationExpr_iff (s : Service) :
    s.orchestrationExpr.all Expr.wellFormed = true ↔ ¬ s.HasInfiniteRatio := by
  have hexpr : s.orchestrationExpr.all Expr.wellFormed
      = Expr.argsWellFormed s.orchestrationCalls := by
    have hname : isIdentifier "NewService".toList = true := by decide
    unfold orchestrationExpr
    cases hcalls : s.orchestrationCalls with
    | nil => simp [Expr.argsWellFormed]
    | cons e rest =>
        simp only [List.isEmpty_cons, Bool.false_eq_true, if_false, Option.all_some,
          Expr.wellFormed, hname, Bool.true_and, Expr.argsWellFormed.eq_2, Expr.argsWellFormed.eq_1,
          Bool.and_true]
  rw [hexpr]
  constructor
  · exact fun hargs hratio => not_argsWellFormed_orchestrationCalls hratio hargs
  · exact fun hratio => Expr.argsWellFormed_of_all (all_orchestrationCalls hratio)

end Service
end Stackwright
