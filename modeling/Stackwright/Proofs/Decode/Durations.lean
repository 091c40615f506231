import Mathlib.Algebra.Order.Ring.Int
import Stackwright.Decode.Project
import Stackwright.Proofs.Decode.Invariants

/-!
# Durations of a descriptor

A duration is written as a number of seconds or as a compact text.  The number is a signed
integer of sixty-four bits, and a text stops at the largest unsigned number of nanoseconds, so
the longest duration is that of the largest signed number of seconds.

Main results:

- Theorem `written_optDuration`: what a duration of a descriptor can be.
- Theorem `written_of_project`: every duration of a project is of this kind.
-/

namespace Stackwright

/-- Whether a duration can be written in a descriptor, as a signed number of seconds or as a sum
of nanoseconds within sixty-four bits. -/
def Duration.Written (d : Duration) : Prop :=
  d.nanoseconds < 2 ^ 64 ∨ ∃ seconds < 2 ^ 63, d = .ofSeconds seconds

/-- Whether every duration of a health check has a property. -/
def HealthCheck.AllDurations (P : Duration → Prop) (check : HealthCheck) : Prop :=
  (∀ d ∈ check.interval, P d) ∧ (∀ d ∈ check.timeout, P d) ∧ ∀ d ∈ check.startPeriod, P d

/-- Whether the delay and the monitoring time of an update or a rollback have a property each. -/
def UpdatePolicy.AllDurations (P Q : Duration → Prop) (u : UpdatePolicy) : Prop :=
  (∀ d ∈ u.delay, P d) ∧ ∀ d ∈ u.monitor, Q d

/-- Whether the delays and the monitoring times of a deployment have a property each. -/
def Deploy.AllDurations (P Q : Duration → Prop) (d : Deploy) : Prop :=
  (∀ u ∈ d.updateConfig, u.AllDurations P Q) ∧ ∀ u ∈ d.rollbackConfig, u.AllDurations P Q

namespace Decode

open Reader

/-! ## Scalars -/

/-- An integer that is read within bounds is below the upper one. -/
theorem gives_intIn (low high : Int) : (intIn low high).Gives fun n => n < high := by
  intro place t n hn
  unfold intIn at hn
  split at hn
  · split at hn
    · cases hn
      omega
    · cases hn
  · cases hn

/-- An integer that is read as a scalar is signed with sixty-four bits. -/
theorem gives_scalar : scalar.Gives fun s => ∀ n, s = .int n → n < 2 ^ 63 := by
  have hother {α : Type} {r : Reader α} {f : α → Scalar} (h : ∀ a n, f a ≠ .int n) :
      (r.map f).Gives fun s => ∀ n, s = .int n → n < 2 ^ 63 :=
    gives_map (P := fun _ => True) (fun _ _ _ _ => trivial) fun a _ n hn => absurd hn (h a n)
  refine gives_oneOf (List.forall_mem_cons.2 ⟨hother (by simp), List.forall_mem_cons.2 ⟨?_,
    List.forall_mem_cons.2 ⟨hother (by simp), List.forall_mem_singleton.2 (hother (by simp))⟩⟩⟩)
  refine gives_map (gives_intIn _ _) fun n hn m hm => ?_
  cases hm
  simpa using hn

/-- A compact text gives at most the largest number of nanoseconds in sixty-four bits. -/
theorem nanoseconds_parse_lt {text : String} {d : Duration} (h : Duration.parse text = .ok d) :
    d.nanoseconds < 2 ^ 64 := by
  unfold Duration.parse at h
  dsimp only at h
  split at h
  · cases h
    decide
  · split at h
    · cases h
      exact UInt64.toNat_lt _
    · cases h

/-- A duration that is read from a scalar can be written in a descriptor. -/
theorem written_durationOf {s : Scalar} (hs : ∀ n, s = .int n → n < 2 ^ 63) {d : Duration}
    (h : durationOf s = .ok d) : d.Written := by
  have hparse (text : String) (h : (Duration.parse text).mapError Fault.duration = .ok d) :
      d.Written := by
    cases hd : Duration.parse text with
    | error fault =>
        rw [hd] at h
        cases h
    | ok parsed =>
        rw [hd] at h
        cases h
        exact .inl (nanoseconds_parse_lt hd)
  cases s with
  | int n =>
      have hn := hs n rfl
      simp only [durationOf] at h
      split at h
      · cases h
        exact .inr ⟨n.toNat, by omega, rfl⟩
      · cases h
  | bool b => exact hparse _ h
  | float x => exact hparse _ h
  | text s => exact hparse _ h

/-- A duration of a descriptor can be written there. -/
theorem written_optDuration : optDuration.Gives fun value => ∀ d ∈ value, d.Written := by
  refine gives_check (gives_optional gives_scalar) fun value result hvalue hresult d hd => ?_
  cases value with
  | none =>
      cases hresult
      cases hd
  | some s =>
      obtain ⟨parsed, hparsed, rfl⟩ := map_eq_ok_iff.1 hresult
      cases hd
      exact written_durationOf (hvalue s rfl) hparsed

/-! ## Records -/

/-- A health check whose durations can be written. -/
abbrev WrittenCheck : HealthCheck → Prop :=
  HealthCheck.AllDurations Duration.Written

/-- A deployment whose durations can be written. -/
abbrev WrittenDeploy : Deploy → Prop :=
  Deploy.AllDurations Duration.Written Duration.Written

/-- The durations of a health check can be written. -/
theorem gives_healthCheck : (record healthCheckFields {}).Gives WrittenCheck := by
  refine gives_record ?_ ⟨by simp, by simp, by simp⟩
  simp only [healthCheckFields, List.forall_mem_cons, List.not_mem_nil, false_imp_iff, implies_true,
    and_true]
  refine ⟨keeps_other fun _ _ h => h, ?_, ?_, ?_, keeps_other fun _ _ h => h,
    keeps_other fun _ _ h => h⟩
  · exact keeps_field written_optDuration fun _ _ hvalue h => ⟨hvalue, h.2⟩
  · exact keeps_field written_optDuration fun _ _ hvalue h => ⟨h.1, hvalue, h.2.2⟩
  · exact keeps_field written_optDuration fun _ _ hvalue h => ⟨h.1, h.2.1, hvalue⟩

/-- The delay and the monitoring time of an update can be written. -/
theorem gives_update :
    (record updateFields {}).Gives (UpdatePolicy.AllDurations Duration.Written Duration.Written) := by
  refine gives_record ?_ ⟨by simp, by simp⟩
  simp only [updateFields, List.forall_mem_cons, List.not_mem_nil, false_imp_iff, implies_true,
    and_true]
  refine ⟨keeps_other fun _ _ h => h, ?_, keeps_other fun _ _ h => h, ?_,
    keeps_other fun _ _ h => h, keeps_other fun _ _ h => h⟩
  · exact keeps_field written_optDuration fun _ _ hvalue h => ⟨hvalue, h.2⟩
  · exact keeps_field written_optDuration fun _ _ hvalue h => ⟨h.1, hvalue⟩

theorem gives_deploy : (record deployFields {}).Gives WrittenDeploy := by
  refine gives_record ?_ ⟨by simp, by simp⟩
  simp only [deployFields, List.forall_mem_cons, List.not_mem_nil, false_imp_iff, implies_true,
    and_true]
  refine ⟨keeps_other fun _ _ h => h, keeps_other fun _ _ h => h, keeps_other fun _ _ h => h, ?_, ?_,
    keeps_other fun _ _ h => h⟩
  · exact keeps_field (gives_optional gives_update) fun _ _ hvalue h => ⟨hvalue, h.2⟩
  · exact keeps_field (gives_optional gives_update) fun _ _ hvalue h => ⟨h.1, hvalue⟩

/-- A service whose durations can be written. -/
def WrittenService (s : Service) : Prop :=
  (∀ check ∈ s.healthcheck, WrittenCheck check) ∧ ∀ deploy ∈ s.deploy, WrittenDeploy deploy

/-- The durations of a service stand in its health check and its deployment only. -/
theorem gives_service : service.Gives WrittenService := by
  refine gives_record ?_ ⟨by simp, by simp⟩
  unfold serviceFields
  -- The literal of a long list is elaborated in blocks, each bound to a name.
  dsimp only
  repeat refine List.forall_mem_cons.2 ⟨keeps_other fun _ _ h => h, ?_⟩
  refine List.forall_mem_cons.2 ⟨keeps_field (gives_optional gives_healthCheck)
    fun _ _ hvalue h => ⟨hvalue, h.2⟩, ?_⟩
  repeat refine List.forall_mem_cons.2 ⟨keeps_other fun _ _ h => h, ?_⟩
  refine List.forall_mem_cons.2 ⟨keeps_field (gives_optional gives_deploy)
    fun _ _ hvalue h => ⟨h.1, hvalue⟩, ?_⟩
  exact List.forall_mem_nil _

/-- A descriptor whose services have durations that can be written. -/
def WrittenServices (d : Descriptor) : Prop :=
  ∀ entry ∈ d.services.entries, ∀ s ∈ entry.2, WrittenService s

theorem gives_descriptor : descriptor.Gives WrittenServices := by
  refine gives_record ?_ (fun _ h => absurd h List.not_mem_nil)
  simp only [descriptorFields, List.forall_mem_cons, List.not_mem_nil, false_imp_iff, implies_true,
    and_true]
  refine ⟨keeps_other fun _ _ h => h, ?_, keeps_other fun _ _ h => h, keeps_other fun _ _ h => h⟩
  exact keeps_field (gives_dict (gives_optional gives_service)) fun _ _ hvalue _ => hvalue

theorem written_normalizeCheck {check : HealthCheck} (h : WrittenCheck check) :
    WrittenCheck (normalizeCheck check) := by
  unfold normalizeCheck
  split
  · exact h
  · exact h

/-- The normal form of a service has the durations that are written. -/
theorem written_normalizeService {name : String} {s : Service} (h : WrittenService s) :
    WrittenService (normalizeService name s) := by
  refine ⟨fun check hcheck => ?_, h.2⟩
  obtain ⟨written, hwritten, rfl⟩ := Option.map_eq_some_iff.1 hcheck
  exact written_normalizeCheck (h.1 written hwritten)

/-- Every duration of a project can be written in a descriptor. -/
theorem written_of_project {t : Document.Tree} {p : Project} (h : project t = .ok p) :
    ∀ s ∈ p.services.values, WrittenService s := by
  obtain ⟨d, hd, rfl⟩ := map_eq_ok_iff.1 h
  have hservices := gives_descriptor _ _ d hd
  intro s hs
  simp only [Descriptor.project, Dict.values, Dict.map, List.map_map, List.mem_map] at hs
  obtain ⟨entry, hentry, rfl⟩ := hs
  refine written_normalizeService ?_
  cases hvalue : entry.2 with
  | none => exact ⟨by simp, by simp⟩
  | some written => exact hservices entry hentry written hvalue

end Decode
end Stackwright
