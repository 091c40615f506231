import Stackwright.Proofs.Builder.Durations
import Stackwright.Proofs.Decode.Durations
import Stackwright.Proofs.LoadFiles

/-!
# The range of durations

A program counts durations in signed nanoseconds of sixty-four bits.  Nothing keeps a descriptor
from a longer duration: the largest number of seconds is a billion times the largest number of
nanoseconds.  So a program has only durations in range exactly if its descriptor has, where a
delay may come into range or leave it when it is rounded.

Main results:

- Theorem `Project.forall_durations_iff`: a property of all durations of a program, as one of the
  durations of its services.
- Theorem `Project.overflows_of_ofText`: rounding a delay of a descriptor does not overflow.
- Theorem `duration_bound_iff`: the bound that all durations of a program have, and which
  projects have programs with all durations in range.
-/

namespace Stackwright

open Program

/-! ## Durations with a property -/

section

variable {P : Duration → Prop}

/-- A property of zero holds of all durations that are not zero if it holds of all. -/
theorem forall_lasting_iff (hzero : P ⟨0⟩) {value : Option Duration} :
    (∀ d ∈ lasting value, P d) ↔ ∀ d ∈ value, P d := by
  cases value with
  | none => simp [lasting]
  | some d =>
      by_cases hd : d.isZero = true
      · have heq : d = ⟨0⟩ := by
          cases d
          simpa [Duration.isZero] using hd
        simp [lasting, Option.filter_some, heq, hzero]
      · simp [lasting, Option.filter_some, hd]

/-- The durations that a health check gives are its own but for zeros. -/
theorem HealthCheck.forall_durations_iff (hzero : P ⟨0⟩) {check : HealthCheck} :
    (∀ d ∈ check.durations, P d) ↔ check.AllDurations P := by
  simp only [durations, List.forall_mem_append, forall_lasting_iff hzero, AllDurations, and_assoc]

/-- The durations that an update gives are its delay, rounded, and its monitoring time, cut. -/
theorem UpdatePolicy.forall_durations_iff (hzero : P ⟨0⟩) {u : UpdatePolicy} :
    (∀ d ∈ u.durations, P d) ↔ u.AllDurations (P ·.round) (P ·.truncate) := by
  simp [durations, or_imp, forall_and, forall_lasting_iff hzero, AllDurations]

theorem Deploy.forall_durations_iff (hzero : P ⟨0⟩) {deploy : Deploy} :
    (∀ d ∈ deploy.durations, P d) ↔ deploy.AllDurations (P ·.round) (P ·.truncate) := by
  have hpolicy (policy : Option UpdatePolicy) :
      (∀ d ∈ (policy.map UpdatePolicy.durations).getD [], P d)
        ↔ ∀ u ∈ policy, u.AllDurations (P ·.round) (P ·.truncate) := by
    cases policy <;> simp [UpdatePolicy.forall_durations_iff hzero]
  simp only [durations, List.forall_mem_append, hpolicy, AllDurations]

/-- Whether the durations of a health check that is enabled, the delays and the monitoring times
of a service have a property each. -/
def Service.AllDurations (P Q R : Duration → Prop) (s : Service) : Prop :=
  (∀ check ∈ s.healthcheck, check.disable = false → check.AllDurations P) ∧
    ∀ deploy ∈ s.deploy, deploy.AllDurations Q R

/-- The durations that a service gives are those of its health check and its deployment. -/
theorem Service.forall_durations_iff (hzero : P ⟨0⟩) {s : Service} :
    (∀ d ∈ s.durations, P d) ↔ s.AllDurations P (P ·.round) (P ·.truncate) := by
  have hcheck : (∀ d ∈ ((s.healthcheck.filter (!·.disable)).map HealthCheck.durations).getD [], P d)
      ↔ ∀ check ∈ s.healthcheck, check.disable = false → check.AllDurations P := by
    cases s.healthcheck with
    | none => simp
    | some check =>
        cases hdisable : check.disable <;>
          simp [Option.filter_some, hdisable, HealthCheck.forall_durations_iff hzero]
  have hdeploy : (∀ d ∈ (s.deploy.map Deploy.durations).getD [], P d)
      ↔ ∀ deploy ∈ s.deploy, deploy.AllDurations (P ·.round) (P ·.truncate) := by
    cases s.deploy <;> simp [Deploy.forall_durations_iff hzero]
  simp only [durations, List.forall_mem_append, hcheck, hdeploy, AllDurations]

/-- All durations of a program have a property if those of its services have. -/
theorem Project.forall_durations_iff (hzero : P ⟨0⟩) {p : Project} {options : GenerateOptions}
    {file : File} (h : p.assemble options = .ok file) :
    (∀ d ∈ file.durations, P d)
      ↔ ∀ s ∈ p.services.values, s.AllDurations P (P ·.round) (P ·.truncate) := by
  simp only [durations_assemble h, ← Service.forall_durations_iff hzero, List.mem_flatMap,
    mem_sortedServices]
  constructor
  · intro h s hs d hd
    exact h d ⟨s, hs, hd⟩
  · rintro h d ⟨s, hs, hd⟩
    exact h s hs d hd

end

/-! ## Ranges -/

/-- The largest signed number of sixty-four bits. -/
def maxSigned : Nat := 9223372036854775807

namespace Duration

variable {d : Duration}

/-- Rounding adds half a second and cuts, if it does not overflow. -/
theorem round_nanoseconds (h : d.roundOverflows = false) :
    d.round.nanoseconds = (d.nanoseconds + 500000000) / 1000000000 * 1000000000 := by
  have hlimit : d.seconds + d.carry < secondsLimit := by simpa [roundOverflows] using h
  rw [round, ofSeconds, Nat.mod_eq_of_lt hlimit, seconds_add_carry, perSecond]

/-- A delay is rounded into range if it is less than half a second beyond the whole seconds in
range. -/
theorem round_le_iff (h : d.roundOverflows = false) :
    d.round.nanoseconds ≤ maxSigned ↔ d.nanoseconds < 9223372036500000000 := by
  rw [round_nanoseconds h, maxSigned]
  omega

/-- A monitoring time is cut into range if it is less than a second beyond the whole seconds in
range. -/
theorem truncate_le_iff :
    d.truncate.nanoseconds ≤ maxSigned ↔ d.nanoseconds < 9223372037000000000 := by
  simp only [truncate, ofSeconds, seconds, perSecond, maxSigned]
  omega

namespace Written

variable (h : d.Written)

include h

/-- A duration of a descriptor is at most the largest signed number of seconds. -/
theorem nanoseconds_le : d.nanoseconds ≤ maxSigned * perSecond := by
  rcases h with h | ⟨seconds, hseconds, rfl⟩
  · simp only [maxSigned, perSecond]
    omega
  · simp only [ofSeconds, maxSigned, perSecond]
    omega

/-- Rounding a duration of a descriptor does not overflow. -/
theorem roundOverflows : d.roundOverflows = false := by
  have hseconds : d.seconds ≤ maxSigned := Nat.div_le_of_le_mul (by
    rw [Nat.mul_comm]
    exact h.nanoseconds_le)
  have hcarry : d.carry ≤ 1 := by
    unfold carry
    split <;> omega
  have hlimit : maxSigned + 1 < secondsLimit := by decide
  rw [Duration.roundOverflows, decide_eq_false_iff_not]
  omega

/-- It is so too when it is rounded. -/
theorem round_nanoseconds_le : d.round.nanoseconds ≤ maxSigned * perSecond := by
  rw [round_nanoseconds h.roundOverflows]
  rcases h with h | ⟨seconds, hseconds, rfl⟩
  · simp only [maxSigned, perSecond]
    omega
  · simp only [ofSeconds, maxSigned, perSecond]
    omega

theorem truncate_nanoseconds_le : d.truncate.nanoseconds ≤ maxSigned * perSecond := by
  refine Nat.le_trans ?_ h.nanoseconds_le
  exact Nat.div_mul_le_self _ _

end Written
end Duration

/-! ## Services of descriptors -/

section

variable {P Q Q' R : Duration → Prop}

/-- Properties of delays that are the same for those of a descriptor are the same for an update. -/
theorem UpdatePolicy.allDurations_congr (hQ : ∀ d : Duration, d.Written → (Q d ↔ Q' d))
    {u : UpdatePolicy} (hu : u.AllDurations Duration.Written Duration.Written) :
    u.AllDurations Q R ↔ u.AllDurations Q' R :=
  and_congr_left' (forall₂_congr fun d hd => hQ d (hu.1 d hd))

/-- Properties of delays that are the same for those of a descriptor are the same for a service. -/
theorem Service.allDurations_congr (hQ : ∀ d : Duration, d.Written → (Q d ↔ Q' d)) {s : Service}
    (hs : Decode.WrittenService s) : s.AllDurations P Q R ↔ s.AllDurations P Q' R := by
  refine and_congr_right' (forall₂_congr fun deploy hdeploy => ?_)
  obtain ⟨hupdate, hrollback⟩ := hs.2 deploy hdeploy
  refine and_congr (forall₂_congr fun u hu => ?_) (forall₂_congr fun u hu => ?_)
  · exact UpdatePolicy.allDurations_congr hQ (hupdate u hu)
  · exact UpdatePolicy.allDurations_congr hQ (hrollback u hu)

end

/-- Rounding the delay of an update of a descriptor does not overflow. -/
theorem UpdatePolicy.overflows_of_written {u : UpdatePolicy}
    (h : u.AllDurations Duration.Written Duration.Written) : u.overflows = false := by
  rw [overflows, Option.any_eq_false]
  exact fun d hd => (h.1 d hd).roundOverflows

/-- Rounding the delays of a service of a descriptor does not overflow. -/
theorem Service.overflows_of_written {s : Service} (h : Decode.WrittenService s) :
    s.overflows = false := by
  rw [overflows, Option.any_eq_false]
  intro deploy hdeploy
  obtain ⟨hupdate, hrollback⟩ := h.2 deploy hdeploy
  rw [Deploy.overflows, Bool.or_eq_false_iff, Option.any_eq_false, Option.any_eq_false]
  exact ⟨fun u hu => UpdatePolicy.overflows_of_written (hupdate u hu),
    fun u hu => UpdatePolicy.overflows_of_written (hrollback u hu)⟩

/-! ## Programs of descriptors -/

/-- Every duration of a project that is read from a text can be written in a descriptor. -/
theorem Project.written_of_ofText {lookup : Template.Lookup} {text : String} {p : Project}
    (h : ofText lookup text = .ok p) : ∀ s ∈ p.services.values, Decode.WrittenService s := by
  obtain ⟨tree, -, h⟩ := bind_eq_ok_iff.1 h
  obtain ⟨q, hq, rfl⟩ := map_eq_ok_iff.1 h
  rw [(q.orNamed_parts fallbackName).1]
  unfold ofTree at hq
  split at hq
  · cases hq
  · split at hq
    · cases hq
    · cases hq
      exact Decode.written_of_project ‹_›

/-- A generator for the project of a text never stops at an overflow, however it is built. -/
theorem Project.overflows_of_ofText {lookup : Template.Lookup} {text : String} {p : Project}
    (h : ofText lookup text = .ok p) : p.overflows = false := by
  rw [overflows, List.any_eq_false]
  intro s hs
  rw [Service.overflows_of_written (written_of_ofText h s (mem_sortedServices.1 hs))]
  exact Bool.false_ne_true

/-- No duration in the program of a descriptor is longer than the largest signed number of
seconds.  All of them are in the range of signed nanoseconds exactly if those of the health
checks that are enabled are, and the delays and the monitoring times are once they are rounded. -/
theorem duration_bound_iff {lookup : Template.Lookup} {text : String} {p : Project}
    {options : GenerateOptions} {file : File} (hload : Project.ofText lookup text = .ok p)
    (hfile : p.assemble options = .ok file) :
    (∀ d ∈ file.durations, d.nanoseconds ≤ maxSigned * Duration.perSecond) ∧
      ((∀ d ∈ file.durations, d.nanoseconds ≤ maxSigned) ↔
        ∀ s ∈ p.services.values,
          s.AllDurations (·.nanoseconds ≤ maxSigned) (·.nanoseconds < 9223372036500000000)
            (·.nanoseconds < 9223372037000000000)) := by
  constructor
  · rw [Project.forall_durations_iff (P := (·.nanoseconds ≤ maxSigned * Duration.perSecond))
      (Nat.zero_le _) hfile]
    intro s hs
    obtain ⟨hcheck, hdeploy⟩ := Project.written_of_ofText hload s hs
    have hpolicy (u : UpdatePolicy) (h : u.AllDurations Duration.Written Duration.Written) :
        u.AllDurations (fun d => d.round.nanoseconds ≤ maxSigned * Duration.perSecond)
          (fun d => d.truncate.nanoseconds ≤ maxSigned * Duration.perSecond) :=
      ⟨fun d hd => (h.1 d hd).round_nanoseconds_le, fun d hd => (h.2 d hd).truncate_nanoseconds_le⟩
    refine ⟨fun check hmem _ => ?_, fun deploy hmem => ?_⟩
    · obtain ⟨hinterval, htimeout, hstart⟩ := hcheck check hmem
      exact ⟨fun d hd => (hinterval d hd).nanoseconds_le, fun d hd => (htimeout d hd).nanoseconds_le,
        fun d hd => (hstart d hd).nanoseconds_le⟩
    · obtain ⟨hupdate, hrollback⟩ := hdeploy deploy hmem
      exact ⟨fun u hu => hpolicy u (hupdate u hu), fun u hu => hpolicy u (hrollback u hu)⟩
  · rw [Project.forall_durations_iff (P := (·.nanoseconds ≤ maxSigned)) (Nat.zero_le _) hfile]
    simp only [Duration.truncate_le_iff]
    refine forall₂_congr fun s hs => ?_
    exact Service.allDurations_congr (fun d hd => Duration.round_le_iff hd.roundOverflows)
      (Project.written_of_ofText hload s hs)

/-- A descriptor with a health check every five seconds. -/
def promptText : String :=
  "services: {web: {healthcheck: {interval: 5}}}\n"

/-- A descriptor with a health check at the longest interval. -/
def rareText : String :=
  "services: {web: {healthcheck: {interval: 9223372036854775807}}}\n"

/-- The durations in the program of a descriptor without variables. -/
def durationsOf (text : String) : Option (List Duration) :=
  (Project.ofText (fun _ => none) text).toOption.bind fun p =>
    (p.assemble {}).toOption.map File.durations

/-- The project and the program of a descriptor whose durations are known. -/
theorem exists_of_durationsOf {text : String} {durations : List Duration}
    (h : durationsOf text = some durations) :
    ∃ p file, Project.ofText (fun _ => none) text = .ok p ∧ p.assemble {} = .ok file ∧
      file.durations = durations := by
  unfold durationsOf at h
  cases hload : Project.ofText (fun _ => none) text with
  | error e =>
      rw [hload] at h
      cases h
  | ok p =>
      rw [hload] at h
      cases hfile : p.assemble {} with
      | error e => simp [Except.toOption, hfile] at h
      | ok file =>
          simp only [Except.toOption, Option.bind_some, hfile, Option.map_some,
            Option.some.injEq] at h
          exact ⟨p, file, rfl, hfile, h⟩

/-- A health check every five seconds is in range. -/
theorem duration_bound_iff_prompt :
    ∃ p file, Project.ofText (fun _ => none) promptText = .ok p ∧ p.assemble {} = .ok file ∧
      file.durations = [.ofSeconds 5] ∧
      ∀ s ∈ p.services.values,
        s.AllDurations (·.nanoseconds ≤ maxSigned) (·.nanoseconds < 9223372036500000000)
          (·.nanoseconds < 9223372037000000000) := by
  have hdurations : durationsOf promptText = some [.ofSeconds 5] := by decide +kernel
  obtain ⟨p, file, hload, hfile, hall⟩ := exists_of_durationsOf hdurations
  refine ⟨p, file, hload, hfile, hall, (duration_bound_iff hload hfile).2.1 ?_⟩
  rw [hall]
  decide

/-- A health check at the longest interval is not in range. -/
theorem duration_bound_iff_rare :
    ¬ ∀ (lookup : Template.Lookup) (text : String) (p : Project) (options : GenerateOptions)
        (file : File), Project.ofText lookup text = .ok p → p.assemble options = .ok file →
          ∀ d ∈ file.durations, d.nanoseconds ≤ maxSigned := by
  have hdurations : durationsOf rareText = some [⟨maxSigned * Duration.perSecond⟩] := by
    decide +kernel
  obtain ⟨p, file, hload, hfile, hall⟩ := exists_of_durationsOf hdurations
  intro h
  have hbound := h _ _ p {} file hload hfile ⟨maxSigned * Duration.perSecond⟩ (by rw [hall]; simp)
  exact absurd hbound (by decide)

end Stackwright
