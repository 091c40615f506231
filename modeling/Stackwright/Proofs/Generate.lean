import Stackwright.Generate
import Stackwright.Proofs.Builder.Assembly
import Stackwright.Proofs.Builder.Collision
import Stackwright.Proofs.Builder.Spacing

/-!
# Outcomes of generating a program

Generating a program fails at one of two places only: two services share an
identifier, or the program cannot be printed.  The last pass never fails,
because every printed program reads as balanced code.  A generator that is built with
checks may also stop before all of this, where rounding a delay overflows.

Main results:

- Theorem `source_eq_ok_iff`: the printed program of a project.
- Theorem `overflows_iff`: which delays overflow.
- Theorem `generate_outcome`: which projects stop the generator or fail, and how.
- Theorem `generate_eq_source`: the last pass leaves the printed program as it is.
-/

namespace Stackwright

open Program

namespace Project

/-- The printed program of a project. -/
theorem source_eq_ok_iff {p : Project} {options : GenerateOptions} {text : List Char} :
    p.source options = .ok text ↔
      collision? p.serviceCodes = none ∧ (p.programFile options).wellFormed = true ∧
        (p.programFile options).layout .source options.apiModule = text := by
  rw [← File.print_eq_ok_iff, source]
  cases hassemble : p.assemble options with
  | error c =>
      rw [assemble_eq_error_iff] at hassemble
      simp [hassemble]
  | ok file =>
      obtain ⟨hnone, rfl⟩ := assemble_eq_ok_iff.1 hassemble
      simp only [hnone, true_and]
      cases (p.programFile options).print options.apiModule <;> simp [Except.mapError]

/-- A printed program has a canonical form. -/
theorem canonicalize_source {p : Project} {options : GenerateOptions} {text : List Char}
    (h : p.source options = .ok text) : ∃ canonical, canonicalize text = .ok canonical := by
  obtain ⟨-, hwell, rfl⟩ := source_eq_ok_iff.1 h
  have hblank := File.blank_layout hwell (p.programFile_commentsOnLines options)
    options.apiModule
  rw [canonicalize, hblank]
  exact ⟨_, rfl⟩

/-- A program is generated, or a collision is reported, or the program cannot be printed. -/
theorem generate_cases (p : Project) (options : GenerateOptions) :
    (∃ c, collision? p.serviceCodes = some c ∧ p.generate options = .error (.collision c)) ∨
      (collision? p.serviceCodes = none ∧ (p.programFile options).wellFormed = false ∧
        ∃ fault, p.generate options = .error (.render fault)) ∨
      (collision? p.serviceCodes = none ∧ (p.programFile options).wellFormed = true ∧
        ∃ text, p.generate options = .ok text) := by
  cases hcollision : collision? p.serviceCodes with
  | some c =>
      have hassemble : p.assemble options = .error c := assemble_eq_error_iff.2 hcollision
      refine .inl ⟨c, rfl, ?_⟩
      rw [generate, source, hassemble]
      rfl
  | none =>
      have hassemble : p.assemble options = .ok (p.programFile options) :=
        assemble_eq_ok_iff.2 ⟨hcollision, rfl⟩
      cases hprint : (p.programFile options).print options.apiModule with
      | error fault =>
          refine .inr (.inl ⟨rfl, ?_, fault, ?_⟩)
          · rw [← Bool.not_eq_true]
            intro hwell
            rw [(File.print_eq_ok_iff _ _ _).2 ⟨hwell, rfl⟩] at hprint
            cases hprint
          · rw [generate, source, hassemble]
            simp only [hprint]
            rfl
      | ok text =>
          obtain ⟨hwell, hlayout⟩ := (File.print_eq_ok_iff _ _ _).1 hprint
          have hsource : p.source options = .ok text :=
            source_eq_ok_iff.2 ⟨hcollision, hwell, hlayout⟩
          obtain ⟨canonical, hcanonical⟩ := canonicalize_source hsource
          refine .inr (.inr ⟨rfl, hwell, canonical, ?_⟩)
          rw [generate, hsource]
          simp only [bind, Except.bind, hcanonical]
          rfl

/-- What a call of `generate` returns.  It is a collision exactly if two services share an
identifier, and then the one whose second name is least; else it is a failure to print exactly if
the package clause is no identifier or a failure ratio is infinite; else it is a text. -/
structure Result (p : Project) (options : GenerateOptions) (result : Except Error (List Char)) :
    Prop where
  collision_iff : (∃ c, result = .error (.collision c)) ↔
    ∃ first second, p.SharesIdentifier first second
  collision_least : ∀ c, result = .error (.collision c) →
    p.SharesIdentifier c.first c.second ∧ c.identifier = exportedString c.second ∧
      (∀ first second, p.SharesIdentifier first second → c.second ≤ second) ∧
      ∀ first, p.SharesIdentifier first c.second → first = c.first
  render_iff : (∃ fault, result = .error (.render fault)) ↔
    (¬ ∃ first second, p.SharesIdentifier first second) ∧
      (isIdentifier options.package.toList = false ∨ p.HasInfiniteRatio)
  text_iff : (∃ text, result = .ok text) ↔
    (¬ ∃ first second, p.SharesIdentifier first second) ∧
      isIdentifier options.package.toList = true ∧ ¬ p.HasInfiniteRatio
  not_format : ∀ fault, result ≠ .error (.format fault)

theorem result_generate {p : Project} (hnames : p.NamesServices) (options : GenerateOptions) :
    p.Result options (p.generate options) := by
  have hwell := p.programFile_wellFormed_iff options
  have hill : (p.programFile options).wellFormed = false ↔
      isIdentifier options.package.toList = false ∨ p.HasInfiniteRatio := by
    rw [← Bool.not_eq_true, hwell, Decidable.not_and_iff_not_or_not, Bool.not_eq_true,
      Classical.not_not]
  have hnone := collision_eq_none_iff hnames
  have hshares : (∃ first second, p.SharesIdentifier first second) ↔
      collision? p.serviceCodes ≠ none := by
    rw [Ne, hnone, Classical.not_not]
  rcases p.generate_cases options with
    ⟨c, hcollision, hgenerate⟩ | ⟨hfree, hprints, fault, hgenerate⟩ |
      ⟨hfree, hprints, text, hgenerate⟩
  · rw [hgenerate]
    refine ⟨by simp [hshares, hcollision], ?_, by simp [← hnone, hcollision],
      by simp [← hnone, hcollision], by simp⟩
    intro found hfound
    cases hfound
    exact collision_spec hnames hcollision
  · rw [hgenerate]
    refine ⟨by simp [hshares, hfree], by simp, ?_, ?_, by simp⟩
    · simp [← hnone, ← hill, hfree, hprints]
    · simp [← hnone, ← hwell, hfree, hprints]
  · rw [hgenerate]
    refine ⟨by simp [hshares, hfree], by simp, ?_, ?_, by simp⟩
    · simp [← hnone, ← hill, hfree, hprints]
    · simp [← hnone, ← hwell, hfree, hprints]

/-- A delay of an update or a rollback of a service is at most half a second below the limit of
seconds, or beyond it. -/
def HasOverlongDelay (p : Project) : Prop :=
  ∃ service ∈ p.services.values, ∃ deploy, service.deploy = some deploy ∧
    ∃ policy, (deploy.updateConfig = some policy ∨ deploy.rollbackConfig = some policy) ∧
      ∃ delay, policy.delay = some delay ∧
        Duration.secondsLimit * Duration.perSecond ≤ delay.nanoseconds + 500000000

/-- The delays that overflow are the overlong ones. -/
theorem overflows_iff {p : Project} : p.overflows = true ↔ p.HasOverlongDelay := by
  have hdelay (d : Duration) : d.roundOverflows = true ↔
      Duration.secondsLimit * Duration.perSecond ≤ d.nanoseconds + 500000000 := by
    rw [Duration.roundOverflows, decide_eq_true_iff, d.seconds_add_carry,
      Nat.le_div_iff_mul_le (by decide : 0 < Duration.perSecond)]
  simp only [overflows, List.any_eq_true, mem_sortedServices, Service.overflows, Option.any_eq_true,
    Deploy.overflows, Bool.or_eq_true, UpdatePolicy.overflows, hdelay, HasOverlongDelay]
  refine exists_congr fun s => and_congr_right' (exists_congr fun deploy => and_congr_right' ?_)
  simp only [or_and_right, exists_or]

/-- Two services whose names have the same identifier. -/
def webApps : Project :=
  (({} : Project).withService { name := "web-app" }).withService { name := "web_app" }

/-- A deployment whose delay is half a second below the limit. -/
def overlongDeploy : Deploy where
  updateConfig :=
    some { delay := some ⟨Duration.secondsLimit * Duration.perSecond - 500000000⟩ }

example : (({} : Project).withService { name := "web", deploy := some overlongDeploy }).generateIn
    .checked {} = .stopped := rfl

/-- The last pass leaves the printed program of a project as it is, if the module root has no
blanks: it drops no import, trims or merges no line, and the generated text is the printed one. -/
theorem generate_eq_source {p : Project} {options : GenerateOptions} {text : List Char}
    (hroot : ∀ c ∈ options.apiModule.toList, Text.isBlank c = false)
    (h : p.source options = .ok text) :
    canonicalize text = .ok text ∧ p.generate options = .ok text ∧
      (∃ code, blank text = .ok code ∧
        pruneImports (Text.lines text) (Text.lines code) = Text.lines text) ∧
      settle (Text.lines text) = Text.lines text := by
  obtain ⟨-, hwell, rfl⟩ := source_eq_ok_iff.1 h
  have hspaced := p.programFile_spaced options
  have hne := p.programFile_packages_ne_nil options
  have hcomments := hspaced.commentsOnLines
  have htidy := File.tidy_layout hwell hspaced options.apiModule
  have hcanonical := File.canonicalize_spaced hwell hspaced hne hroot
  refine ⟨hcanonical, ?_, ⟨_, File.blank_layout hwell hcomments options.apiModule, ?_⟩, ?_⟩
  · rw [generate, h]
    simp only [bind, Except.bind, hcanonical]
    rfl
  · exact File.pruneImports_layout hwell hcomments hne hroot htidy
  · exact htidy.lines_spec.1.settle_eq

/-- The name of a service that reads like the start of an import block changes nothing. -/
theorem generate_eq_source_importName :
    ∃ text, (({} : Project).withService { name := "import (" }).source {} = .ok text ∧
      canonicalize text = .ok text ∧
      (({} : Project).withService { name := "import (" }).generate {} = .ok text := by
  have hwell : ((({} : Project).withService { name := "import (" }).programFile {}).wellFormed
      = true := by
    decide
  have hroot : ({} : GenerateOptions).apiModule.toList.all (!Text.isBlank ·) = true := by
    decide
  simp only [List.all_eq_true, Bool.not_eq_true'] at hroot
  have hsource := source_eq_ok_iff.2 ⟨by decide, hwell, rfl⟩
  obtain ⟨hcanonical, hgenerate, -⟩ := generate_eq_source hroot hsource
  exact ⟨_, hsource, hcanonical, hgenerate⟩

end Project
end Stackwright
