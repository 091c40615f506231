import Stackwright.Proofs.Arrangement
import Stackwright.Proofs.Builder.WellFormed
import Stackwright.Proofs.Program.Blanking
import Stackwright.Proofs.Program.Ident

/-!
# Assembled programs

The program of a project is determined by its services once no two of them
collide.  Its functions can be printed if the package clause is an identifier
and no failure ratio is infinite, and no name can break out of a comment.

Main results:

- Theorem `assemble_eq_ok_iff`: what the program of a project is.
- Theorem `programFile_wellFormed_iff`: when the program can be printed.
- Theorem `programFile_commentsOnLines`: comments of the program stay on their
  lines.
-/

namespace Stackwright

open Program

/-! ## Networks and volumes -/

theorem Network.wellFormed_creation (n : Network) (key : String) :
    (n.creation key).wellFormed = true := by
  have hpool : ∀ pool : IpamPool, pool.calls.all Expr.wellFormed = true := by
    intro pool
    simp (disch := decide) only [IpamPool.calls, List.flatten_cons, List.flatten_nil,
      List.all_append, List.all_nil, Calls.all_text, Calls.all_pairs, Bool.and_true]
  have hipam : ((n.ipam.map Ipam.fields).getD []).flatten.all Expr.wellFormed = true := by
    cases n.ipam with
    | none => rfl
    | some ipam =>
        have hpools : (ipam.config.map fun pool =>
            Expr.packageCall .network "IPAMPool" pool.calls).all Expr.wellFormed = true :=
          Calls.all_map fun pool _ => Expr.wellFormed_packageCall (by decide) (hpool pool)
        simp (disch := decide) only [Option.map_some, Option.getD_some, Ipam.fields,
          List.flatten_cons, List.flatten_nil, List.all_append, List.all_nil, Calls.all_text,
          hpools, Bool.and_true]
  have hcalls : n.calls.all Expr.wellFormed = true := by
    simp (disch := decide) only [Network.calls, Network.fields, List.flatten_append,
      List.flatten_cons, List.flatten_nil, List.all_append, List.all_nil, Calls.all_text,
      Calls.all_pairs, Calls.all_flag, hipam, Bool.and_true]
  apply Expr.wellFormed_packageCall (by decide)
  rw [List.all_cons, Expr.wellFormed_string, Bool.true_and]
  split
  · rfl
  · exact hcalls

theorem Volume.wellFormed_creation (v : Volume) (key : String) :
    (v.creation key).wellFormed = true := by
  apply Expr.wellFormed_packageCall (by decide)
  rw [List.all_cons, Expr.wellFormed_string, Bool.true_and]
  split
  · rfl
  · simp (disch := decide) only [Volume.calls, Volume.fields, List.flatten_cons,
      List.flatten_nil, List.all_append, List.all_nil, Calls.all_text, Calls.all_pairs,
      Bool.and_true]

/-! ## Functions -/

namespace Program

/-- The options of starting and stopping can be printed if the arguments in front can. -/
theorem all_lifecycleArgs (profiles : List String) {front : List Expr}
    (h : front.all Expr.wellFormed = true) :
    (lifecycleArgs profiles front).all Expr.wellFormed = true := by
  have hoption : ∀ {name : String} {args : List Expr}, isIdentifier name.toList = true →
      args.all Expr.wellFormed = true → (Expr.packageCall .gantry name args).wellFormed = true :=
    Expr.wellFormed_packageCall
  rw [lifecycleArgs, List.all_append, List.all_cons, h, hoption (by decide) rfl]
  split
  · rfl
  · rw [List.all_cons, hoption (by decide) (by simp)]
    rfl

/-- Bringing the project up can be printed. -/
theorem wellFormed_bringUp (profiles : List String) : (bringUp profiles).wellFormed = true := by
  have hup : (Expr.methodCall (.ident projectVar) "Up" (lifecycleArgs profiles
      [.ident "ctx", .packageCall .gantry "WithProgress" [.qualified .os "Stdout"]])).wellFormed
        = true :=
    Expr.wellFormed_methodCall (by decide) (by decide) (all_lifecycleArgs profiles (by decide))
  simp only [bringUp, Stmt.wellFormed, Stmt.initWellFormed, hup]
  decide

/-- Tearing the project down can be printed. -/
theorem all_teardown (profiles : List String) :
    (teardown profiles).all Stmt.wellFormed = true := by
  have hdown : (Expr.methodCall (.ident projectVar) "Down"
      (lifecycleArgs profiles [background])).wellFormed = true :=
    Expr.wellFormed_methodCall (by decide) (by decide) (all_lifecycleArgs profiles (by decide))
  simp only [teardown, ifFails, List.all_cons, List.all_nil, Stmt.wellFormed,
    Stmt.initWellFormed, hdown]
  decide

/-- The entry point can be printed. -/
theorem all_entryPoint (profiles : List String) :
    (entryPoint profiles).all Func.wellFormed = true := by
  have hsignal : signalHandler.all Stmt.wellFormed = true := by decide
  simp only [entryPoint, runFunction, List.all_cons, List.all_nil, Func.wellFormed,
    Stmt.wellFormed, Stmt.bodyWellFormed_eq, hsignal, all_teardown, wellFormed_bringUp]
  decide

end Program

/-- The identifier of a service with a suffix is an identifier. -/
theorem isIdentifier_exportedString_append (name : String) {suffix : String}
    (hsuffix : suffix.toList.all isIdentChar = true) :
    isIdentifier (exportedString name ++ suffix).toList = true := by
  rw [String.toList_append, exportedString, String.toList_ofList]
  exact isIdentifier_append (isIdentifier_exported _) hsuffix

namespace Service

theorem isIdentifier_containerFunc (s : Service) :
    isIdentifier s.code.containerFunc.toList = true :=
  isIdentifier_exportedString_append s.name (by decide)

theorem isIdentifier_serviceFunc (s : Service) :
    isIdentifier s.code.serviceFunc.toList = true :=
  isIdentifier_exportedString_append s.name (by decide)

/-- The registration of a service can be printed. -/
theorem all_registration (s : Service) : s.code.registration.all Expr.wellFormed = true := by
  have hcontainer := s.isIdentifier_containerFunc
  have hservice := s.isIdentifier_serviceFunc
  rw [ServiceCode.registration, List.all_append, Bool.and_eq_true]
  constructor
  · simp only [List.all_cons, List.all_nil, Expr.wellFormed_string, Expr.wellFormed, hcontainer,
      Bool.and_true]
  · split
    · simp only [List.all_cons, List.all_nil, Expr.wellFormed, hservice, Bool.and_true]
    · rfl

/-- The functions of a service can be printed exactly if no failure ratio of it is infinite. -/
theorem all_funcs_iff (s : Service) :
    s.code.funcs.all Func.wellFormed = true ↔ ¬ s.HasInfiniteRatio := by
  have hresult : ∀ {name : String}, isIdentifier name.toList = true →
      [TypeExpr.pointer (.qualified .gantry name)].all TypeExpr.wellFormed = true := by
    intro name hname
    simp only [List.all_cons, List.all_nil, TypeExpr.wellFormed, hname, Bool.and_true]
  rw [← wellFormed_orchestrationExpr_iff]
  have hcontainer : s.code.container.wellFormed = true := s.wellFormed_containerExpr
  have horchestration : s.code.orchestration = s.orchestrationExpr := rfl
  rw [ServiceCode.funcs, horchestration]
  cases s.orchestrationExpr with
  | none =>
      simp (disch := decide) only [Option.map_none, Option.toList_none, Option.all_none,
        List.all_cons, List.all_nil, Func.wellFormed, Stmt.wellFormed, Option.all_some, hcontainer,
        hresult, isIdentifier_containerFunc, Bool.and_true]
  | some orchestration =>
      simp (disch := decide) only [Option.map_some, Option.toList_some, Option.all_some,
        List.all_cons, List.all_nil, Func.wellFormed, Stmt.wellFormed, hcontainer, hresult,
        isIdentifier_containerFunc, isIdentifier_serviceFunc, Bool.and_true, Bool.true_and]

end Service
/-! ## Comments -/

/-- The digits of a number in base sixteen are letters and digits. -/
theorem isIdentChar_of_mem_toDigits {n : Nat} {c : Char} (h : c ∈ Nat.toDigits 16 n) :
    isIdentChar c = true := by
  have hdigit : ∀ k < 16, isIdentChar (Nat.digitChar k) = true := by decide
  induction n using Nat.strongRecOn with
  | ind n ih =>
      rw [Nat.toDigits_eq_if (by decide)] at h
      split at h
      · rename_i hlt
        rw [List.mem_singleton.1 h]
        exact hdigit n hlt
      · rename_i hle
        rcases List.mem_append.1 h with h | h
        · exact ih (n / 16) (by omega) h
        · rw [List.mem_singleton.1 h]
          exact hdigit (n % 16) (Nat.mod_lt _ (by decide))

/-- A shown text stays on its line. -/
theorem Text.newline_notMem_inspect (s : List Char) : '\n' ∉ Text.inspect s := by
  have hchar : ∀ c, '\n' ∉ Text.inspectChar c := by
    intro c
    have hpoint : '\n' ∉ Text.codePoint c := by
      intro hmem
      simp only [Text.codePoint, List.cons_append, List.mem_cons, List.mem_append,
        List.not_mem_nil, Char.reduceEq, false_or, or_false] at hmem
      exact absurd (isIdentChar_of_mem_toDigits hmem) (by decide)
    unfold Text.inspectChar
    by_cases hc : c = '\n'
    · subst hc
      decide
    · repeat' split
      all_goals first
        | exact hpoint
        | decide
        | exact fun hmem => hc (List.mem_singleton.1 hmem).symm
  intro hmem
  simp only [Text.inspect, List.cons_append, List.mem_cons, List.mem_append, List.mem_flatMap,
    List.not_mem_nil, Char.reduceEq, false_or, or_false] at hmem
  obtain ⟨c, -, hc⟩ := hmem
  exact hchar c hc

theorem newline_notMem_exportedString (name : String) : '\n' ∉ (exportedString name).toList := by
  rw [exportedString, String.toList_ofList]
  intro hmem
  exact absurd (isAlphanum_of_mem_exported hmem) (by decide)

theorem newline_notMem_inspectString (text : String) :
    '\n' ∉ (Text.inspectString text).toList := by
  rw [Text.inspectString, String.toList_ofList]
  exact Text.newline_notMem_inspect text.toList

/-! ## Programs -/

namespace Project

/-- The program of a project whose services do not collide. -/
def programFile (p : Project) (options : GenerateOptions) : File where
  header := ["Code generated by gantry. DO NOT EDIT."]
  package := options.package
  funcs :=
    p.constructorFunc (p.programName options) p.serviceCodes
      :: p.serviceCodes.flatMap ServiceCode.funcs
      ++ if options.emitMain then entryPoint options.profiles else []

/-- A project has a program exactly if its services do not collide. -/
theorem assemble_eq_ok_iff {p : Project} {options : GenerateOptions} {file : File} :
    p.assemble options = .ok file ↔
      collision? p.serviceCodes = none ∧ p.programFile options = file := by
  rw [assemble]
  cases collision? p.serviceCodes with
  | none =>
      simp only [Except.ok.injEq, true_and]
      rfl
  | some c => simp

/-- Assembling fails with the collision of the services. -/
theorem assemble_eq_error_iff {p : Project} {options : GenerateOptions} {c : NameCollision} :
    p.assemble options = .error c ↔ collision? p.serviceCodes = some c := by
  rw [assemble]
  cases collision? p.serviceCodes with
  | none => simp
  | some c => simp

/-- An update or a rollback of a service has an infinite failure ratio. -/
def HasInfiniteRatio (p : Project) : Prop :=
  ∃ service ∈ p.services.values, service.HasInfiniteRatio

theorem all_stmtSection {body : List Stmt} (h : body.all Stmt.wellFormed = true) :
    (stmtSection body).all Stmt.wellFormed = true := by
  unfold stmtSection
  split
  · rfl
  · rw [List.all_cons, h]
    rfl

theorem wellFormed_addition {method : String} {args : List Expr}
    (hmethod : isIdentifier method.toList = true) (hargs : args.all Expr.wellFormed = true) :
    (addition method args).wellFormed = true := by
  rw [addition, Stmt.wellFormed]
  exact Expr.wellFormed_methodCall (by decide) hmethod hargs

/-- The function that builds a project can be printed. -/
theorem wellFormed_constructorFunc (p : Project) (name : String) :
    (p.constructorFunc name p.serviceCodes).wellFormed = true := by
  have hnetworks : (p.networkCreations.map fun network =>
      addition "AddNetwork" [network]).all Stmt.wellFormed = true := by
    rw [List.all_map, List.all_eq_true]
    intro network hnetwork
    obtain ⟨entry, -, rfl⟩ := List.mem_map.1 hnetwork
    exact wellFormed_addition (by decide) (by simp [Network.wellFormed_creation])
  have hvolumes : (p.volumeCreations.map fun volume =>
      addition "AddVolume" [volume]).all Stmt.wellFormed = true := by
    rw [List.all_map, List.all_eq_true]
    intro volume hvolume
    obtain ⟨entry, -, rfl⟩ := List.mem_map.1 hvolume
    exact wellFormed_addition (by decide) (by simp [Volume.wellFormed_creation])
  have hservices : (p.serviceCodes.map fun service =>
      addition "AddService" service.registration).all Stmt.wellFormed = true := by
    rw [List.all_map, List.all_eq_true]
    intro service hservice
    obtain ⟨s, -, rfl⟩ := List.mem_map.1 hservice
    exact wellFormed_addition (by decide) s.all_registration
  have hcreate : (Expr.packageCall .gantry "NewProject" [.string name]).wellFormed = true :=
    Expr.wellFormed_packageCall (by decide) rfl
  have hbody : (p.constructorBody name p.serviceCodes).all Stmt.wellFormed = true := by
    simp only [constructorBody, List.cons_append, List.all_cons, List.all_append,
      all_stmtSection hnetworks, all_stmtSection hvolumes, all_stmtSection hservices,
      Stmt.wellFormed, hcreate]
    decide
  simp only [Func.wellFormed, constructorFunc, hbody]
  decide

/-- The program of a project can be printed exactly if its package clause is an identifier and no
failure ratio is infinite. -/
theorem programFile_wellFormed_iff (p : Project) (options : GenerateOptions) :
    (p.programFile options).wellFormed = true ↔
      isIdentifier options.package.toList = true ∧ ¬ p.HasInfiniteRatio := by
  have hmain : (if options.emitMain then entryPoint options.profiles else []).all
      Func.wellFormed = true := by
    split
    · exact all_entryPoint options.profiles
    · rfl
  have hservices : (p.serviceCodes.flatMap ServiceCode.funcs).all Func.wellFormed = true ↔
      ¬ p.HasInfiniteRatio := by
    simp only [serviceCodes, List.flatMap_map, List.all_flatMap,
      List.all_eq_true (l := p.sortedServices), mem_sortedServices, Service.all_funcs_iff,
      HasInfiniteRatio, not_exists, not_and]
  rw [File.wellFormed, Bool.and_eq_true]
  simp only [programFile, List.cons_append, List.all_cons, List.all_append,
    wellFormed_constructorFunc, hmain, Bool.and_true, Bool.true_and, hservices]

/-- The functions of a program: the one that builds the project, those of its services, and those
of the entry point. -/
theorem mem_funcs_programFile {p : Project} {options : GenerateOptions} {func : Func}
    (h : func ∈ (p.programFile options).funcs) :
    func = p.constructorFunc (p.programName options) p.serviceCodes ∨
      (∃ s ∈ p.services.values, func ∈ s.code.funcs) ∨
      func = mainFunction ∨ func = runFunction options.profiles := by
  simp only [programFile, List.cons_append, List.mem_cons, List.mem_append, List.mem_flatMap] at h
  rcases h with hconstructor | ⟨code, hcode, hfunc⟩ | hentry
  · exact .inl hconstructor
  · obtain ⟨s, hs, rfl⟩ := List.mem_map.1 hcode
    exact .inr (.inl ⟨s, mem_sortedServices.1 hs, hfunc⟩)
  · split at hentry
    · simp only [entryPoint, List.mem_cons, List.not_mem_nil, or_false] at hentry
      exact .inr (.inr hentry)
    · cases hentry

/-- The comments of the functions of a service stay on their lines. -/
theorem newline_notMem_doc_funcs {s : Service} {func : Func} (hfunc : func ∈ s.code.funcs)
    {line : String} (hline : line ∈ func.doc) : '\n' ∉ line.toList := by
  have hdoc : ∀ suffix words : String, '\n' ∉ suffix.toList → '\n' ∉ words.toList →
      '\n' ∉ (exportedString s.name ++ suffix ++ words ++ Text.inspectString s.name
        ++ ".").toList := by
    intro suffix words hsuffix hwords
    simp only [String.toList_append, List.mem_append, not_or]
    exact ⟨⟨⟨⟨newline_notMem_exportedString _, hsuffix⟩, hwords⟩,
      newline_notMem_inspectString _⟩, by decide⟩
  simp only [ServiceCode.funcs, List.mem_cons, Option.mem_toList, Option.map_eq_some_iff] at hfunc
  rcases hfunc with rfl | ⟨orchestration, -, rfl⟩
  · rw [List.mem_singleton.1 hline]
    exact hdoc _ _ (by decide) (by decide)
  · rw [List.mem_singleton.1 hline]
    exact hdoc _ _ (by decide) (by decide)

/-- Comments of the program of a project stay on their lines. -/
theorem programFile_commentsOnLines (p : Project) (options : GenerateOptions) :
    (p.programFile options).CommentsOnLines := by
  constructor
  · simp only [programFile, List.forall_mem_singleton]
    decide
  · intro func hfunc line hline
    rcases mem_funcs_programFile hfunc with rfl | ⟨s, -, hfunc⟩ | rfl | rfl
    · rw [List.mem_singleton.1 hline]
      simp only [String.toList_append, List.mem_append, not_or]
      exact ⟨⟨⟨by decide, by decide⟩, newline_notMem_inspectString _⟩, by decide⟩
    · exact newline_notMem_doc_funcs hfunc hline
    · cases hline
    · rw [List.mem_singleton.1 hline]
      decide

end Project
end Stackwright
