import Stackwright.Proofs.Builder.Assembly
import Stackwright.Proofs.Builder.Collision

/-!
# Declarations and registrations

A program declares a function for every part of every service and passes it to
the registration of that service.  The names of these functions differ by their
last letters, or else by the identifiers of their services, which differ because
the services do not collide.

Main results:

- Theorem `nodup_names_programFile`: no two functions have the same name.
- Theorem `assemble_registers`: every service is registered once, with its own
  functions, and every function of a service is passed once.
-/

namespace Stackwright

open Program

/-- The arguments of a statement that registers a service. -/
def registration? : Stmt → Option (List Expr)
  | .expr (.methodCall _ method args) => if method = "AddService" then some args else none
  | _ => none

/-- The registrations in the body of a function, in their order. -/
def registrations (f : Func) : List (List Expr) :=
  f.body.filterMap registration?

/-- Whether a function is passed among arguments. -/
def passes (name : String) (args : List Expr) : Bool :=
  args.any fun
    | .ident passed => name == passed
    | _ => false

/-- Arguments register a service with the functions of a file that return its container and, if
it has any, its orchestration settings. -/
def Registers (file : File) (s : Service) (args : List Expr) : Prop :=
  ∃ container ∈ file.funcs, container.name = exportedString s.name ++ "Container" ∧
    container.body = [.return (some s.containerExpr)] ∧
    if s.orchestrationCalls.isEmpty then args = [.string s.name, .ident container.name]
    else
      ∃ orchestration ∈ file.funcs, orchestration.name = exportedString s.name ++ "Service" ∧
        orchestration.body = [.return s.orchestrationExpr] ∧
        args = [.string s.name, .ident container.name, .ident orchestration.name]

/-! ## Names of functions -/

/-- The last letter of a name. -/
def lastLetter (name : String) : Option Char :=
  name.toList.getLast?

theorem lastLetter_append (name : String) {suffix : String} (h : suffix.toList ≠ []) :
    lastLetter (name ++ suffix) = lastLetter suffix := by
  rw [lastLetter, lastLetter, String.toList_append, List.getLast?_append,
    List.getLast?_eq_some_getLast h]
  rfl

namespace ServiceCode

theorem lastLetter_containerFunc (c : ServiceCode) : lastLetter c.containerFunc = some 'r' := by
  rw [containerFunc, lastLetter_append _ (by decide)]
  decide

theorem lastLetter_serviceFunc (c : ServiceCode) : lastLetter c.serviceFunc = some 'e' := by
  rw [serviceFunc, lastLetter_append _ (by decide)]
  decide

/-- The names of the functions of a service. -/
theorem map_name_funcs (c : ServiceCode) :
    c.funcs.map (·.name)
      = c.containerFunc :: if c.orchestration.isSome then [c.serviceFunc] else [] := by
  rw [funcs]
  cases c.orchestration with
  | none => rfl
  | some orchestration => rfl

/-- A function of a service is named after its container or its orchestration settings. -/
theorem name_cases {c : ServiceCode} {name : String} (h : name ∈ c.funcs.map (·.name)) :
    name = c.containerFunc ∨ name = c.serviceFunc := by
  rw [map_name_funcs, List.mem_cons] at h
  rcases h with h | h
  · exact .inl h
  · split at h
    · exact .inr (List.mem_singleton.1 h)
    · cases h

/-- The two functions of a service have different names. -/
theorem nodup_names_funcs (c : ServiceCode) : (c.funcs.map (·.name)).Nodup := by
  rw [map_name_funcs]
  split
  · refine List.nodup_cons.2 ⟨?_, List.nodup_cons.2 ⟨List.not_mem_nil, List.nodup_nil⟩⟩
    rw [List.mem_singleton]
    intro heq
    have hlast := c.lastLetter_containerFunc
    rw [heq, lastLetter_serviceFunc] at hlast
    cases hlast
  · simp

/-- Functions of services with different identifiers have different names. -/
theorem name_ne_of_ident_ne {c d : ServiceCode} (h : c.ident ≠ d.ident) {x y : String}
    (hx : x ∈ c.funcs.map (·.name)) (hy : y ∈ d.funcs.map (·.name)) : x ≠ y := by
  have hsuffix : ∀ suffix : String, c.ident ++ suffix = d.ident ++ suffix → c.ident = d.ident := by
    intro suffix heq
    have hlist := congrArg String.toList heq
    rw [String.toList_append, String.toList_append] at hlist
    exact String.toList_inj.1 (List.append_cancel_right hlist)
  rintro rfl
  rcases name_cases hx with hc | hc <;> rcases name_cases hy with hd | hd
  · exact h (hsuffix "Container" (hc.symm.trans hd))
  · have hlast := c.lastLetter_containerFunc
    rw [← hc, hd, lastLetter_serviceFunc] at hlast
    cases hlast
  · have hlast := d.lastLetter_containerFunc
    rw [← hd, hc, lastLetter_serviceFunc] at hlast
    cases hlast
  · exact h (hsuffix "Service" (hc.symm.trans hd))

/-- A function of a service has none of the fixed names. -/
theorem name_ne_of_lastLetter {c : ServiceCode} {name other : String}
    (h : name ∈ c.funcs.map (·.name)) (hr : lastLetter other ≠ some 'r')
    (he : lastLetter other ≠ some 'e') : name ≠ other := by
  rintro rfl
  rcases name_cases h with hname | hname
  · exact hr (hname ▸ c.lastLetter_containerFunc)
  · exact he (hname ▸ c.lastLetter_serviceFunc)

end ServiceCode

namespace Project

/-- The functions that are no part of a service. -/
def fixedNames : List String :=
  [projectFunc, "main", runFunc]

/-- A function of a service has none of the fixed names. -/
theorem name_notMem_fixedNames {c : ServiceCode} {name : String}
    (h : name ∈ c.funcs.map (·.name)) : name ∉ fixedNames := by
  have hletters : ∀ other ∈ fixedNames,
      lastLetter other ≠ some 'r' ∧ lastLetter other ≠ some 'e' := by
    decide
  intro hmem
  obtain ⟨hr, he⟩ := hletters name hmem
  exact ServiceCode.name_ne_of_lastLetter h hr he rfl

/-- The names of the functions of the entry point, if there is one. -/
def entryNames (options : GenerateOptions) : List String :=
  if options.emitMain then ["main", runFunc] else []

theorem entryNames_spec (options : GenerateOptions) :
    (projectFunc :: entryNames options).Nodup ∧ ∀ name ∈ entryNames options, name ∈ fixedNames := by
  rw [entryNames]
  cases options.emitMain <;> decide

/-- The names of the functions of a program. -/
theorem map_name_programFile (p : Project) (options : GenerateOptions) :
    (p.programFile options).funcs.map (·.name)
      = projectFunc :: p.serviceCodes.flatMap (fun c => c.funcs.map (·.name))
        ++ entryNames options := by
  simp only [programFile, entryNames, List.cons_append, List.map_cons, List.map_append,
    List.map_flatMap]
  cases options.emitMain with
  | false => rfl
  | true => rfl

/-- No two functions of a program have the same name. -/
theorem nodup_names_programFile {p : Project} (h : collision? p.serviceCodes = none)
    (options : GenerateOptions) : ((p.programFile options).funcs.map (·.name)).Nodup := by
  have hidents := ((collisionFrom_eq_none_iff [] p.serviceCodes).1 h).2
  have hservices : (p.serviceCodes.flatMap fun c => c.funcs.map (·.name)).Nodup := by
    refine List.pairwise_flatMap.2 ⟨fun c _ => c.nodup_names_funcs, ?_⟩
    exact hidents.imp fun hne x hx y hy => ServiceCode.name_ne_of_ident_ne hne hx hy
  have hfixed : ∀ name ∈ fixedNames, ∀ c ∈ p.serviceCodes, name ∉ c.funcs.map (·.name) :=
    fun name hname c _ hmem => name_notMem_fixedNames hmem hname
  obtain ⟨hmain, hsub⟩ := entryNames_spec options
  obtain ⟨hproject, hrest⟩ := List.nodup_cons.1 hmain
  rw [map_name_programFile, List.cons_append, List.nodup_cons, List.mem_append, List.nodup_append]
  refine ⟨?_, hservices, hrest, ?_⟩
  · rintro (hmem | hmem)
    · obtain ⟨c, hc, hmem⟩ := List.mem_flatMap.1 hmem
      exact hfixed projectFunc (by decide) c hc hmem
    · exact hproject hmem
  · rintro x hx y hy rfl
    obtain ⟨c, hc, hmem⟩ := List.mem_flatMap.1 hx
    exact hfixed x (hsub x hy) c hc hmem

/-- Every function of a program has an identifier for its name. -/
theorem isIdentifier_name_programFile {p : Project} {options : GenerateOptions} {func : Func}
    (h : func ∈ (p.programFile options).funcs) : isIdentifier func.name.toList = true := by
  have hmem : func.name ∈ (p.programFile options).funcs.map (·.name) := List.mem_map_of_mem h
  have hfixed : ∀ name ∈ fixedNames, isIdentifier name.toList = true := by decide
  rw [map_name_programFile, List.cons_append, List.mem_cons, List.mem_append] at hmem
  rcases hmem with hmem | hmem | hmem
  · rw [hmem]
    exact hfixed projectFunc (by decide)
  · obtain ⟨c, hc, hmem⟩ := List.mem_flatMap.1 hmem
    obtain ⟨s, -, rfl⟩ := List.mem_map.1 hc
    rcases ServiceCode.name_cases hmem with hname | hname
    · rw [hname]
      exact s.isIdentifier_containerFunc
    · rw [hname]
      exact s.isIdentifier_serviceFunc
  · exact hfixed _ ((entryNames_spec options).2 _ hmem)

/-! ## Registrations -/

theorem filterMap_stmtSection (body : List Stmt) :
    (stmtSection body).filterMap registration? = body.filterMap registration? := by
  unfold stmtSection
  split
  · rename_i hempty
    rw [List.isEmpty_iff.1 hempty]
  · rfl

theorem filterMap_map_addition {α : Type} (method : String) (values : List α)
    (args : α → List Expr) :
    (values.map fun value => addition method (args value)).filterMap registration?
      = if method = "AddService" then values.map args else [] := by
  have hstep : (registration? ∘ fun value => addition method (args value))
      = fun value => if method = "AddService" then some (args value) else none := rfl
  rw [List.filterMap_map, hstep]
  by_cases hmethod : method = "AddService"
  · simp [hmethod]
  · simp [hmethod]

/-- The function that builds a project registers its services in their order. -/
theorem registrations_constructorFunc (p : Project) (name : String)
    (services : List ServiceCode) :
    registrations (p.constructorFunc name services) = services.map ServiceCode.registration := by
  have hdefine : registration?
      (.define [projectVar] (.packageCall .gantry "NewProject" [.string name])) = none := rfl
  have hend : [Stmt.blank, .return (some (.ident projectVar))].filterMap registration? = [] := rfl
  rw [registrations, constructorFunc]
  dsimp only
  rw [constructorBody, List.filterMap_append, List.filterMap_append, List.filterMap_append,
    List.filterMap_cons_none hdefine, filterMap_stmtSection, filterMap_stmtSection,
    filterMap_stmtSection, filterMap_map_addition, filterMap_map_addition,
    filterMap_map_addition, hend, if_neg (by decide), if_neg (by decide), if_pos rfl,
    List.nil_append, List.nil_append, List.append_nil]

/-- A registration passes exactly the functions of its service. -/
theorem passes_registration_iff (c : ServiceCode) (name : String) :
    passes name c.registration = true ↔ name ∈ c.funcs.map (·.name) := by
  rw [ServiceCode.map_name_funcs, ServiceCode.registration, passes]
  cases c.orchestration with
  | none => simp [Expr.string]
  | some orchestration => simp [Expr.string]

/-- Of members that exclude each other, one that satisfies a test is counted once. -/
theorem countP_eq_one {α : Type} {test : α → Bool} {values : List α}
    (hpairwise : values.Pairwise fun a b => ¬ (test a = true ∧ test b = true))
    (hexists : ∃ a ∈ values, test a = true) : values.countP test = 1 := by
  induction values with
  | nil => simp at hexists
  | cons a rest ih =>
      obtain ⟨hhead, hrest⟩ := List.pairwise_cons.1 hpairwise
      by_cases ha : test a = true
      · have hnone : rest.countP test = 0 := by
          rw [List.countP_eq_zero]
          exact fun b hb htest => hhead b hb ⟨ha, htest⟩
        rw [List.countP_cons_of_pos ha, hnone]
      · rw [List.countP_cons_of_neg ha]
        apply ih hrest
        obtain ⟨b, hb, htest⟩ := hexists
        rcases List.mem_cons.1 hb with rfl | hb
        · exact absurd htest ha
        · exact ⟨b, hb, htest⟩

/-- The registration of a service passes its own functions. -/
theorem registers_code {p : Project} {options : GenerateOptions} {s : Service}
    (h : s ∈ p.services.values) : Registers (p.programFile options) s s.code.registration := by
  have hfuncs : ∀ func ∈ s.code.funcs, func ∈ (p.programFile options).funcs := by
    intro func hfunc
    rw [programFile]
    simp only [List.cons_append, List.mem_cons, List.mem_append, List.mem_flatMap]
    exact .inr (.inl ⟨s.code, List.mem_map_of_mem (mem_sortedServices.2 h), hfunc⟩)
  have hcode : s.code.orchestration = s.orchestrationExpr := rfl
  refine ⟨_, hfuncs _ List.mem_cons_self, rfl, rfl, ?_⟩
  rw [ServiceCode.funcs, hcode] at hfuncs
  rw [ServiceCode.registration, hcode]
  by_cases hcalls : s.orchestrationCalls.isEmpty = true
  · have hexpr : s.orchestrationExpr = none := if_pos hcalls
    rw [if_pos hcalls, hexpr]
    rfl
  · have hexpr : s.orchestrationExpr = some _ := if_neg hcalls
    rw [hexpr] at hfuncs
    have hmem := hfuncs _ (List.mem_cons_of_mem _ List.mem_cons_self)
    rw [if_neg hcalls, hexpr]
    exact ⟨_, hmem, rfl, rfl, rfl⟩

/-- Declarations and registrations match.  Names of functions are different identifiers; the
function that builds the project registers every service once, in ascending order of names, with
the functions that return its parts; and every function of a service is passed once. -/
theorem assemble_registers {p : Project} (hnames : p.NamesServices) {options : GenerateOptions}
    {file : File} (h : p.assemble options = .ok file) :
    (file.funcs.map (·.name)).Nodup ∧
      (∀ func ∈ file.funcs, isIdentifier func.name.toList = true) ∧
      ∃ builder ∈ file.funcs, builder.name = projectFunc ∧
        (∃ (services : List Service) (args : Service → List Expr),
          services.Perm p.services.values ∧ (services.map (·.name)).Pairwise (· < ·) ∧
            registrations builder = services.map args ∧
            ∀ s ∈ services, Registers file s (args s)) ∧
        ∀ func ∈ file.funcs, func.name ∉ fixedNames →
          (registrations builder).countP (passes func.name) = 1 := by
  obtain ⟨hnone, rfl⟩ := assemble_eq_ok_iff.1 h
  refine ⟨nodup_names_programFile hnone options, fun func => isIdentifier_name_programFile,
    _, List.mem_cons_self, rfl,
    ⟨p.sortedServices, fun s => s.code.registration, p.perm_sortedServices, ?_, ?_, ?_⟩, ?_⟩
  · have hsorted := List.pairwise_map.2 (serviceCodes_pairwise hnames)
    rw [serviceCodes, List.map_map] at hsorted
    exact hsorted
  · rw [registrations_constructorFunc, serviceCodes, List.map_map]
    rfl
  · exact fun s hs => registers_code (mem_sortedServices.1 hs)
  · intro func hfunc hfixed
    have hname : func.name ∈ (p.programFile options).funcs.map (·.name) := List.mem_map_of_mem hfunc
    rw [map_name_programFile, List.cons_append, List.mem_cons, List.mem_append] at hname
    rw [registrations_constructorFunc, List.countP_map]
    -- Services that do not collide have no function in common.
    have hidents := ((collisionFrom_eq_none_iff [] p.serviceCodes).1 hnone).2
    refine countP_eq_one (hidents.imp fun hne hboth => ?_) ?_
    · have hx := (passes_registration_iff _ _).1 hboth.1
      have hy := (passes_registration_iff _ _).1 hboth.2
      exact ServiceCode.name_ne_of_ident_ne hne hx hy rfl
    · rcases hname with hname | hname | hname
      · exact absurd (hname ▸ by decide) hfixed
      · obtain ⟨c, hc, hname⟩ := List.mem_flatMap.1 hname
        exact ⟨c, hc, (passes_registration_iff c func.name).2 hname⟩
      · exact absurd ((entryNames_spec options).2 _ hname) hfixed

/-- A service whose own name ends like that of a function. -/
theorem assemble_registers_webContainer :
    ∃ file, (({} : Project).withService { name := "web-Container" }).assemble {} = .ok file ∧
      (file.funcs.map (·.name)).Nodup ∧
      ∀ func ∈ file.funcs, isIdentifier func.name.toList = true := by
  have hassemble :
      (({} : Project).withService { name := "web-Container" }).assemble {} = .ok _ := rfl
  have h := assemble_registers (NamesServices.empty.withService _) hassemble
  exact ⟨_, hassemble, h.1, h.2.1⟩

end Project
end Stackwright
