import Stackwright.Proofs.Builder.Assembly
import Stackwright.Proofs.Program.Spacing

/-!
# Spacing of assembled programs

The functions of a program have empty lines only where a section of statements
starts, and its comments end with a full stop.  Every program refers to the
package of the builder API.

Main results:

- Theorem `programFile_spaced`: the program of a project is spaced.
- Theorem `programFile_packages_ne_nil`: the program of a project has imports.
-/

namespace Stackwright

open Program

/-! ## Statements and comments -/

/-- A section of statements after spaced statements. -/
theorem Program.Stmt.Spaced.append_stmtSection {front body : List Stmt} (hfront : Stmt.Spaced front)
    (h : ∀ s ∈ body, s.isDense = true) : Stmt.Spaced (front ++ stmtSection body) := by
  rw [stmtSection]
  split
  · simpa using hfront
  · next hne => exact hfront.append (.dense (by simpa using hne) h)

/-- The statements of the function that runs a project are spaced. -/
theorem Program.spaced_runFunction (profiles : List String) :
    Stmt.Spaced (runFunction profiles).body := by
  have hteardown : (Stmt.defer (teardown profiles)).isDense = true := rfl
  have hbringUp : (bringUp profiles).isDense = true := rfl
  exact .next rfl (.gap rfl (.gap rfl (.next rfl (.gap hteardown (.next hbringUp (.last rfl))))))

/-- A comment that ends with a full stop is trimmed. -/
theorem Program.isTrimmed_sentence {front back : String} (h : '\n' ∉ (front ++ back).toList)
    (hback : back.toList.getLast? = some '.') : IsTrimmed (front ++ back).toList := by
  apply IsTrimmed.of_getLast? (c := '.') h
  · rw [String.toList_append, List.getLast?_append, hback]
    rfl
  · decide

namespace Project

/-- The statements that add something to a project are dense. -/
theorem isDense_of_mem_additions {α : Type} {values : List α} {method : String}
    {args : α → List Expr} {s : Stmt}
    (h : s ∈ values.map fun value => addition method (args value)) : s.isDense = true := by
  obtain ⟨value, -, rfl⟩ := List.mem_map.1 h
  rfl

/-- The statements of the function that builds a project are spaced. -/
theorem spaced_constructorBody (p : Project) (name : String) (services : List ServiceCode) :
    Stmt.Spaced (p.constructorBody name services) := by
  have hfirst : Stmt.Spaced
      [.define [projectVar] (.packageCall .gantry "NewProject" [.string name])] :=
    .last rfl
  rw [constructorBody, ← List.singleton_append]
  refine .append (.append_stmtSection (.append_stmtSection (.append_stmtSection hfirst ?_) ?_) ?_)
    (.last rfl)
  · exact fun _ hs => isDense_of_mem_additions hs
  · exact fun _ hs => isDense_of_mem_additions hs
  · exact fun _ hs => isDense_of_mem_additions hs

/-! ## Programs -/

/-- The comments of the functions of a program are trimmed. -/
theorem isTrimmed_of_mem_doc {p : Project} {options : GenerateOptions} {func : Func}
    (hfunc : func ∈ (p.programFile options).funcs) {line : String} (hline : line ∈ func.doc) :
    IsTrimmed line.toList := by
  have hnewline := (p.programFile_commentsOnLines options).2 func hfunc line hline
  rcases mem_funcs_programFile hfunc with rfl | ⟨s, -, hfunc⟩ | rfl | rfl
  · cases List.mem_singleton.1 hline
    exact isTrimmed_sentence hnewline (by decide)
  · simp only [ServiceCode.funcs, List.mem_cons, Option.mem_toList, Option.map_eq_some_iff]
      at hfunc
    rcases hfunc with rfl | ⟨orchestration, -, rfl⟩
    · cases List.mem_singleton.1 hline
      exact isTrimmed_sentence hnewline (by decide)
    · cases List.mem_singleton.1 hline
      exact isTrimmed_sentence hnewline (by decide)
  · cases hline
  · cases List.mem_singleton.1 hline
    exact isTrimmed_sentence hnewline (by decide)

/-- The statements of the functions of a program are spaced. -/
theorem spaced_of_mem_funcs {p : Project} {options : GenerateOptions} {func : Func}
    (hfunc : func ∈ (p.programFile options).funcs) : Stmt.Spaced func.body := by
  rcases mem_funcs_programFile hfunc with rfl | ⟨s, -, hfunc⟩ | rfl | rfl
  · exact p.spaced_constructorBody _ _
  · simp only [ServiceCode.funcs, List.mem_cons, Option.mem_toList, Option.map_eq_some_iff]
      at hfunc
    rcases hfunc with rfl | ⟨orchestration, -, rfl⟩
    · exact .last rfl
    · exact .last rfl
  · exact .last rfl
  · exact spaced_runFunction options.profiles

/-- The program of a project is spaced. -/
theorem programFile_spaced (p : Project) (options : GenerateOptions) :
    (p.programFile options).Spaced where
  header line hline := by
    cases List.mem_singleton.1 hline
    exact .of_getLast? (c := '.') (by decide) (by decide) (by decide)
  doc _ hfunc _ hline := isTrimmed_of_mem_doc hfunc hline
  body _ hfunc := spaced_of_mem_funcs hfunc

/-- The program of a project refers to the builder API. -/
theorem programFile_packages_ne_nil (p : Project) (options : GenerateOptions) :
    (p.programFile options).packages ≠ [] := by
  refine List.ne_nil_of_mem (a := Package.gantry) (File.mem_packages.2 ?_)
  exact List.mem_flatMap.2 ⟨_, List.mem_cons_self, List.mem_cons_self⟩

end Project
end Stackwright
