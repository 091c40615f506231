import Stackwright.Program.Printer
import Stackwright.Proofs.Text.Split

/-!
# Import paths

Whatever the module root is, the last segment of the path of a package is the
name of the package.  So no two packages have the same path, and the sorted paths
of different packages ascend strictly.

Main results:

- Theorem `getLastD_splitAll_importPath`: the last segment of an import path.
- Theorem `importPaths_pairwise`: import paths ascend strictly.
-/

namespace Stackwright

namespace Text

theorem splitAll_cons (sep c : Char) (s : List Char) :
    splitAll sep (c :: s) = if c = sep then [] :: splitAll sep s else consPart c (splitAll sep s) :=
  rfl

theorem splitAll_ne_nil (sep : Char) (s : List Char) : splitAll sep s ≠ [] := by
  cases s with
  | nil => exact List.cons_ne_nil _ _
  | cons c rest =>
      rw [splitAll_cons]
      split
      · exact List.cons_ne_nil _ _
      · cases splitAll sep rest <;> exact List.cons_ne_nil _ _

/-- A text without the separator is one part. -/
theorem splitAll_of_notMem {sep : Char} {s : List Char} (h : sep ∉ s) : splitAll sep s = [s] := by
  induction s with
  | nil => rfl
  | cons c rest ih =>
      have hc : c ≠ sep := fun heq => h (heq ▸ List.mem_cons_self)
      rw [splitAll_cons, if_neg hc, ih fun hmem => h (List.mem_cons_of_mem _ hmem)]
      rfl

/-- The parts of a text around a separator. -/
theorem splitAll_append (sep : Char) (a b : List Char) :
    splitAll sep (a ++ sep :: b) = splitAll sep a ++ splitAll sep b := by
  induction a with
  | nil =>
      rw [List.nil_append, splitAll_cons, if_pos rfl]
      rfl
  | cons c rest ih =>
      rw [List.cons_append, splitAll_cons, splitAll_cons, ih]
      split
      · rfl
      · cases hparts : splitAll sep rest with
        | nil => exact absurd hparts (splitAll_ne_nil sep rest)
        | cons part parts => rfl

/-- The last part of a text is what comes after its last separator. -/
theorem getLastD_splitAll_append {sep : Char} {b : List Char} (h : sep ∉ b) (a : List Char) :
    (splitAll sep (a ++ sep :: b)).getLastD [] = b := by
  rw [splitAll_append, splitAll_of_notMem h, List.getLastD_concat]

/-- The last part of a text is part of the text. -/
theorem getLastD_splitAll_subset (sep : Char) (s : List Char) :
    (splitAll sep s).getLastD [] ⊆ s := by
  by_cases h : sep ∈ s
  · obtain ⟨front, back, rfl, hback⟩ := exists_last h
    rw [getLastD_splitAll_append hback]
    exact List.Subset.trans (List.subset_cons_self _ _) (List.subset_append_right _ _)
  · rw [splitAll_of_notMem h]
    exact List.Subset.refl s

end Text

namespace Program

namespace Package

theorem slash_notMem_name (p : Package) : '/' ∉ p.name.toList := by
  cases p <;> decide

/-- The path of a package ends with its name, after a slash if there is more. -/
theorem importPath_cases (root : String) (p : Package) :
    p.importPath root = p.name ∨
      ∃ front, (p.importPath root).toList = front ++ '/' :: p.name.toList := by
  by_cases hsignal : p = .signal
  · subst hsignal
    exact .inr ⟨['o', 's'], by rw [importPath]; decide⟩
  · rw [importPath.eq_2 root p hsignal]
    split
    · exact .inl rfl
    · refine .inr ⟨(root.toList.reverse.dropWhile (· == '/')).reverse, ?_⟩
      simp

/-- The last segment of the path of a package is its name. -/
theorem getLastD_splitAll_importPath (root : String) (p : Package) :
    (Text.splitAll '/' (p.importPath root).toList).getLastD [] = p.name.toList := by
  rcases p.importPath_cases root with hpath | ⟨front, hpath⟩
  · rw [hpath, Text.splitAll_of_notMem p.slash_notMem_name]
    rfl
  · rw [hpath, Text.getLastD_splitAll_append p.slash_notMem_name]

theorem name_injective {p q : Package} (h : p.name.toList = q.name.toList) : p = q := by
  have hall : ∀ p ∈ all, ∀ q ∈ all, p.name.toList = q.name.toList → p = q := by
    decide
  exact hall p p.mem_all q q.mem_all h

/-- Different packages have different paths. -/
theorem importPath_injective {root : String} {p q : Package}
    (h : p.importPath root = q.importPath root) : p = q := by
  apply name_injective
  rw [← getLastD_splitAll_importPath root p, h, getLastD_splitAll_importPath]

end Package

/-- The import paths of packages are their paths, sorted. -/
theorem importPaths_perm (root : String) (packages : List Package) :
    (importPaths root packages).Perm (packages.map (Package.importPath root)) :=
  List.mergeSort_perm _ _

/-- Different packages have different import paths. -/
theorem nodup_map_importPath (root : String) {packages : List Package} (h : packages.Nodup) :
    (packages.map (Package.importPath root)).Nodup :=
  List.pairwise_map.2 (h.imp fun hne heq => hne (Package.importPath_injective heq))

/-- The import paths of different packages ascend strictly. -/
theorem importPaths_pairwise (root : String) {packages : List Package} (h : packages.Nodup) :
    (importPaths root packages).Pairwise (· < ·) := by
  have hnodup : (importPaths root packages).Nodup :=
    (importPaths_perm root packages).nodup_iff.2 (nodup_map_importPath root h)
  have hsorted : (importPaths root packages).Pairwise fun a b => decide (a ≤ b) = true := by
    refine List.pairwise_mergeSort ?_ ?_ _
    · intro a b c hab hbc
      exact decide_eq_true (String.le_trans (of_decide_eq_true hab) (of_decide_eq_true hbc))
    · intro a b
      simpa using String.le_total a b
  refine (hsorted.and hnodup).imp fun {a b} hab => ?_
  refine Decidable.byContradiction fun hlt => hab.2 ?_
  exact String.le_antisymm (of_decide_eq_true hab.1) (String.not_lt.1 hlt)

/-- The packages of a file are listed once each. -/
theorem File.nodup_packages (f : File) : f.packages.Nodup := by
  have hall : Package.all.Nodup := by decide
  exact hall.filter _

theorem File.mem_packages {f : File} {p : Package} :
    p ∈ f.packages ↔ p ∈ f.funcs.flatMap Func.packages := by
  simp [File.packages, Package.mem_all]

end Program
end Stackwright
