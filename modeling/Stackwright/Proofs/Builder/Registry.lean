import Stackwright.Builder.Registry
import Stackwright.Proofs.Builder.Calls

/-!
# Trivial networks and volumes

Whether a network or a volume is trivial is a test of its own, beside the list of its calls.
The test looks at every field that has calls and at no other, so it is only another way to ask
if there is a call, and no setting is lost where a trivial one is created by its name.

Main results:

- Theorems `Network.isTrivial_iff` and `Volume.isTrivial_iff`: the trivial ones are those
  without a call.
- Theorems `Network.creation_eq` and `Volume.creation_eq`: the trivial ones need no case of
  their own.
- Theorem `creations_keep_settings`: both, for networks and for volumes.
-/

namespace Stackwright

open Program

theorem isUnset_iff {text : Option String} : isUnset text = true ↔ given text = none := by
  cases text <;> simp [isUnset, given]

theorem Ipam.isEmpty_iff {i : Ipam} : i.isEmpty = true ↔ i.fields.flatten = [] := by
  simp [isEmpty, fields, isUnset_iff]

/-- A network is trivial exactly if it has no call. -/
theorem Network.isTrivial_iff {n : Network} : n.isTrivial = true ↔ n.calls = [] := by
  have hipam : n.ipam.all Ipam.isEmpty = true ↔
      ((n.ipam.map Ipam.fields).getD []).flatten = [] := by
    cases n.ipam with
    | none => simp
    | some i => exact Ipam.isEmpty_iff
  simp only [isTrivial, calls, fields, Bool.and_eq_true, Bool.not_eq_true', isUnset_iff,
    Dict.isEmpty_iff, hipam, List.flatten_append, List.flatten_cons, List.flatten_nil,
    List.append_nil, List.append_eq_nil_iff, Calls.text_eq_nil_iff, Calls.pairs_eq_nil_iff,
    Calls.flag_eq_nil_iff, and_assoc]

/-- A volume is trivial exactly if it has no call. -/
theorem Volume.isTrivial_iff {v : Volume} : v.isTrivial = true ↔ v.calls = [] := by
  simp [isTrivial, calls, fields, isUnset_iff, Dict.isEmpty_iff, and_assoc]

/-- The name that is declared; the key stands in for a missing or an empty one. -/
def nameOrKey (name : Option String) (key : String) : String :=
  match name with
  | none => key
  | some name => if name = "" then key else name

theorem given_getD (name : Option String) (key : String) :
    (given name).getD key = nameOrKey name key := by
  cases name with
  | none => rfl
  | some name => by_cases h : name = "" <;> simp [given, nameOrKey, Option.filter_some, h]

/-- A list that is left out where it is empty. -/
theorem ite_nil_eq {α : Type} {l : List α} {empty : Bool} (h : empty = true ↔ l = []) :
    (if empty then [] else l) = l := by
  split
  · rename_i hempty
    exact (h.1 hempty).symm
  · rfl

/-- A network is created under its name and with its calls; a trivial one has none. -/
theorem Network.creation_eq (n : Network) (key : String) :
    n.creation key = .packageCall .network "New" (.string (n.nameFor key) :: n.calls) := by
  rw [creation, ite_nil_eq isTrivial_iff]

/-- A volume is created under its name and with its calls; a trivial one has none. -/
theorem Volume.creation_eq (v : Volume) (key : String) :
    v.creation key = .packageCall .volume "New" (.string (v.nameFor key) :: v.calls) := by
  rw [creation, ite_nil_eq isTrivial_iff]

/-- Every network and every volume is created under the name that it declares, or under its key if it
declares none or an empty one, and with all of its calls, and the trivial ones are exactly those
without a call. -/
theorem creations_keep_settings :
    (∀ (n : Network) key,
      n.creation key
          = .packageCall .network "New" (.string (nameOrKey n.name key) :: n.calls) ∧
        (n.isTrivial = true ↔ n.calls = [])) ∧
    ∀ (v : Volume) key,
      v.creation key = .packageCall .volume "New" (.string (nameOrKey v.name key) :: v.calls) ∧
        (v.isTrivial = true ↔ v.calls = []) := by
  refine ⟨fun n key => ⟨?_, Network.isTrivial_iff⟩, fun v key => ⟨?_, Volume.isTrivial_iff⟩⟩
  · rw [n.creation_eq, Network.nameFor, given_getD]
  · rw [v.creation_eq, Volume.nameFor, given_getD]

end Stackwright
