import Mathlib
import Stackwright.Proofs.Document.Merging

/-!
# Keys that are the same

Looking up, changing and adding entries of a mapping compares keys with `same`,
which does not look at the order in which the entries of a mapping are written.  For
mappings with distinct keys it is an equivalence, and this is what makes the value
under a key a notion of its own: whichever of the keys that are the same is asked for
or written, the same entry is meant.

Main results:

- Theorem `sameFloat_iff`: floats are the same number if they are equal once the
  sign of a zero is forgotten.
- Theorem `exists_match_of_length_eq`: as many partners as there are members leave
  nobody without one.
- Theorems `same_symm` and `same_trans`: being the same key is symmetric and
  transitive.
-/

namespace Stackwright
namespace Document
namespace Tree

/-! ## Floats -/

open Float.Model (UnpackedFloat)

/-- A float without the sign of a zero. -/
def floatKey (x : Float) : UnpackedFloat :=
  match x.toModel.unpack with
  | .zero _ => .zero .positive
  | u => u

/-- Floats are the same number exactly if they differ at most in the sign of a zero. -/
theorem sameFloat_iff {a b : Float} : sameFloat a b = true ↔ floatKey a = floatKey b := by
  have hbeq : (a == b) = (a.toModel.unpack.compare b.toModel.unpack == some .eq) := rfl
  have hnan (x : Float) : x.isNaN = x.toModel.unpack.isNaN := rfl
  rw [sameFloat, hbeq, hnan, hnan, floatKey, floatKey]
  cases a.toModel.unpack with
  | notANumber =>
      cases b.toModel.unpack <;> simp [UnpackedFloat.compare, UnpackedFloat.isNaN]
  | infinity sign =>
      cases b.toModel.unpack with
      | infinity sign' =>
          cases sign <;> cases sign' <;>
            simp [UnpackedFloat.compare, UnpackedFloat.isNaN] <;> decide
      | _ => cases sign <;> simp [UnpackedFloat.compare, UnpackedFloat.isNaN]
  | zero sign =>
      cases b.toModel.unpack with
      | infinity sign' => cases sign' <;> simp [UnpackedFloat.compare, UnpackedFloat.isNaN]
      | finite sign' mantissa exponent positive =>
          cases sign' <;> simp [UnpackedFloat.compare, UnpackedFloat.isNaN]
      | _ => simp [UnpackedFloat.compare, UnpackedFloat.isNaN]
  | finite sign mantissa exponent positive =>
      cases b.toModel.unpack with
      | infinity sign' => cases sign' <;> simp [UnpackedFloat.compare, UnpackedFloat.isNaN]
      | zero sign' => cases sign <;> simp [UnpackedFloat.compare, UnpackedFloat.isNaN]
      | notANumber => simp [UnpackedFloat.compare, UnpackedFloat.isNaN]
      | finite sign' mantissa' exponent' positive' =>
          cases sign <;> cases sign' <;>
            simp [UnpackedFloat.compare, UnpackedFloat.isNaN, and_comm]

/-! ## Partners -/

/-- If every member of a list has a partner in a list of the same length, and no two
members have one in common, every member of the second list is a partner. -/
theorem exists_match_of_length_eq {α β : Type} {R : α → β → Prop} {as : List α} {bs : List β}
    (hlength : as.length = bs.length) (hpartner : ∀ a ∈ as, ∃ b ∈ bs, R a b)
    (hapart : as.Pairwise fun a a' => ∀ b ∈ bs, R a b → ¬ R a' b) :
    ∀ b ∈ bs, ∃ a ∈ as, R a b := by
  induction as generalizing bs with
  | nil =>
      rw [List.length_nil] at hlength
      simp [List.eq_nil_of_length_eq_zero hlength.symm]
  | cons a as ih =>
      obtain ⟨⟨partner, hmem, hrelated⟩, hothers⟩ := List.forall_mem_cons.1 hpartner
      obtain ⟨hfirst, hrest⟩ := List.pairwise_cons.1 hapart
      obtain ⟨front, back, rfl⟩ := List.append_of_mem hmem
      -- The partner of `a` is taken out, and nobody else's partner is lost with it.
      have hsub : ∀ b ∈ front ++ back, b ∈ front ++ partner :: back := by
        intro b hb
        rw [List.mem_append] at hb ⊢
        exact hb.imp_right (List.mem_cons_of_mem _)
      have hleft : ∀ a' ∈ as, ∃ b ∈ front ++ back, R a' b := by
        intro a' ha'
        obtain ⟨b, hb, hab⟩ := hothers a' ha'
        refine ⟨b, ?_, hab⟩
        rw [List.mem_append, List.mem_cons] at hb
        rcases hb with hb | rfl | hb
        · exact List.mem_append_left _ hb
        · exact absurd hab (hfirst a' ha' b hmem hrelated)
        · exact List.mem_append_right _ hb
      have hcount : as.length = (front ++ back).length := by
        simp only [List.length_cons, List.length_append] at hlength ⊢
        omega
      have hall := ih hcount hleft (hrest.imp fun h b hb => h b (hsub b hb))
      intro b hb
      rw [List.mem_append, List.mem_cons] at hb
      rcases hb with hb | rfl | hb
      · obtain ⟨a', ha', hab⟩ := hall b (List.mem_append_left _ hb)
        exact ⟨a', List.mem_cons_of_mem _ ha', hab⟩
      · exact ⟨a, List.mem_cons_self, hrelated⟩
      · obtain ⟨a', ha', hab⟩ := hall b (List.mem_append_right _ hb)
        exact ⟨a', List.mem_cons_of_mem _ ha', hab⟩

/-! ## Trees -/

theorem sameItems_iff {as bs : List Tree} :
    sameItems as bs = true ↔ List.Forall₂ (fun a b => same a b = true) as bs := by
  induction as generalizing bs with
  | nil => cases bs <;> simp [sameItems]
  | cons a as ih => cases bs <;> simp [sameItems, ih]

/-- Mappings are the same if they have as many entries and each of the first is in the
second. -/
theorem same_mapping_iff {es fs : List (Tree × Tree)} :
    same (.mapping es) (.mapping fs) = true ↔
      es.length = fs.length ∧
        ∀ e ∈ es, ∃ f ∈ fs, same e.1 f.1 = true ∧ same e.2 f.2 = true := by
  simp [same, sameEntries_eq]

theorem exists_mapping_of_same {es : List (Tree × Tree)} {t : Tree}
    (h : same (.mapping es) t = true) : ∃ fs, t = .mapping fs := by
  cases t with
  | mapping fs => exact ⟨fs, rfl⟩
  | _ => simp [same] at h

/-- Trees that are the same as one tree are the same. -/
theorem same_trans {a b c : Tree} (hab : same a b = true) (hbc : same b c = true) :
    same a c = true := by
  induction a using memberInduction generalizing b c with
  | scalar a leaf =>
      cases a with
      | float x =>
          cases b <;> simp [same] at hab
          cases c <;> simp [same] at hbc
          rw [sameFloat_iff] at hab hbc
          rw [same, sameFloat_iff]
          exact hab.trans hbc
      | null | bool x | int x | text x =>
          cases b <;> simp [same] at hab
          cases c <;> simp [same] at hbc
          simp [same, hab, hbc]
      | _ => cases leaf
  | sequence items ih =>
      cases b <;> simp [same] at hab
      cases c <;> simp [same] at hbc
      rw [sameItems_iff] at hab hbc
      rw [same, sameItems_iff]
      rename_i bs cs
      induction hab generalizing cs with
      | nil => exact hbc
      | cons hhead _ ihrest =>
          obtain ⟨hitem, hitems⟩ := List.forall_mem_cons.1 ih
          cases hbc with
          | cons hhead' htail' => exact .cons (hitem hhead hhead') (ihrest hitems _ htail')
  | mapping entries ih =>
      obtain ⟨fs, rfl⟩ := exists_mapping_of_same hab
      obtain ⟨gs, rfl⟩ := exists_mapping_of_same hbc
      rw [same_mapping_iff] at hab hbc ⊢
      refine ⟨hab.1.trans hbc.1, fun e he => ?_⟩
      obtain ⟨f, hf, hkey, hvalue⟩ := hab.2 e he
      obtain ⟨g, hg, hkey', hvalue'⟩ := hbc.2 f hf
      exact ⟨g, hg, (ih e he).1 hkey hkey', (ih e he).2 hvalue hvalue'⟩
  | tagged tag value ih =>
      cases b <;> simp [same] at hab
      cases c <;> simp [same] at hbc
      simp only [same, hab.1, hbc.1, ih hab.2 hbc.2, beq_self_eq_true, Bool.and_self]

/-- A tree with distinct keys is the same as those that it is the same as. -/
theorem same_symm {a b : Tree} (h : a.DistinctKeys id) (hab : same a b = true) :
    same b a = true := by
  induction a using memberInduction generalizing b with
  | scalar a leaf =>
      cases a with
      | float x =>
          cases b <;> simp [same] at hab
          rw [sameFloat_iff] at hab
          rw [same, sameFloat_iff]
          exact hab.symm
      | null | bool x | int x | text x =>
          cases b <;> simp [same] at hab
          simp [same, hab]
      | _ => cases leaf
  | sequence items ih =>
      cases b <;> simp [same] at hab
      rw [sameItems_iff] at hab
      rw [same, sameItems_iff]
      have hitems := DistinctKeys.sequence_iff.1 h
      exact (forall₂_imp_of_mem hab fun t ht u htu => ih t ht (hitems t ht) htu).flip
  | mapping entries ih =>
      obtain ⟨fs, rfl⟩ := exists_mapping_of_same hab
      obtain ⟨distinct, keys, values⟩ := DistinctKeys.mapping_iff.1 h
      rw [same_mapping_iff] at hab ⊢
      -- Two entries that are found in one entry would have the same key.
      have hpartners := exists_match_of_length_eq hab.1 hab.2 <| by
        refine distinct.imp_of_mem fun {e e'} he he' hne f _ hef hef' => ?_
        have hback : same f.1 e'.1 = true := (ih e' he').1 (keys e' he') hef'.1
        rw [id, id, same_trans hef.1 hback] at hne
        exact absurd hne (by decide)
      refine ⟨hab.1.symm, fun f hf => ?_⟩
      obtain ⟨e, he, hkey, hvalue⟩ := hpartners f hf
      exact ⟨e, he, (ih e he).1 (keys e he) hkey, (ih e he).2 (values e he) hvalue⟩
  | tagged tag value ih =>
      cases b <;> simp [same] at hab
      simp only [same, hab.1, ih (DistinctKeys.tagged_iff.1 h) hab.2, beq_self_eq_true,
        Bool.and_self]

end Tree
end Document
end Stackwright
