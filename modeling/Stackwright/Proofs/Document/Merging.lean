import Stackwright.Document.Merge
import Stackwright.Proofs.Document.Reordering

/-!
# Merging a document over itself

A key of a mapping is found again under itself, since every tree is the same key as
itself, and no key before it is taken for it, since the keys of a mapping differ.
So every entry of a document that is merged over itself meets its own value, and
nothing changes, at whatever depth.

Main results:

- Theorem `same_self`: every tree is the same key as itself.
- Theorem `merge_self`: merging a document over itself changes nothing.
- Theorem `null_merge`: merging a document over nothing gives the document.
-/

namespace Stackwright
namespace Document
namespace Tree

/-! ## Trees that are the same key -/

/-- A float is the same number as itself, also if it is no number. -/
theorem sameFloat_self (x : Float) : sameFloat x x = true := by
  have hbeq : (x == x) = (x.toModel.unpack.compare x.toModel.unpack == some .eq) := rfl
  have hnan : x.isNaN = x.toModel.unpack.isNaN := rfl
  rw [sameFloat, hbeq, hnan]
  cases x.toModel.unpack with
  | notANumber => rfl
  | infinity sign => cases sign <;> rfl
  | zero sign => rfl
  | finite sign mantissa exponent hmantissa =>
      have horder : (compare exponent exponent).then (compare mantissa mantissa) = .eq := by simp
      cases sign with
      | positive =>
          change (some ((compare exponent exponent).then (compare mantissa mantissa)) == some .eq
            || _) = true
          rw [horder]
          rfl
      | negative =>
          change (some ((compare exponent exponent).then (compare mantissa mantissa)).swap
            == some .eq || _) = true
          rw [horder]
          rfl

theorem sameEntries_eq (es fs : List (Tree × Tree)) :
    sameEntries es fs = es.all fun e => fs.any fun f => same e.1 f.1 && same e.2 f.2 := by
  induction es with
  | nil => rfl
  | cons e es ih => rw [sameEntries, ih, List.all_cons]

/-- Every tree is the same key as itself. -/
theorem same_self (t : Tree) : same t t = true := by
  induction t using memberInduction with
  | scalar t leaf =>
      cases t with
      | float value => exact sameFloat_self value
      | null | bool value | int value | text value => simp [same]
      | _ => cases leaf
  | sequence items ih =>
      rw [same]
      induction items with
      | nil => rfl
      | cons item rest ihrest =>
          obtain ⟨hitem, hrest⟩ := List.forall_mem_cons.1 ih
          rw [sameItems, hitem, ihrest hrest]
          rfl
  | mapping entries ih =>
      have hentries : sameEntries entries entries = true := by
        rw [sameEntries_eq, List.all_eq_true]
        intro e he
        rw [List.any_eq_true]
        exact ⟨e, he, by rw [(ih e he).1, (ih e he).2]; rfl⟩
      rw [same, hentries, beq_self_eq_true]
      rfl
  | tagged tag value ih =>
      rw [same, ih, beq_self_eq_true]
      rfl

/-! ## Merging -/

/-- A change under a key that no entry in front has leaves these entries alone. -/
theorem upsert_append {key value fresh : Tree} {change : Tree → Tree}
    {front rest : List (Tree × Tree)} (h : ∀ e ∈ front, same e.1 key = false) :
    upsert key change fresh (front ++ (key, value) :: rest)
      = front ++ (key, change value) :: rest := by
  induction front with
  | nil => rw [List.nil_append, upsert, same_self, if_pos rfl, List.nil_append]
  | cons e front ih =>
      obtain ⟨he, hfront⟩ := List.forall_mem_cons.1 h
      rw [List.cons_append, upsert, he, if_neg Bool.false_ne_true, ih hfront, List.cons_append]

/-- Entries with different keys, each of which is its own merge, are merged over themselves
without a change.  Those in front are done. -/
theorem mergeEntries_self {front rest : List (Tree × Tree)}
    (hdistinct : (front ++ rest).Pairwise fun e f => same e.1 f.1 = false)
    (hvalues : ∀ e ∈ rest, merge e.2 e.2 = e.2) :
    mergeEntries (front ++ rest) rest = front ++ rest := by
  induction rest generalizing front with
  | nil => rw [mergeEntries]
  | cons e rest ih =>
      obtain ⟨key, value⟩ := e
      obtain ⟨hvalue, hrest⟩ := List.forall_mem_cons.1 hvalues
      have hfront : ∀ e ∈ front, same e.1 key = false := fun e he =>
        (List.pairwise_append.1 hdistinct).2.2 e he _ List.mem_cons_self
      rw [mergeEntries, upsert_append hfront, hvalue, List.append_cons]
      rw [List.append_cons] at hdistinct
      exact ih hdistinct hrest

/-- Merging a document over itself changes nothing. -/
theorem merge_self {t : Tree} (h : t.DistinctKeys id) : merge t t = t := by
  induction t using memberInduction with
  | scalar t leaf =>
      cases t with
      | null | bool value | int value | float value | text value => rfl
      | _ => cases leaf
  | sequence items _ => rfl
  | mapping entries ih =>
      obtain ⟨distinct, -, values⟩ := DistinctKeys.mapping_iff.1 h
      have hentries : mergeEntries ([] ++ entries) entries = [] ++ entries :=
        mergeEntries_self distinct fun e he => (ih e he).2 (values e he)
      rw [merge]
      exact congrArg mapping hentries
  | tagged tag value _ => rfl

/-- Merging a document over nothing gives the document. -/
@[simp]
theorem null_merge (t : Tree) : merge .null t = t := by
  cases t <;> rfl

end Tree
end Document
end Stackwright
