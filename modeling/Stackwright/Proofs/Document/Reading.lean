import Stackwright.Document.Reading
import Stackwright.Proofs.Document.Reordering

/-!
# Documents have distinct keys

A document that was read has no mapping with two keys that are the same: every key
is compared with those in front of it before its value is read.

Main result:

- Theorem `distinctKeys_of_read`: the keys of a document that was read are distinct.
-/

namespace Stackwright
namespace Document

/-! ## Scalars -/

/-- A plain scalar has no parts, whatever it is resolved to. -/
theorem isScalar_resolve {text : String} {t : Tree} (h : Scalar.resolve text = .ok t) :
    t.isScalar = true := by
  unfold Scalar.resolve at h
  dsimp only at h
  repeat' split at h
  all_goals cases h
  all_goals rfl

/-- A scalar of a known kind has no parts. -/
theorem isScalar_resolveAs {kind text : String} {t : Tree}
    (h : Scalar.resolveAs kind text = .ok t) : t.isScalar = true := by
  have hread {α : Type} (value : Option α) (f : α → Tree) (hf : ∀ a, (f a).isScalar = true)
      (h : (value.map fun a => Except.ok (f a)).getD (.error Problem.tag) = .ok t) :
      t.isScalar = true := by
    cases value with
    | none => cases h
    | some a =>
        cases h
        exact hf a
  unfold Scalar.resolveAs at h
  dsimp only at h
  split at h
  · exact hread _ _ (fun _ => rfl) h
  · exact hread _ _ (fun _ => rfl) h
  · exact hread _ _ (fun _ => rfl) h
  · split at h
    · cases h
      rfl
    · cases h
  · cases h
    rfl

namespace Tree.DistinctKeys

variable {view : Tree → Tree}

/-- A tag around a tree adds no keys. -/
theorem withTag {value : Tree} (h : value.DistinctKeys view) (tag : Option (List UInt8)) :
    (Document.withTag tag value).DistinctKeys view := by
  unfold Document.withTag
  split
  · exact .tagged h
  · exact h

theorem of_untaggedScalar {text : String} {plain : Bool} {t : Tree}
    (h : untaggedScalar text plain = .ok t) : t.DistinctKeys view := by
  unfold untaggedScalar at h
  split at h
  · exact .scalar (isScalar_resolve h)
  · cases h
    exact .scalar rfl

theorem of_scalarValue {tag : Option (List UInt8)} {text : String} {plain : Bool} {t : Tree}
    (h : scalarValue tag text plain = .ok t) : t.DistinctKeys view := by
  unfold scalarValue at h
  split at h
  · exact of_untaggedScalar h
  · split at h
    · cases hscalar : untaggedScalar text plain with
      | error problem =>
          rw [hscalar] at h
          cases h
      | ok value =>
          rw [hscalar] at h
          cases h
          exact (of_untaggedScalar hscalar).withTag _
    · split at h
      · exact .scalar (isScalar_resolveAs h)
      · cases h
        exact .scalar rfl

end Tree.DistinctKeys

/-! ## Collections -/

/-- A new entry keeps the keys of a mapping distinct if none of them is the same as its key. -/
theorem Tree.DistinctKeys.mapping_concat {entries : List (Tree × Tree)} {key value : Tree}
    (h : (Tree.mapping entries).DistinctKeys id) (hnew : ∀ e ∈ entries, e.1.same key = false)
    (hkey : key.DistinctKeys id) (hvalue : value.DistinctKeys id) :
    (Tree.mapping (entries ++ [(key, value)])).DistinctKeys id := by
  obtain ⟨distinct, keys, values⟩ := mapping_iff.1 h
  refine .mapping ?_ ?_ ?_
  · refine List.pairwise_append.2 ⟨distinct, List.pairwise_singleton _ _, fun e he f hf => ?_⟩
    rw [List.mem_singleton.1 hf]
    exact hnew e he
  · exact List.forall_mem_append.2 ⟨keys, List.forall_mem_singleton.2 hkey⟩
  · exact List.forall_mem_append.2 ⟨values, List.forall_mem_singleton.2 hvalue⟩

/-- What is built within some fuel has distinct keys. -/
structure BuildsDistinct (all : List Part) (fuel : Nat) : Prop where
  value : ∀ {depth b t b'}, build all fuel depth b = .ok (t, b') → t.DistinctKeys id
  items : ∀ {depth front b result b'}, buildItems all fuel depth front b = .ok (result, b') →
    (∀ t ∈ front, t.DistinctKeys id) → ∀ t ∈ result, t.DistinctKeys id
  entries : ∀ {depth front b result b'}, buildEntries all fuel depth front b = .ok (result, b') →
    (Tree.mapping front.reverse).DistinctKeys id → (Tree.mapping result).DistinctKeys id

namespace BuildsDistinct

variable {all : List Part} {fuel : Nat}

/-- One more step of fuel: a value is a scalar, a collection of smaller parts, or another value
that an alias stands for. -/
theorem value_succ (ih : BuildsDistinct all fuel) {depth : Nat} {b b' : Builder} {t : Tree}
    (h : build all (fuel + 1) depth b = .ok (t, b')) : t.DistinctKeys id := by
  unfold build at h
  split at h
  · cases h
  · split at h
    · cases h
    · simp only [bind_eq_ok_iff, pure_eq_ok_iff] at h
      obtain ⟨⟨value, after⟩, hvalue, heq⟩ := h
      cases heq
      exact ih.value hvalue
  · simp only [bind_eq_ok_iff, pure_eq_ok_iff] at h
    obtain ⟨value, hvalue, heq⟩ := h
    cases heq
    exact .of_scalarValue hvalue
  · split at h
    · cases h
    · simp only [bind_eq_ok_iff, pure_eq_ok_iff] at h
      obtain ⟨⟨items, after⟩, hitems, heq⟩ := h
      cases heq
      exact .withTag (.sequence (ih.items hitems (by simp))) _
  · split at h
    · cases h
    · simp only [bind_eq_ok_iff, pure_eq_ok_iff] at h
      obtain ⟨⟨entries, after⟩, hentries, heq⟩ := h
      cases heq
      exact .withTag (ih.entries hentries (.mapping .nil (by simp) (by simp))) _
  · cases h

/-- The items of a block have distinct keys if those that are built with less fuel have. -/
theorem items_succ (ih : BuildsDistinct all fuel) {depth : Nat} {b b' : Builder}
    {front result : List Tree} (h : buildItems all (fuel + 1) depth front b = .ok (result, b'))
    (hfront : ∀ t ∈ front, t.DistinctKeys id) : ∀ t ∈ result, t.DistinctKeys id := by
  unfold buildItems at h
  split at h
  · cases h
    simpa using hfront
  · simp only [bind_eq_ok_iff] at h
    obtain ⟨⟨item, after⟩, hitem, hrest⟩ := h
    exact ih.items hrest (List.forall_mem_cons.2 ⟨ih.value hitem, hfront⟩)

/-- A key is compared with the keys in front of it, so a new entry keeps them distinct. -/
theorem entries_succ (ih : BuildsDistinct all fuel) {depth : Nat} {b b' : Builder}
    {front result : List (Tree × Tree)}
    (h : buildEntries all (fuel + 1) depth front b = .ok (result, b'))
    (hfront : (Tree.mapping front.reverse).DistinctKeys id) :
    (Tree.mapping result).DistinctKeys id := by
  unfold buildEntries at h
  split at h
  · cases h
    exact hfront
  · simp only [bind_eq_ok_iff] at h
    obtain ⟨⟨key, afterKey⟩, hkey, h⟩ := h
    dsimp only at h
    split at h
    · cases h
    · rename_i hnew
      simp only [bind_eq_ok_iff] at h
      obtain ⟨⟨value, afterValue⟩, hvalue, hrest⟩ := h
      have hnew' : ∀ e ∈ front.reverse, e.1.same key = false := by
        simpa using hnew
      refine ih.entries hrest ?_
      rw [List.reverse_cons]
      exact hfront.mapping_concat hnew' (ih.value hkey) (ih.value hvalue)

/-- With any fuel, what is built has distinct keys. -/
theorem ofFuel (all : List Part) (fuel : Nat) : BuildsDistinct all fuel := by
  induction fuel with
  | zero =>
      refine ⟨fun h => ?_, fun h => ?_, fun h => ?_⟩
      all_goals cases h
  | succ fuel ih => exact ⟨ih.value_succ, ih.items_succ, ih.entries_succ⟩

end BuildsDistinct

/-- The keys of a document that was read are distinct. -/
theorem distinctKeys_of_read {text : String} {t : Tree} (h : Tree.read text = .ok t) :
    t.DistinctKeys id := by
  simp only [Tree.read, Tree.ofEvents, bind_eq_ok_iff, pure_eq_ok_iff] at h
  obtain ⟨tokens, -, events, -, ⟨numbers, anchors⟩, -, ⟨value, rest⟩, hvalue, rfl⟩ := h
  exact (BuildsDistinct.ofFuel _ _).value hvalue

end Document
end Stackwright
