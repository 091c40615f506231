import Stackwright.Document.Expand
import Stackwright.Proofs.Outcome

/-!
# Documents in another order

The entries of a mapping are written in some order.  A tree is *reordered* into
another one by writing the entries of its mappings, at any depth and also in keys,
in other orders.  Expanding variables looks at the values of a document in the
order in which they are written, and still agrees on reordered documents: it fails
on both or gives documents that are reordered again.

Main results:

- Theorem `Reordered.hasTag_eq`: reordered trees have tags both or neither.
- Theorem `Reordered.expand`: expanding variables agrees on reordered trees.
- Theorem `DistinctKeys.expand`: expanding variables keeps keys distinct.
-/

namespace Stackwright
namespace Document
namespace Tree

/-! ## Trees and their parts -/

/-- Whether a tree has no parts. -/
def isScalar : Tree → Bool
  | .null | .bool _ | .int _ | .float _ | .text _ => true
  | .sequence _ | .mapping _ | .tagged _ _ => false

/-- Induction over trees, with the parts of a tree taken as members. -/
@[elab_as_elim]
theorem memberInduction {P : Tree → Prop}
    (scalar : ∀ t, t.isScalar = true → P t)
    (sequence : ∀ items, (∀ t ∈ items, P t) → P (.sequence items))
    (mapping : ∀ entries, (∀ entry ∈ entries, P entry.1 ∧ P entry.2) → P (.mapping entries))
    (tagged : ∀ tag value, P value → P (.tagged tag value))
    (t : Tree) : P t := by
  refine @Tree.rec P (fun l => ∀ t ∈ l, P t) (fun l => ∀ entry ∈ l, P entry.1 ∧ P entry.2)
    (fun entry => P entry.1 ∧ P entry.2) (scalar _ rfl) (fun _ => scalar _ rfl)
    (fun _ => scalar _ rfl) (fun _ => scalar _ rfl) (fun _ => scalar _ rfl) sequence mapping tagged
    ?_ ?_ ?_ ?_ ?_ t
  · simp
  · intro head tail ihhead ihtail
    exact List.forall_mem_cons.2 ⟨ihhead, ihtail⟩
  · simp
  · intro head tail ihhead ihtail
    exact List.forall_mem_cons.2 ⟨ihhead, ihtail⟩
  · intro key value ihkey ihvalue
    exact ⟨ihkey, ihvalue⟩

/-- A list has a tag in it if one of its items has. -/
theorem itemsHaveTag_eq (items : List Tree) : itemsHaveTag items = items.any hasTag := by
  induction items with
  | nil => rfl
  | cons item rest ih => rw [itemsHaveTag, ih, List.any_cons]

/-- Entries have a tag in them if one of their keys or values has. -/
theorem entriesHaveTag_eq (entries : List (Tree × Tree)) :
    entriesHaveTag entries = entries.any fun entry => entry.1.hasTag || entry.2.hasTag := by
  induction entries with
  | nil => rfl
  | cons entry rest ih => rw [entriesHaveTag, ih, List.any_cons]

/-- The items of a list are expanded one after the other. -/
theorem expandItems_eq (lookup : Template.Lookup) (items : List Tree) :
    expandItems lookup items = items.mapM (expand lookup) := by
  induction items with
  | nil => rfl
  | cons item rest ih => rw [expandItems, ih, List.mapM_cons]

/-- Expands the string values under the key of one entry. -/
def expandEntry (lookup : Template.Lookup) (entry : Tree × Tree) :
    Except Template.Fault (Tree × Tree) :=
  (entry.2.expand lookup).map fun value => (entry.1, value)

/-- Expanding an entry keeps its key. -/
theorem expandEntry_eq_ok {lookup : Template.Lookup} {entry entry' : Tree × Tree}
    (h : expandEntry lookup entry = .ok entry') :
    entry'.1 = entry.1 ∧ entry.2.expand lookup = .ok entry'.2 := by
  unfold expandEntry at h
  cases hvalue : entry.2.expand lookup with
  | error fault =>
      rw [hvalue] at h
      cases h
  | ok value =>
      rw [hvalue] at h
      cases h
      exact ⟨rfl, rfl⟩

/-- The entries of a mapping are expanded one after the other. -/
theorem expandEntries_eq (lookup : Template.Lookup) (entries : List (Tree × Tree)) :
    expandEntries lookup entries = entries.mapM (expandEntry lookup) := by
  induction entries with
  | nil => rfl
  | cons entry rest ih =>
      rw [expandEntries, ih, List.mapM_cons, expandEntry]
      cases entry.2.expand lookup <;> rfl

/-- A tree without parts has no tag. -/
theorem untagged_of_isScalar {t : Tree} (h : t.isScalar = true) : t.untagged = t := by
  cases t with
  | tagged tag value => cases h
  | _ => rfl

/-! ## Reordering -/

mutual
/-- A tree with the entries of its mappings in other orders, at any depth. -/
inductive Reordered : Tree → Tree → Prop
  | scalar {t : Tree} (leaf : t.isScalar = true) : Reordered t t
  | sequence {as bs : List Tree} (items : List.Forall₂ Reordered as bs) :
      Reordered (.sequence as) (.sequence bs)
  | mapping {es fs gs : List (Tree × Tree)} (entries : List.Forall₂ ReorderedEntry es fs)
      (order : fs.Perm gs) : Reordered (.mapping es) (.mapping gs)
  | tagged {tag : String} {a b : Tree} (value : Reordered a b) :
      Reordered (.tagged tag a) (.tagged tag b)

/-- An entry with the mappings in its key and its value reordered. -/
inductive ReorderedEntry : Tree × Tree → Tree × Tree → Prop
  | parts {e f : Tree × Tree} (key : Reordered e.1 f.1) (value : Reordered e.2 f.2) :
      ReorderedEntry e f
end

theorem ReorderedEntry.key {e f : Tree × Tree} (h : ReorderedEntry e f) : Reordered e.1 f.1 := by
  cases h with
  | parts key value => exact key

theorem ReorderedEntry.value {e f : Tree × Tree} (h : ReorderedEntry e f) :
    Reordered e.2 f.2 := by
  cases h with
  | parts key value => exact value

namespace Reordered

variable {t u : Tree}

/-- A tree without parts has no other order. -/
theorem eq_of_isScalar (h : Reordered t u) (leaf : t.isScalar = true) : u = t := by
  cases h with
  | scalar => rfl
  | _ => cases leaf

/-- A sequence keeps the order of its items, which are reordered themselves. -/
theorem of_sequence {as : List Tree} (h : Reordered (.sequence as) u) :
    ∃ bs, u = .sequence bs ∧ List.Forall₂ Reordered as bs := by
  cases h with
  | scalar leaf => cases leaf
  | sequence items => exact ⟨_, rfl, items⟩

/-- A mapping is reordered in two steps: its entries in their places, and then their order. -/
theorem of_mapping {es : List (Tree × Tree)} (h : Reordered (.mapping es) u) :
    ∃ fs gs, u = .mapping gs ∧ List.Forall₂ ReorderedEntry es fs ∧ fs.Perm gs := by
  cases h with
  | scalar leaf => cases leaf
  | mapping entries order => exact ⟨_, _, rfl, entries, order⟩

/-- A tag stays on the tree that is reordered. -/
theorem of_tagged {tag : String} {value : Tree} (h : Reordered (.tagged tag value) u) :
    ∃ value', u = .tagged tag value' ∧ Reordered value value' := by
  cases h with
  | scalar leaf => cases leaf
  | tagged related => exact ⟨_, rfl, related⟩

theorem refl (t : Tree) : Reordered t t := by
  induction t using memberInduction with
  | scalar t leaf => exact .scalar leaf
  | sequence items ih => exact .sequence (List.forall₂_same.2 ih)
  | mapping entries ih =>
      exact .mapping (List.forall₂_same.2 fun e he => .parts (ih e he).1 (ih e he).2) (.refl _)
  | tagged tag value ih => exact .tagged ih

/-- The entries of one mapping in another order. -/
theorem of_perm {es gs : List (Tree × Tree)} (order : es.Perm gs) :
    Reordered (.mapping es) (.mapping gs) :=
  .mapping (List.forall₂_same.2 fun e _ => .parts (refl e.1) (refl e.2)) order

/-- Another order below the key of the only entry of a mapping. -/
theorem under (key : Tree) {value value' : Tree} (h : Reordered value value') :
    Reordered (.mapping [(key, value)]) (.mapping [(key, value')]) := by
  have hentry : ReorderedEntry (key, value) (key, value') := .parts (refl key) h
  exact .mapping (.cons hentry .nil) (.refl _)

theorem untagged (h : Reordered t u) : Reordered t.untagged u.untagged := by
  induction t using memberInduction generalizing u with
  | scalar t leaf =>
      obtain rfl := h.eq_of_isScalar leaf
      rw [untagged_of_isScalar leaf]
      exact h
  | sequence items _ =>
      obtain ⟨bs, rfl, _⟩ := h.of_sequence
      exact h
  | mapping entries _ =>
      obtain ⟨fs, gs, rfl, _⟩ := h.of_mapping
      exact h
  | tagged tag value ih =>
      obtain ⟨value', rfl, related⟩ := h.of_tagged
      rw [Tree.untagged, Tree.untagged]
      exact ih related

/-- Reordered trees have tags both or neither. -/
theorem hasTag_eq (h : Reordered t u) : t.hasTag = u.hasTag := by
  induction t using memberInduction generalizing u with
  | scalar t leaf => rw [h.eq_of_isScalar leaf]
  | sequence items ih =>
      obtain ⟨bs, rfl, related⟩ := h.of_sequence
      rw [hasTag, hasTag, itemsHaveTag_eq, itemsHaveTag_eq]
      exact any_eq_of_forall₂ (forall₂_imp_of_mem related fun a ha b hab => ih a ha hab)
  | mapping entries ih =>
      obtain ⟨fs, gs, rfl, related, order⟩ := h.of_mapping
      rw [hasTag, hasTag, entriesHaveTag_eq, entriesHaveTag_eq, ← order.any_eq]
      refine any_eq_of_forall₂ (forall₂_imp_of_mem related fun e he f hef => ?_)
      rw [(ih e he).1 hef.key, (ih e he).2 hef.value]
  | tagged tag value ih =>
      obtain ⟨value', rfl, _⟩ := h.of_tagged
      rfl

/-- Expanding variables agrees on reordered trees. -/
theorem expand (h : Reordered t u) (lookup : Template.Lookup) :
    Agree Reordered (t.expand lookup) (u.expand lookup) := by
  induction t using memberInduction generalizing u with
  | scalar t leaf =>
      obtain rfl := h.eq_of_isScalar leaf
      cases u with
      | text value =>
          rw [Tree.expand]
          exact (Agree.of_eq rfl).bind fun a b hab => .ok (hab ▸ .scalar rfl)
      | null | bool value | int value | float value =>
          rw [Tree.expand]
          exact .ok h
      | _ => cases leaf
  | sequence items ih =>
      obtain ⟨bs, rfl, related⟩ := h.of_sequence
      rw [Tree.expand, Tree.expand, expandItems_eq, expandItems_eq]
      refine Agree.bind (Agree.mapM ?_) fun as bs hitems => .ok (.sequence hitems)
      exact forall₂_imp_of_mem related fun a ha b hab => ih a ha hab
  | mapping entries ih =>
      obtain ⟨fs, gs, rfl, related, order⟩ := h.of_mapping
      rw [Tree.expand, Tree.expand, expandEntries_eq, expandEntries_eq]
      -- First the parts of each entry are reordered in place, then the entries themselves.
      have hparts : Agree (List.Forall₂ ReorderedEntry) (entries.mapM (expandEntry lookup))
          (fs.mapM (expandEntry lookup)) := by
        refine Agree.mapM (forall₂_imp_of_mem related fun e he f hef => ?_)
        exact ((ih e he).2 hef.value).map fun a b hab => .parts hef.key hab
      refine (hparts.trans (Agree.mapM_perm order)).bind fun es gs hes => ?_
      obtain ⟨fs, hentries, horder⟩ := hes
      exact .ok (.mapping hentries horder)
  | tagged tag value ih =>
      obtain ⟨value', rfl, related⟩ := h.of_tagged
      rw [Tree.expand, Tree.expand]
      exact (ih related).bind fun a b hab => .ok (.tagged hab)

end Reordered

/-! ## Distinct keys -/

/-- No mapping in the tree has two keys that are the same when seen through `view`. -/
inductive DistinctKeys (view : Tree → Tree) : Tree → Prop
  | scalar {t : Tree} (leaf : t.isScalar = true) : DistinctKeys view t
  | sequence {items : List Tree} (parts : ∀ t ∈ items, DistinctKeys view t) :
      DistinctKeys view (.sequence items)
  | mapping {entries : List (Tree × Tree)}
      (distinct : entries.Pairwise fun e f => same (view e.1) (view f.1) = false)
      (keys : ∀ entry ∈ entries, DistinctKeys view entry.1)
      (values : ∀ entry ∈ entries, DistinctKeys view entry.2) :
      DistinctKeys view (.mapping entries)
  | tagged {tag : String} {value : Tree} (part : DistinctKeys view value) :
      DistinctKeys view (.tagged tag value)

namespace DistinctKeys

variable {view : Tree → Tree} {t : Tree}

/-- A text has no keys. -/
@[simp]
theorem text (value : String) : DistinctKeys view (.text value) :=
  .scalar rfl

/-- The keys of a sequence are those of its items. -/
theorem sequence_iff {items : List Tree} :
    DistinctKeys view (.sequence items) ↔ ∀ t ∈ items, DistinctKeys view t := by
  refine ⟨fun h => ?_, .sequence⟩
  cases h with
  | scalar leaf => cases leaf
  | sequence parts => exact parts

/-- The keys of a mapping are distinct among themselves and within each entry. -/
theorem mapping_iff {entries : List (Tree × Tree)} :
    DistinctKeys view (.mapping entries)
      ↔ (entries.Pairwise fun e f => same (view e.1) (view f.1) = false)
        ∧ (∀ entry ∈ entries, DistinctKeys view entry.1)
        ∧ ∀ entry ∈ entries, DistinctKeys view entry.2 := by
  refine ⟨fun h => ?_, fun h => .mapping h.1 h.2.1 h.2.2⟩
  cases h with
  | scalar leaf => cases leaf
  | mapping distinct keys values => exact ⟨distinct, keys, values⟩

/-- A tag around a tree changes none of its keys. -/
theorem tagged_iff {tag : String} {value : Tree} :
    DistinctKeys view (.tagged tag value) ↔ DistinctKeys view value := by
  refine ⟨fun h => ?_, .tagged⟩
  cases h with
  | scalar leaf => cases leaf
  | tagged part => exact part

theorem untagged (h : DistinctKeys view t) : DistinctKeys view t.untagged := by
  induction t using memberInduction with
  | scalar t leaf => rwa [untagged_of_isScalar leaf]
  | sequence items _ => exact h
  | mapping entries _ => exact h
  | tagged tag value ih => exact ih (tagged_iff.1 h)

/-- Expanding variables keeps keys distinct: it does not look at keys. -/
theorem expand {lookup : Template.Lookup} {u : Tree} (h : DistinctKeys view t)
    (hu : t.expand lookup = .ok u) : DistinctKeys view u := by
  induction t using memberInduction generalizing u with
  | scalar t leaf =>
      cases t with
      | text value =>
          simp only [Tree.expand, bind_eq_ok_iff, pure_eq_ok_iff] at hu
          obtain ⟨text, -, rfl⟩ := hu
          exact .scalar rfl
      | null | bool value | int value | float value =>
          rw [Tree.expand] at hu
          cases hu
          exact h
      | _ => cases leaf
  | sequence items ih =>
      simp only [Tree.expand, expandItems_eq, bind_eq_ok_iff, pure_eq_ok_iff] at hu
      obtain ⟨items', hitems, rfl⟩ := hu
      refine .sequence (forall_mem_of_forall₂ (forall₂_of_mapM_eq_ok hitems) fun t ht u hu => ?_)
      exact ih t ht (sequence_iff.1 h t ht) hu
  | mapping entries ih =>
      simp only [Tree.expand, expandEntries_eq, bind_eq_ok_iff, pure_eq_ok_iff] at hu
      obtain ⟨entries', hentries, rfl⟩ := hu
      obtain ⟨distinct, keys, values⟩ := mapping_iff.1 h
      have hrelated : List.Forall₂ (fun e f => f.1 = e.1 ∧ e.2.expand lookup = .ok f.2) entries
          entries' :=
        (forall₂_of_mapM_eq_ok hentries).imp fun e f hef => expandEntry_eq_ok hef
      refine .mapping ?_ ?_ ?_
      · refine pairwise_of_forall₂ hrelated distinct fun e e' f f' hf hf' hee' => ?_
        rwa [hf.1, hf'.1]
      · refine forall_mem_of_forall₂ hrelated fun e he f hf => ?_
        rw [hf.1]
        exact keys e he
      · refine forall_mem_of_forall₂ hrelated fun e he f hf => ?_
        exact (ih e he).2 (values e he) hf.2
  | tagged tag value ih =>
      simp only [Tree.expand, bind_eq_ok_iff, pure_eq_ok_iff] at hu
      obtain ⟨value', hvalue, rfl⟩ := hu
      exact .tagged (ih (tagged_iff.1 h) hvalue)

end DistinctKeys
end Tree
end Document
end Stackwright
