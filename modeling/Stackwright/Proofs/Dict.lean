import Mathlib.Data.List.Sort
import Stackwright.Dict

/-!
# Sorted entries and finite maps

Whatever order a dictionary is walked in, sorting its entries gives one list: the entries
in ascending order of their keys.  A dictionary with its entries in this order is
determined by its look-ups.  One that is filled from a list of entries with different
keys holds exactly these entries, so the order of the list does not count either.

Main results:

- Theorem `sortBy_eq_of_perm`: sorting items with different keys undoes any reordering.
- Theorem `Dict.sorted_eq_iff`: dictionaries have the same sorted entries exactly if they
  have the same look-ups.
- Theorem `Dict.get?_ofList`: of several entries with one key the last one stays.
- Theorem `Dict.map_ofList`: the values of a dictionary may be changed before or after
  it is filled.
-/

namespace Stackwright

/-! ## Sorting -/

section Sorting

variable {α β : Type} {key : α → String}

/-- Texts that are not equal are not just in order but in strict order. -/
theorem string_lt_of_le_of_ne {a b : String} (h : a ≤ b) (hne : a ≠ b) : a < b := by
  by_contra hlt
  exact hne (String.le_antisymm h (String.not_lt.1 hlt))

/-- A member is inserted before the first one that is not less. -/
theorem insertBy_eq_orderedInsert (key : α → String) (item : α) (items : List α) :
    insertBy key item items = items.orderedInsert (key · ≤ key ·) item := by
  induction items with
  | nil => rfl
  | cons first rest ih => rw [insertBy, List.orderedInsert_cons, ih]

/-- Members are sorted by inserting them one by one. -/
theorem sortBy_eq_insertionSort (key : α → String) (items : List α) :
    sortBy key items = items.insertionSort (key · ≤ key ·) := by
  induction items with
  | nil => rfl
  | cons item rest ih =>
      rw [sortBy, List.insertionSort_cons, insertBy_eq_orderedInsert, ih]

/-- Sorting loses nothing and adds nothing. -/
theorem perm_sortBy (key : α → String) (items : List α) : (sortBy key items).Perm items := by
  rw [sortBy_eq_insertionSort]
  exact List.perm_insertionSort _ items

@[simp]
theorem mem_sortBy {items : List α} {item : α} : item ∈ sortBy key items ↔ item ∈ items :=
  (perm_sortBy key items).mem_iff

/-- The keys of sorted items ascend. -/
theorem pairwise_sortBy (key : α → String) (items : List α) :
    (sortBy key items).Pairwise (key · ≤ key ·) := by
  have : Std.Total fun a b : α => key a ≤ key b := ⟨fun a b => String.le_total _ _⟩
  have : IsTrans α fun a b => key a ≤ key b := ⟨fun _ _ _ => String.le_trans⟩
  rw [sortBy_eq_insertionSort]
  exact List.pairwise_insertionSort _ items

/-- Items with different keys have one order in which their keys ascend. -/
theorem eq_of_perm_of_pairwise_le {items items' : List α} (hperm : items.Perm items')
    (hdistinct : (items.map key).Nodup) (h : items.Pairwise (key · ≤ key ·))
    (h' : items'.Pairwise (key · ≤ key ·)) : items = items' := by
  refine hperm.eq_of_pairwise (fun a b ha hb hab hba => ?_) h h'
  exact List.inj_on_of_nodup_map hdistinct ha (hperm.mem_iff.2 hb) (String.le_antisymm hab hba)

/-- Sorting items with different keys undoes any reordering. -/
theorem sortBy_eq_of_perm {items items' : List α} (hperm : items.Perm items')
    (hdistinct : (items.map key).Nodup) : sortBy key items = sortBy key items' := by
  have hsorted := perm_sortBy key items
  refine eq_of_perm_of_pairwise_le ((hsorted.trans hperm).trans (perm_sortBy key items').symm) ?_
    (pairwise_sortBy key items) (pairwise_sortBy key items')
  exact (hsorted.map key).nodup_iff.2 hdistinct

/-- Items may be changed before or after they are sorted if this keeps their keys. -/
theorem map_sortBy {key' : β → String} {f : α → β} {items : List α}
    (h : ∀ a ∈ items, key' (f a) = key a) :
    (sortBy key items).map f = sortBy key' (items.map f) := by
  rw [sortBy_eq_insertionSort, sortBy_eq_insertionSort]
  refine List.map_insertionSort _ _ f items fun a ha b hb => ?_
  rw [h a ha, h b hb]

/-- Items may be left out before or after the others are sorted. -/
theorem filter_sortBy (keep : α → Bool) {items : List α} (hdistinct : (items.map key).Nodup) :
    (sortBy key items).filter keep = sortBy key (items.filter keep) := by
  have hsorted := (perm_sortBy key items).filter keep
  refine eq_of_perm_of_pairwise_le (hsorted.trans (perm_sortBy key _).symm) ?_
    ((pairwise_sortBy key items).filter keep) (pairwise_sortBy key _)
  refine (hsorted.map key).nodup_iff.2 ?_
  exact hdistinct.sublist (List.filter_sublist.map key)

end Sorting

/-! ## Look-ups in lists -/

/-- A key that occurs once is found with its value. -/
theorem lookup_eq_some_iff_mem {α : Type} {entries : List (String × α)}
    (h : (entries.map Prod.fst).Nodup) (key : String) (value : α) :
    entries.lookup key = some value ↔ (key, value) ∈ entries := by
  induction entries with
  | nil => simp
  | cons entry rest ih =>
      obtain ⟨name, first⟩ := entry
      rw [List.map_cons, List.nodup_cons] at h
      by_cases hkey : key = name
      · subst hkey
        have hrest : (key, value) ∉ rest := fun hmem =>
          h.1 (List.mem_map.2 ⟨(key, value), hmem, rfl⟩)
        simp [List.lookup_cons_self, hrest, eq_comm]
      · have hne : (key == name) = false := by simpa using hkey
        simp [List.lookup_cons, hne, hkey, ih h.2]

/-- Look-ups in entries with different keys do not depend on their order. -/
theorem lookup_eq_of_perm {α : Type} {entries entries' : List (String × α)}
    (hperm : entries.Perm entries') (h : (entries.map Prod.fst).Nodup) (key : String) :
    entries.lookup key = entries'.lookup key := by
  have h' : (entries'.map Prod.fst).Nodup := (hperm.map Prod.fst).nodup_iff.1 h
  apply Option.ext
  intro value
  rw [lookup_eq_some_iff_mem h, lookup_eq_some_iff_mem h']
  exact hperm.mem_iff

namespace Dict

variable {α : Type}

/-! ## Sorted entries -/

/-- The value of a key is the first one that is listed. -/
theorem lookupEntry_eq_lookup (key : String) (entries : List (String × α)) :
    lookupEntry key entries = entries.lookup key := by
  induction entries with
  | nil => rfl
  | cons entry rest ih =>
      rw [lookupEntry, List.lookup_cons, ih]
      by_cases h : key = entry.1
      · simp [h]
      · have hne : (key == entry.1) = false := by simpa using h
        simp [h, hne]

/-- A key leads to the value beside which it is listed, for it is listed only once. -/
theorem get?_eq_some_iff {d : Dict α} {key : String} {value : α} :
    d.get? key = some value ↔ (key, value) ∈ d.entries := by
  rw [get?, lookupEntry_eq_lookup, lookup_eq_some_iff_mem d.distinct]

/-- Sorting the entries loses none of them. -/
theorem perm_sorted (d : Dict α) : d.sorted.Perm d.entries :=
  perm_sortBy _ _

@[simp]
theorem mem_sorted {d : Dict α} {entry : String × α} : entry ∈ d.sorted ↔ entry ∈ d.entries :=
  mem_sortBy

/-- Sorted entries have different keys too. -/
theorem nodup_sorted (d : Dict α) : (d.sorted.map Prod.fst).Nodup :=
  (d.perm_sorted.map Prod.fst).nodup_iff.2 d.distinct

/-- The keys of sorted entries ascend strictly. -/
theorem pairwise_sorted (d : Dict α) : d.sorted.Pairwise fun a b => a.1 < b.1 := by
  have hdistinct := d.nodup_sorted
  rw [List.Nodup, List.pairwise_map] at hdistinct
  refine (List.Pairwise.and (pairwise_sortBy _ _) hdistinct).imp fun {a b} h => ?_
  exact string_lt_of_le_of_ne h.1 h.2

/-- Dictionaries have the same sorted entries exactly if they have the same look-ups, whatever
orders they are walked in. -/
theorem sorted_eq_iff {a b : Dict α} : a.sorted = b.sorted ↔ ∀ key, a.get? key = b.get? key := by
  constructor
  · intro h key
    have hmem (entry : String × α) : entry ∈ a.entries ↔ entry ∈ b.entries := by
      rw [← mem_sorted, ← mem_sorted, h]
    refine Option.ext fun value => ?_
    rw [get?_eq_some_iff, get?_eq_some_iff, hmem]
  · intro h
    refine sortBy_eq_of_perm ?_ a.distinct
    refine (List.perm_ext_iff_of_nodup (.of_map _ a.distinct) (.of_map _ b.distinct)).2 ?_
    rintro ⟨key, value⟩
    rw [← get?_eq_some_iff, ← get?_eq_some_iff, h key]

/-! ## Filling dictionaries -/

/-- Filling a dictionary with different keys adds exactly their entries. -/
theorem get?_foldl_insert (d : Dict α) {entries : List (String × α)}
    (h : (entries.map Prod.fst).Nodup) (key : String) :
    (entries.foldl (fun d e => d.insert e.1 e.2) d).get? key
      = (entries.lookup key).or (d.get? key) := by
  induction entries generalizing d with
  | nil => rfl
  | cons entry rest ih =>
      rw [List.map_cons, List.nodup_cons] at h
      rw [List.foldl_cons, ih (d.insert entry.1 entry.2) h.2, get?_insert, List.lookup_cons]
      by_cases hkey : key = entry.1
      · have hrest : rest.lookup key = none := by
          rw [Option.eq_none_iff_forall_ne_some]
          intro value hvalue
          rw [lookup_eq_some_iff_mem h.2] at hvalue
          exact h.1 (hkey ▸ List.mem_map_of_mem hvalue)
        simp [hkey ▸ hrest, hkey]
      · have hne : (key == entry.1) = false := by simpa using hkey
        simp [hkey, hne]

/-- The look-ups of a dictionary do not depend on the order in which different keys were put
into it. -/
theorem get?_ofList_of_perm {entries entries' : List (String × α)} (hperm : entries.Perm entries')
    (h : (entries.map Prod.fst).Nodup) (key : String) :
    (ofList entries).get? key = (ofList entries').get? key := by
  have h' : (entries'.map Prod.fst).Nodup := (hperm.map Prod.fst).nodup_iff.1 h
  rw [ofList, ofList, get?_foldl_insert _ h, get?_foldl_insert _ h', lookup_eq_of_perm hperm h]

/-- Of the entries with a key that a dictionary is filled with, the last one stays. -/
theorem get?_ofList (entries : List (String × α)) (key : String) :
    (ofList entries).get? key = entries.reverse.lookup key := by
  have hfill : ∀ d : Dict α, (entries.foldl (fun d e => d.insert e.1 e.2) d).get? key
      = (entries.reverse.lookup key).or (d.get? key) := by
    induction entries with
    | nil => exact fun d => rfl
    | cons entry rest ih =>
        obtain ⟨name, value⟩ := entry
        intro d
        rw [List.foldl_cons, ih, get?_insert, List.reverse_cons, List.lookup_append,
          Option.or_assoc]
        by_cases hkey : key = name
        · simp [hkey]
        · have hne : (key == name) = false := by simpa using hkey
          simp [List.lookup_cons, hkey, hne]
  rw [ofList, hfill, get?_empty, Option.or_none]

/-! ## Changing values -/

variable {β : Type}

/-- Changing the values changes what a look-up gives, and not whether it gives anything. -/
theorem get?_map (f : String → α → β) (d : Dict α) (key : String) :
    (d.map f).get? key = (d.get? key).map (f key) := by
  change lookupEntry key (d.entries.map fun e => (e.1, f e.1 e.2))
    = (lookupEntry key d.entries).map (f key)
  induction d.entries with
  | nil => rfl
  | cons entry rest ih =>
      rw [List.map_cons, lookupEntry, lookupEntry, ih]
      by_cases h : key = entry.1
      · simp [h]
      · simp [h]

/-- Putting an entry in place and changing the values can be done in either order. -/
theorem map_insertEntry (f : String → α → β) (key : String) (value : α)
    (entries : List (String × α)) :
    (insertEntry key value entries).map (fun e => (e.1, f e.1 e.2))
      = insertEntry key (f key value) (entries.map fun e => (e.1, f e.1 e.2)) := by
  induction entries with
  | nil => rfl
  | cons entry rest ih =>
      rw [insertEntry, List.map_cons, insertEntry]
      split
      · rfl
      · rw [List.map_cons, ih]

theorem map_insert (f : String → α → β) (d : Dict α) (key : String) (value : α) :
    (d.insert key value).map f = (d.map f).insert key (f key value) :=
  ext_entries (map_insertEntry f key value d.entries)

/-- The values of a dictionary may be changed before or after it is filled. -/
theorem map_ofList (f : String → α → β) (entries : List (String × α)) :
    (ofList entries).map f = ofList (entries.map fun e => (e.1, f e.1 e.2)) := by
  have hfill : ∀ d : Dict α, (entries.foldl (fun d e => d.insert e.1 e.2) d).map f
      = (entries.map fun e => (e.1, f e.1 e.2)).foldl (fun d e => d.insert e.1 e.2) (d.map f) := by
    induction entries with
    | nil => exact fun d => rfl
    | cons entry rest ih =>
        intro d
        rw [List.foldl_cons, List.map_cons, List.foldl_cons, ih, map_insert]
  exact hfill empty

/-- A dictionary that is filled with one value holds it under the given keys. -/
theorem get?_ofList_const (keys : List String) (value : α) (key : String) :
    (ofList (keys.map fun k => (k, value))).get? key = if key ∈ keys then some value else none := by
  have hfill : ∀ d : Dict α,
      ((keys.map fun k => (k, value)).foldl (fun d e => d.insert e.1 e.2) d).get? key
        = if key ∈ keys then some value else d.get? key := by
    induction keys with
    | nil => simp
    | cons first rest ih =>
        intro d
        rw [List.map_cons, List.foldl_cons, ih, get?_insert]
        by_cases hfirst : key = first
        · simp [hfirst]
        · simp [hfirst]
  exact hfill empty

/-- Changing the values changes neither the keys nor the order in which they are walked. -/
@[simp]
theorem entries_map (f : String → α → β) (d : Dict α) :
    (d.map f).entries = d.entries.map fun entry => (entry.1, f entry.1 entry.2) :=
  rfl

/-- The values of sorted entries can be changed before or after they are sorted. -/
@[simp]
theorem sorted_map (f : String → α → β) (d : Dict α) :
    (d.map f).sorted = d.sorted.map fun entry => (entry.1, f entry.1 entry.2) := by
  have hkeys : ∀ entry ∈ d.entries, ((entry.1, f entry.1 entry.2) : String × β).1 = entry.1 :=
    fun _ _ => rfl
  exact (map_sortBy hkeys).symm

/-! ## Entries that are kept -/

/-- The entries whose values pass a test. -/
def filter (keep : α → Bool) (d : Dict α) : Dict α :=
  ⟨d.entries.filter fun entry => keep entry.2, d.distinct.sublist (List.filter_sublist.map _)⟩

/-- Entries can be left out before or after they are sorted. -/
@[simp]
theorem sorted_filter (keep : α → Bool) (d : Dict α) :
    (d.filter keep).sorted = d.sorted.filter fun entry => keep entry.2 :=
  (filter_sortBy _ d.distinct).symm

theorem entries_eq_nil_iff {d : Dict α} : d.entries = [] ↔ d = {} :=
  ⟨fun h => ext_entries h, fun h => h ▸ rfl⟩

/-- There are no sorted entries exactly if there are no entries. -/
theorem sorted_eq_nil_iff {d : Dict α} : d.sorted = [] ↔ d = {} := by
  rw [← entries_eq_nil_iff, ← List.length_eq_zero_iff, d.perm_sorted.length_eq,
    List.length_eq_zero_iff]

@[simp]
theorem map_eq_empty_iff {f : String → α → β} {d : Dict α} : d.map f = {} ↔ d = {} := by
  rw [← entries_eq_nil_iff, ← entries_eq_nil_iff, entries_map, List.map_eq_nil_iff]

/-- The empty dictionary is the only one without entries. -/
theorem isEmpty_iff {d : Dict α} : d.isEmpty = true ↔ d = {} :=
  List.isEmpty_iff.trans entries_eq_nil_iff

end Dict
end Stackwright
