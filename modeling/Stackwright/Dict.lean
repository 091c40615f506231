/-!
# Dictionaries

A dictionary is a finite map from strings. Its entries stand in whatever order its table is walked in, which
says nothing about the map: two dictionaries with the same look-ups may be walked in different orders.
Whoever needs an order sorts the entries.

Main results:

- Theorem `Dict.get?_insert`: inserting changes exactly one key.
-/

namespace Stackwright

variable {α β : Type}

/-! ## Sorting -/

/-- Puts an item before the first one of a list whose key is not below its own. -/
def insertBy (key : α → String) (item : α) : List α → List α
  | [] => [item]
  | first :: rest =>
      if key item ≤ key first then item :: first :: rest else first :: insertBy key item rest

/-- Sorts a list by the keys of its items; items with the same key keep their order. -/
def sortBy (key : α → String) : List α → List α
  | [] => []
  | item :: rest => insertBy key item (sortBy key rest)

/-! ## Dictionaries -/

/-- A finite map from strings: its entries, with different keys, in the order in which they are walked. -/
structure Dict (α : Type) where
  entries : List (String × α)
  distinct : (entries.map Prod.fst).Nodup

namespace Dict

/-- The dictionary without entries. -/
def empty : Dict α :=
  ⟨[], .nil⟩

instance : EmptyCollection (Dict α) :=
  ⟨empty⟩

instance : Inhabited (Dict α) :=
  ⟨empty⟩

/-- Puts an entry over the one with the same key, or behind all entries if there is none. -/
def insertEntry (key : String) (value : α) : List (String × α) → List (String × α)
  | [] => [(key, value)]
  | entry :: rest =>
      if key = entry.1 then (key, value) :: rest else entry :: insertEntry key value rest

/-- The first value under a key in a list of entries. -/
def lookupEntry (key : String) : List (String × α) → Option α
  | [] => none
  | entry :: rest => if key = entry.1 then some entry.2 else lookupEntry key rest

/-- Every key after insertion is the inserted one or was there before. -/
theorem mem_insertEntry {key : String} {value : α} {entries : List (String × α)} {e : String × α}
    (h : e ∈ insertEntry key value entries) : e = (key, value) ∨ e ∈ entries := by
  induction entries with
  | nil => simpa [insertEntry] using h
  | cons entry rest ih =>
      rw [insertEntry] at h
      split at h
      · rcases List.mem_cons.1 h with h | h
        · exact .inl h
        · exact .inr (List.mem_cons_of_mem _ h)
      · rcases List.mem_cons.1 h with h | h
        · exact .inr (h ▸ List.mem_cons_self)
        · exact (ih h).imp_right (List.mem_cons_of_mem _)

/-- Insertion keeps the keys different. -/
theorem insertEntry_distinct {key : String} {value : α} {entries : List (String × α)}
    (h : (entries.map Prod.fst).Nodup) : ((insertEntry key value entries).map Prod.fst).Nodup := by
  induction entries with
  | nil => simp [insertEntry]
  | cons entry rest ih =>
      rw [List.map_cons, List.nodup_cons] at h
      rw [insertEntry]
      split
      · rename_i heq
        rw [List.map_cons, List.nodup_cons]
        exact ⟨heq ▸ h.1, h.2⟩
      · rename_i hne
        rw [List.map_cons, List.nodup_cons]
        refine ⟨fun hmem => ?_, ih h.2⟩
        obtain ⟨e, he, hkey⟩ := List.mem_map.1 hmem
        rcases mem_insertEntry he with rfl | he
        · exact hne hkey
        · exact h.1 (hkey ▸ List.mem_map_of_mem he)

/-- Adds an entry, over one with the same key. -/
def insert (d : Dict α) (key : String) (value : α) : Dict α :=
  ⟨insertEntry key value d.entries, insertEntry_distinct d.distinct⟩

/-- The value under a key. -/
def get? (d : Dict α) (key : String) : Option α :=
  lookupEntry key d.entries

/-- Fills a dictionary from left to right, so that the last value of a key stays. -/
def ofList (entries : List (String × α)) : Dict α :=
  entries.foldl (fun d e => d.insert e.1 e.2) empty

/-- Replaces the value under a key by a function of it. -/
def alter (d : Dict α) (key : String) (f : Option α → α) : Dict α :=
  d.insert key (f (d.get? key))

/-- Applies a function to every value. -/
def map (f : String → α → β) (d : Dict α) : Dict β :=
  ⟨d.entries.map fun e => (e.1, f e.1 e.2), by
    rw [List.map_map]
    exact d.distinct⟩

/-- Whether there are no entries. -/
def isEmpty (d : Dict α) : Bool :=
  d.entries.isEmpty

/-- The entries in ascending order of their keys. -/
def sorted (d : Dict α) : List (String × α) :=
  sortBy Prod.fst d.entries

/-- The keys, in ascending order. -/
def keys (d : Dict α) : List String :=
  d.sorted.map (·.1)

/-- The values, as they are walked. -/
def values (d : Dict α) : List α :=
  d.entries.map (·.2)

/-- Dictionaries with the same entries in the same order are equal. -/
theorem ext_entries {a b : Dict α} (h : a.entries = b.entries) : a = b := by
  cases a
  cases b
  cases h
  rfl

instance [DecidableEq α] : DecidableEq (Dict α) := fun a b =>
  decidable_of_iff (a.entries = b.entries) ⟨ext_entries, fun h => h ▸ rfl⟩

@[simp]
theorem get?_empty (key : String) : (empty : Dict α).get? key = none :=
  rfl

/-- Looking up a key after insertion into a list. -/
theorem lookupEntry_insertEntry (key other : String) (value : α) (entries : List (String × α)) :
    lookupEntry other (insertEntry key value entries)
      = if other = key then some value else lookupEntry other entries := by
  induction entries with
  | nil => simp [insertEntry, lookupEntry]
  | cons entry rest ih =>
      by_cases heq : key = entry.1
      · by_cases ho : other = key <;> simp [insertEntry, lookupEntry, ← heq, ho]
      · by_cases ho : other = entry.1
        · subst ho
          have : entry.1 ≠ key := Ne.symm heq
          simp [insertEntry, lookupEntry, heq, this]
        · simp [insertEntry, lookupEntry, heq, ho, ih]

/-- Inserting changes exactly one key. -/
theorem get?_insert (d : Dict α) (key other : String) (value : α) :
    (d.insert key value).get? other = if other = key then some value else d.get? other :=
  lookupEntry_insertEntry key other value d.entries

end Dict
end Stackwright
