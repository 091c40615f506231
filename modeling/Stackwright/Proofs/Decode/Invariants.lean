import Stackwright.Proofs.Decode.OrderFree

/-!
# What readers give

A property of everything that a reader gives follows from the readers that it is put together
from.  For a record it has to hold of the defaults and to be kept by each field, whichever fields
are written and in whichever of the two ways.

Main results:

- Theorems `gives_map`, `gives_check`, `gives_optional`, `gives_oneOf` and `gives_dict`: what the
  combinators give.
- Theorem `gives_record`: what a record has if its fields keep it.
-/

namespace Stackwright
namespace Decode

open Document (Tree)

variable {α β : Type}

/-- Whether everything that a reader gives has a property. -/
def Reader.Gives (P : α → Prop) (r : Reader α) : Prop :=
  ∀ place t a, r place t = .ok a → P a

/-- Whether putting any value of a field into a record keeps a property of the record. -/
def Field.Keeps (P : α → Prop) (f : Field α) : Prop :=
  ∀ place t put, f.read place t = .ok put → ∀ record, P record → P (put record)

/-! ## Values -/

section

variable {P : α → Prop} {Q : β → Prop} {r : Reader α}

/-- What is made of a value that is read has the property that the value brings about. -/
theorem gives_map {f : α → β} (hr : r.Gives P) (hf : ∀ a, P a → Q (f a)) : (r.map f).Gives Q := by
  intro place t b hb
  obtain ⟨a, ha, rfl⟩ := map_eq_ok_iff.1 hb
  exact hf a (hr place t a ha)

/-- A check may turn one property of a value into another. -/
theorem gives_check {f : α → Except Fault β} (hr : r.Gives P)
    (hf : ∀ a b, P a → f a = .ok b → Q b) : (r.check f).Gives Q := by
  intro place t b hb
  obtain ⟨a, ha, hb⟩ := bind_eq_ok_iff.1 hb
  exact hf a b (hr place t a ha) hb

/-- A value that may be missing has the property if it is there. -/
theorem gives_optional (hr : r.Gives P) : r.optional.Gives fun value => ∀ a ∈ value, P a := by
  intro place t value hvalue a ha
  cases t with
  | null =>
      cases hvalue
      cases ha
  | _ =>
      obtain ⟨b, hb, rfl⟩ := map_eq_ok_iff.1 hvalue
      cases ha
      exact hr place _ _ hb

/-- Whichever shape fits, its value has the property. -/
theorem gives_oneOf {shapes : List (Reader α)} (h : ∀ r ∈ shapes, r.Gives P) :
    (Reader.oneOf shapes).Gives P := by
  have hfirst (t : Tree) (a : α) (ha : Reader.first shapes t = .ok a) : P a := by
    induction shapes with
    | nil => cases ha
    | cons r rest ih =>
        obtain ⟨hr, hrest⟩ := List.forall_mem_cons.1 h
        rw [Reader.first] at ha
        split at ha
        · cases ha
          exact hr _ _ _ ‹_›
        · exact ih hrest ha
  intro place t a ha
  rw [Reader.oneOf] at ha
  split at ha
  · cases ha
  · exact hfirst t a ha

/-- All values of a mapping have the property of the reader that reads them. -/
theorem forall_entries {place : Place} (hr : r.Gives P) {es : List (Tree × Tree)}
    {entries : List (String × α)} (h : Reader.entries r place es = .ok entries) :
    ∀ entry ∈ entries, P entry.2 := by
  induction es generalizing entries with
  | nil =>
      cases h
      simp
  | cons e es ih =>
      simp only [Reader.entries, bind_eq_ok_iff, pure_eq_ok_iff] at h
      obtain ⟨key, -, value, hvalue, rest, hrest, rfl⟩ := h
      exact List.forall_mem_cons.2 ⟨hr _ _ _ hvalue, ih hrest⟩

/-- Every entry of a filled dictionary was there before or in the list. -/
theorem mem_of_mem_foldl_insert {entries : List (String × α)} {d : Dict α} {entry : String × α}
    (h : entry ∈ (entries.foldl (fun d e => d.insert e.1 e.2) d).entries) :
    entry ∈ d.entries ∨ entry ∈ entries := by
  induction entries generalizing d with
  | nil => exact .inl h
  | cons first rest ih =>
      rcases ih h with hd | hrest
      · rcases Dict.mem_insertEntry hd with rfl | hd
        · exact .inr List.mem_cons_self
        · exact .inl hd
      · exact .inr (List.mem_cons_of_mem _ hrest)

/-- All values of a dictionary have the property, those that come later and replace others too. -/
theorem gives_dict (hr : r.Gives P) : (Reader.dict r).Gives fun d => ∀ entry ∈ d.entries, P entry.2 := by
  intro place t d hd entry hentry
  unfold Reader.dict at hd
  split at hd
  · obtain ⟨entries, hentries, rfl⟩ := map_eq_ok_iff.1 hd
    exact forall_entries hr hentries entry
      ((mem_of_mem_foldl_insert hentry).resolve_left List.not_mem_nil)
  · cases hd
    cases hentry
  · cases hd

end

/-! ## Records -/

section

variable {P : α → Prop} {fields : List (Field α)}

/-- A field keeps a property if putting in what its reader gives does. -/
theorem keeps_field {Q : β → Prop} {name : String} {r : Reader β} {put : α → β → α} (hr : r.Gives Q)
    (hput : ∀ record value, Q value → P record → P (put record value)) :
    (field name r put).Keeps P := by
  intro place t change hchange record hrecord
  obtain ⟨value, hvalue, rfl⟩ := map_eq_ok_iff.1 hchange
  exact hput record value (hr place t value hvalue) hrecord

/-- A field keeps every property that does not depend on its value. -/
theorem keeps_other {name : String} {r : Reader β} {put : α → β → α}
    (hput : ∀ record value, P record → P (put record value)) : (field name r put).Keeps P :=
  keeps_field (Q := fun _ => True) (fun _ _ _ _ => trivial) fun record value _ => hput record value

/-- Settings that keep a property are put into a record that has it. -/
theorem applySettings_of_keeps {settings : Settings α}
    (h : ∀ setting ∈ settings, ∀ record, P record → P (setting.2 record)) {record : α}
    (hrecord : P record) : P (applySettings fields settings record) := by
  induction fields generalizing record with
  | nil => exact hrecord
  | cons f fields ih =>
      rw [applySettings, List.foldl_cons]
      refine ih ?_
      split
      · rename_i put hput
        obtain ⟨front, rest, rfl, -⟩ := List.lookup_eq_some_iff.1 hput
        exact h (f.name, put) (by simp) record hrecord
      · exact hrecord

/-- The settings that are read from the entries of a mapping keep the property. -/
theorem keeps_readFields (h : ∀ f ∈ fields, f.Keeps P) {place : Place}
    {entries : List (Tree × Tree)} {settings : Settings α}
    (hread : readFields fields place [] entries = .ok settings) :
    ∀ setting ∈ settings, ∀ record, P record → P (setting.2 record) := by
  obtain ⟨found, hfound, rfl, -⟩ := (readFields_eq_ok_iff ..).1 hread
  intro setting hsetting
  obtain ⟨given, hgiven, rfl⟩ := List.mem_filterMap.1 hsetting
  obtain ⟨entry, -, hentry⟩ := (mem_iff_of_mapM_eq_ok hfound _).1 hgiven
  rw [readEntry] at hentry
  obtain ⟨named, hnamed, hentry⟩ := bind_eq_ok_iff.1 hentry
  cases named with
  | none => cases hentry
  | some f =>
      obtain ⟨put, hput, hentry⟩ := bind_eq_ok_iff.1 hentry
      cases hentry
      exact h f (mem_of_fieldAt hnamed) _ _ put hput

/-- The settings that are read from a list, by their positions, keep the property. -/
theorem keeps_readPositions (h : ∀ f ∈ fields, f.Keeps P) {place : Place} {items : List Tree}
    {settings : Settings α} (hread : readPositions place fields items = .ok settings) :
    ∀ setting ∈ settings, ∀ record, P record → P (setting.2 record) := by
  induction items generalizing fields settings with
  | nil =>
      cases fields <;> cases hread <;> simp
  | cons item rest ih =>
      cases fields with
      | nil => cases hread
      | cons f fields =>
          obtain ⟨hf, hfields⟩ := List.forall_mem_cons.1 h
          rw [readPositions] at hread
          obtain ⟨put, hput, hread⟩ := bind_eq_ok_iff.1 hread
          obtain ⟨settings, hsettings, hread⟩ := bind_eq_ok_iff.1 hread
          cases hread
          exact List.forall_mem_cons.2 ⟨hf _ _ put hput, ih hfields hsettings⟩

/-- A record has a property if its defaults have it and each field keeps it. -/
theorem gives_record (h : ∀ f ∈ fields, f.Keeps P) {defaults : α} (hdefaults : P defaults) :
    (record fields defaults).Gives P := by
  intro place t a ha
  unfold record at ha
  split at ha
  · obtain ⟨settings, hsettings, ha⟩ := bind_eq_ok_iff.1 ha
    cases ha
    exact applySettings_of_keeps (keeps_readFields h hsettings) hdefaults
  · obtain ⟨settings, hsettings, ha⟩ := bind_eq_ok_iff.1 ha
    cases ha
    exact applySettings_of_keeps (keeps_readPositions h hsettings) hdefaults
  · cases ha
    exact hdefaults
  · cases ha

end

end Decode
end Stackwright
