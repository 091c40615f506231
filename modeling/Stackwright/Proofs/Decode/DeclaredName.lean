import Stackwright.Decode.Project
import Stackwright.Proofs.Decode.OrderFree

/-!
# The name that a document declares

The name of a project is the text under the key `name` at the top of its document.
The fields of a descriptor are read from the entries of a mapping in their order and
put into the record in the order of the fields, so this takes what the settings of a
record are, and that no other setting changes the name.

Main results:

- Theorem `mem_settings_iff`: the settings that the entries of a mapping give.
- Theorem `applySettings_keeps`: a part of a record that no field changes is kept.
- Theorem `name_of_project`: a project has the name that its document declares.
-/

namespace Stackwright

open Document (Tree)

/-- The text of a string without the tags around it; nothing else has one. -/
def textOf (t : Tree) : Option String :=
  match t.untagged with
  | .text value => some value
  | _ => none

/-- The name that a document declares: the text under `name` at its top, or nothing. -/
def declaredName (t : Tree) : String :=
  match t.untagged with
  | .mapping entries =>
      ((entries.find? fun entry => textOf entry.1 = some "name").bind fun entry =>
        textOf entry.2).getD ""
  | _ => ""

namespace Decode

variable {α : Type}

theorem fieldAt_direct_eq_ok_iff {fields : List (Field α)} {key : Tree} {named : Option (Field α)} :
    fieldAt fields .direct key = .ok named
      ↔ ∃ name, textOf key = some name ∧ fields.find? (·.name == name) = named := by
  unfold fieldAt textOf
  simp only [Place.view]
  cases key.untagged <;> simp

/-- What one entry of a mapping gives in a direct place. -/
theorem readEntry_direct_eq_ok_iff {fields : List (Field α)} {entry : Tree × Tree} {name : String}
    {put : α → α} :
    readEntry fields .direct entry = .ok (some (name, put))
      ↔ textOf entry.1 = some name
        ∧ ∃ f, fields.find? (·.name == name) = some f ∧ f.read .direct entry.2 = .ok put := by
  simp only [readEntry, bind_eq_ok_iff, fieldAt_direct_eq_ok_iff]
  constructor
  · rintro ⟨_, ⟨key, hkey, rfl⟩, h⟩
    split at h
    · simp at h
    · rename_i f hf
      simp only [bind_eq_ok_iff, pure_eq_ok_iff, Option.some.injEq, Prod.mk.injEq] at h
      obtain ⟨_, hread, rfl, rfl⟩ := h
      obtain rfl : f.name = key := by simpa using List.find?_some hf
      exact ⟨hkey, f, hf, hread⟩
  · rintro ⟨hkey, f, hf, hread⟩
    refine ⟨some f, ⟨name, hkey, hf⟩, ?_⟩
    obtain rfl : f.name = name := by simpa using List.find?_some hf
    simp only [hread, bind_eq_ok_iff, pure_eq_ok_iff]
    exact ⟨put, rfl, rfl⟩

/-- The settings that are read from the entries of a mapping in a direct place. -/
theorem mem_settings_iff {fields : List (Field α)} {entries : List (Tree × Tree)}
    {settings : Settings α} (h : readFields fields .direct [] entries = .ok settings)
    (name : String) (put : α → α) :
    (name, put) ∈ settings
      ↔ ∃ entry ∈ entries, textOf entry.1 = some name
          ∧ ∃ f, fields.find? (·.name == name) = some f ∧ f.read .direct entry.2 = .ok put := by
  obtain ⟨found, hfound, rfl, -⟩ := (readFields_eq_ok_iff ..).1 h
  simp only [List.mem_filterMap, id_eq, exists_eq_right, mem_iff_of_mapM_eq_ok hfound,
    readEntry_direct_eq_ok_iff]

/-- An entry whose key is a field gives a setting. -/
theorem exists_setting {fields : List (Field α)} {entries : List (Tree × Tree)}
    {settings : Settings α} (h : readFields fields .direct [] entries = .ok settings)
    {entry : Tree × Tree} (hentry : entry ∈ entries) {name : String}
    (hkey : textOf entry.1 = some name) {f : Field α}
    (hf : fields.find? (·.name == name) = some f) :
    ∃ put, f.read .direct entry.2 = .ok put ∧ (name, put) ∈ settings := by
  obtain ⟨found, hfound, -, -⟩ := (readFields_eq_ok_iff ..).1 h
  obtain ⟨given, hgiven⟩ := exists_ok_of_mapM_eq_ok hfound hentry
  have hnamed : fieldAt fields .direct entry.1 = .ok (some f) :=
    fieldAt_direct_eq_ok_iff.2 ⟨name, hkey, hf⟩
  rw [readEntry, hnamed] at hgiven
  simp only [bind_eq_ok_iff] at hgiven
  obtain ⟨named, heq, hgiven⟩ := hgiven
  cases heq
  obtain ⟨put, hread, -⟩ := bind_eq_ok_iff.1 hgiven
  exact ⟨put, hread, (mem_settings_iff h name put).2 ⟨entry, hentry, hkey, f, hf, hread⟩⟩

/-- A setting of the top of a descriptor that is not its name keeps the name. -/
theorem name_of_other_setting {entries : List (Tree × Tree)} {settings : Settings Descriptor}
    (h : readFields descriptorFields .direct [] entries = .ok settings) {name : String}
    (hname : name ≠ "name") {put : Descriptor → Descriptor} (hput : (name, put) ∈ settings)
    (d : Descriptor) : (put d).name = d.name := by
  obtain ⟨entry, -, -, f, hf, hread⟩ := (mem_settings_iff h name put).1 hput
  have hmem := List.mem_of_find?_eq_some hf
  have hfield : f.name = name := by simpa using List.find?_some hf
  simp only [descriptorFields, List.mem_cons, List.not_mem_nil, or_false] at hmem
  rcases hmem with rfl | rfl | rfl | rfl
  · exact absurd hfield.symm hname
  all_goals
    obtain ⟨value, -, rfl⟩ := map_eq_ok_iff.1 hread
    rfl

theorem applySettings_cons (f : Field α) (fields : List (Field α)) (settings : Settings α)
    (record : α) :
    applySettings (f :: fields) settings record
      = applySettings fields settings
          ((settings.lookup f.name).elim record fun put => put record) := by
  rw [applySettings, applySettings, List.foldl_cons]
  cases settings.lookup f.name <;> rfl

/-- A part of a record that no setting of some fields changes is kept by all of them. -/
theorem applySettings_keeps {β : Type} (part : α → β) {fields : List (Field α)}
    {settings : Settings α}
    (h : ∀ f ∈ fields, ∀ put, settings.lookup f.name = some put → ∀ r, part (put r) = part r)
    (record : α) : part (applySettings fields settings record) = part record := by
  induction fields generalizing record with
  | nil => rfl
  | cons f fields ih =>
      obtain ⟨hf, hfields⟩ := List.forall_mem_cons.1 h
      rw [applySettings_cons, ih hfields]
      cases hput : settings.lookup f.name with
      | none => rfl
      | some put => exact hf put hput record

/-- The top of a descriptor has the name that is set under `name`. -/
theorem name_applySettings {entries : List (Tree × Tree)} {settings : Settings Descriptor}
    (h : readFields descriptorFields .direct [] entries = .ok settings) (d : Descriptor) :
    (applySettings descriptorFields settings d).name
      = ((settings.lookup "name").elim d fun put => put d).name := by
  obtain ⟨-, -, -, hfresh⟩ := (readFields_eq_ok_iff ..).1 h
  rw [descriptorFields, applySettings_cons]
  refine applySettings_keeps Descriptor.name (fun f hf put hput => ?_) _
  have hname : f.name ≠ "name" := by
    simp only [List.mem_cons, List.not_mem_nil, or_false] at hf
    rcases hf with rfl | rfl | rfl <;> simp [field]
  exact name_of_other_setting h hname ((lookup_eq_some_iff_mem hfresh.1 _ put).1 hput)

/-- A name that may be missing is read as the text of its value. -/
theorem optional_text_direct_eq_ok {t : Tree} {value : Option String}
    (h : Reader.optional .text .direct t = .ok value) : value = textOf t := by
  cases t with
  | null =>
      cases h
      rfl
  | _ =>
      simp only [Reader.optional, map_eq_ok_iff, Reader.text, textOf, Place.view] at h ⊢
      obtain ⟨text, htext, rfl⟩ := h
      split at htext <;> simp_all

/-- The name at the top of a descriptor is the text of the first entry under `name`; there is
no second one. -/
theorem name_of_readFields {entries : List (Tree × Tree)} {settings : Settings Descriptor}
    (h : readFields descriptorFields .direct [] entries = .ok settings) :
    (applySettings descriptorFields settings {}).name
      = (entries.find? fun entry => textOf entry.1 = some "name").bind fun entry =>
          textOf entry.2 := by
  obtain ⟨-, -, -, hfresh⟩ := (readFields_eq_ok_iff ..).1 h
  rw [name_applySettings h]
  cases hfind : entries.find? fun entry => textOf entry.1 = some "name" with
  | none =>
      have hnone : settings.lookup "name" = none := by
        rw [Option.eq_none_iff_forall_ne_some]
        intro put hput
        rw [lookup_eq_some_iff_mem hfresh.1, mem_settings_iff h] at hput
        obtain ⟨entry, hentry, hkey, -⟩ := hput
        exact absurd hkey (by simpa using List.find?_eq_none.1 hfind entry hentry)
      rw [hnone]
      rfl
  | some entry =>
      have hkey : textOf entry.1 = some "name" := by simpa using List.find?_some hfind
      obtain ⟨put, hread, hmem⟩ :=
        exists_setting h (List.mem_of_find?_eq_some hfind) hkey (by rfl)
      obtain ⟨value, hvalue, rfl⟩ := map_eq_ok_iff.1 hread
      rw [(lookup_eq_some_iff_mem hfresh.1 ..).2 hmem, optional_text_direct_eq_ok hvalue]
      rfl

/-- A project has the name that its document declares. -/
theorem name_of_project {t : Tree} {p : Project} (h : project t = .ok p) :
    p.name = declaredName t := by
  obtain ⟨d, hd, rfl⟩ := map_eq_ok_iff.1 h
  have hname : d.project.name = d.name.getD "" := rfl
  rw [hname, declaredName]
  simp only [descriptor, record, Place.view] at hd
  cases htop : t.untagged with
  | mapping entries =>
      simp only [htop, bind_eq_ok_iff, pure_eq_ok_iff] at hd
      obtain ⟨settings, hsettings, rfl⟩ := hd
      rw [name_of_readFields hsettings]
  | null =>
      rw [htop] at hd
      cases hd
      rfl
  | _ =>
      rw [htop] at hd
      cases hd

end Decode
end Stackwright
