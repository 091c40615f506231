import Stackwright.Proofs.Builder.Arrangement
import Stackwright.Proofs.Decode.Forms
import Stackwright.Proofs.Decode.Project

/-!
# Descriptors in short and long forms

A descriptor describes the same project whichever form a setting of it is written in.
`Forms` lists the settings with two forms; `Within` says that two trees are the same but
for one place, where one of them has the short and the other one the long form.

Main results:

- Theorem `Forms.read`: both forms of a setting are read as the value that they say.
- Theorem `Within.read_alike`: trees that differ in a part that is read alike are read alike.
- Theorem `respelled_read_alike`: both forms of a setting can be exchanged in a descriptor.
-/

namespace Stackwright
namespace Decode

open Document (Tree)

/-! ## Settings with two forms -/

/-- The short and the long form of a setting, with the reader of the setting and the value that
both forms say. -/
inductive Forms : {α : Type} → [Arrange α] → Reader α → α → Tree → Tree → Prop
  /-- Variables, such as the environment of a service and the arguments of a build. -/
  | settings {vars : List (String × Option String)} (distinct : (vars.map Prod.fst).Nodup)
      (plain : ∀ v ∈ vars, '=' ∉ v.1.toList) :
      Forms .settings (Dict.ofList vars) (textList (vars.map fun v => assignment v.1 v.2))
        (textMap (vars.map fun v => (v.1, textOrNull v.2)))
  | labels {vars : List (String × Option String)} (distinct : (vars.map Prod.fst).Nodup)
      (plain : ∀ v ∈ vars, '=' ∉ v.1.toList) :
      Forms .labels (Dict.ofList (vars.map fun v => (v.1, v.2.getD "")))
        (textList (vars.map fun v => assignment v.1 v.2))
        (textMap (vars.map fun v => (v.1, textOrNull v.2)))
  | networks {names keys : List String} (distinct : keys.Nodup)
      (same : ∀ name, name ∈ names ↔ name ∈ keys) :
      Forms (.named (record endpointFields {})) (Dict.ofList (keys.map fun key => (key, none)))
        (textList names) (textMap (keys.map fun key => (key, .null)))
  | dependencies {names keys : List String} (distinct : keys.Nodup)
      (same : ∀ name, name ∈ names ↔ name ∈ keys) :
      Forms dependencies (Dict.ofList (keys.map fun key => (key, {}))) (textList names)
        (textMap (keys.map fun key => (key, .null)))
  | hosts {items : List (String × String)} {hosts : List (String × List String)}
      (plain : ∀ item ∈ items, '=' ∉ item.1.toList) (same : Reader.SameHosts items hosts) :
      Forms .hosts (Dict.ofList hosts)
        (textList (items.map fun item => assignment item.1 (some item.2)))
        (textMap (hosts.map fun host => (host.1, textList host.2)))
  | build (context : String) :
      Forms build (some { context := some context }) (.text context)
        (textMap [("context", .text context)])
  | secret (source : String) :
      Forms (.oneOf secretShapes) { source } (.text source) (textMap [("source", .text source)])
  | mount {source target : String} (hsource : ':' ∉ source.toList) (htarget : ':' ∉ target.toList)
      (mode : MountMode) :
      Forms (.oneOf mountShapes) (mountAt source target mode)
        (.text (source ++ ":" ++ target ++ mode.suffix))
        (textMap [("type", .text (mountKind source)), ("source", .text source),
          ("target", .text target), ("read_only", .bool (mode = .readOnly))])
  | device {source target : String} (hsource : ':' ∉ source.toList) (htarget : ':' ∉ target.toList)
      (permissions : String) :
      Forms (.oneOf deviceShapes) { source, target, permissions := some permissions }
        (.text (source ++ ":" ++ target ++ ":" ++ permissions))
        (textMap [("source", .text source), ("target", .text target),
          ("permissions", .text permissions)])

/-- Dependencies are named entries in which a missing value is the default one. -/
theorem dependencies_of_named {place : Place} {t : Tree} {names : List String}
    (h : Reader.named (record dependencyFields {}) place t
      = .ok (Dict.ofList (names.map fun name => (name, none)))) :
    dependencies place t = .ok (Dict.ofList (names.map fun name => (name, {}))) := by
  rw [dependencies, Reader.map, h, Except.map, Dict.map_ofList, List.map_map]
  rfl

/-- A value that is alike to the given one is read from a tree. -/
def ReadsAlike {α : Type} [Arrange α] (r : Reader α) (place : Place) (t : Tree) (a : α) : Prop :=
  ∃ b, r place t = .ok b ∧ Alike b a

theorem ReadsAlike.of_eq {α : Type} [Arrange α] {r : Reader α} {place : Place} {t : Tree} {a : α}
    (h : r place t = .ok a) : ReadsAlike r place t a :=
  ⟨a, h, .refl a⟩

namespace Forms

variable {α : Type} [Arrange α] {r : Reader α} {a : α} {short long : Tree}

/-- Both forms of a setting are read as the value that they say. -/
theorem read (h : Forms r a short long) (place : Place) :
    ReadsAlike r place short a ∧ ReadsAlike r place long a := by
  cases h with
  | settings distinct plain =>
      exact ⟨.of_eq (Reader.settings_assignments plain), .of_eq (Reader.settings_textMap _)⟩
  | labels distinct plain =>
      exact ⟨.of_eq (Reader.labels_of_settings (Reader.settings_assignments plain)),
        .of_eq (Reader.labels_of_settings (Reader.settings_textMap _))⟩
  | networks distinct same =>
      exact ⟨⟨_, Reader.named_textList _ _, Reader.alike_ofList_names same _⟩,
        .of_eq (Reader.named_textMap _ _)⟩
  | dependencies distinct same =>
      exact ⟨⟨_, dependencies_of_named (Reader.named_textList _ _),
          Reader.alike_ofList_names same _⟩,
        .of_eq (dependencies_of_named (Reader.named_textMap _ _))⟩
  | hosts plain same =>
      exact ⟨⟨_, Reader.hosts_assignments plain, same.alike_foldl_addHost⟩,
        .of_eq (Reader.hosts_textMap _)⟩
  | build context => exact ⟨.of_eq (build_text place context), .of_eq (build_textMap place context)⟩
  | secret source =>
      exact ⟨.of_eq (secret_text place source), .of_eq (secret_textMap place source)⟩
  | mount hsource htarget mode =>
      exact ⟨.of_eq (mount_text place hsource htarget mode), .of_eq (mount_textMap place _ _ mode)⟩
  | device hsource htarget permissions =>
      exact ⟨.of_eq (device_text place hsource htarget permissions),
        .of_eq (device_textMap place _ _ permissions)⟩

/-- Neither form of a setting has a tag. -/
theorem hasTag (h : Forms r a short long) : short.hasTag = false ∧ long.hasTag = false := by
  cases h with
  | settings | labels =>
      exact ⟨hasTag_textList _, hasTag_textMap _ fun v _ => hasTag_textOrNull v.2⟩
  | networks | dependencies => exact ⟨hasTag_textList _, hasTag_textMap _ fun _ _ => rfl⟩
  | hosts => exact ⟨hasTag_textList _, hasTag_textMap _ fun _ _ => hasTag_textList _⟩
  | build | secret | mount | device => exact ⟨rfl, rfl⟩

/-- Each reader of a setting with two forms reads shuffled trees alike. -/
theorem orderFree (h : Forms r a short long) : OrderFree r := by
  cases h with
  | settings | labels | dependencies | hosts | build => infer_instance
  | networks =>
      unfold endpointFields
      infer_instance
  | secret =>
      unfold secretShapes secretFields
      infer_instance
  | mount =>
      unfold mountShapes mountFields tmpfsFields
      infer_instance
  | device =>
      unfold deviceShapes deviceFields
      infer_instance

end Forms

/-- The keys of a mapping from different texts are different. -/
theorem distinctKeys_textMap {entries : List (String × Tree)}
    (distinct : (entries.map Prod.fst).Nodup)
    (values : ∀ entry ∈ entries, entry.2.DistinctKeys Tree.untagged) :
    (textMap entries).DistinctKeys Tree.untagged := by
  rw [List.Nodup, List.pairwise_map] at distinct
  refine .mapping (List.pairwise_map.2 (distinct.imp fun hne => ?_)) ?_ ?_
  · simpa [Tree.untagged, Tree.same] using hne
  · rw [List.forall_mem_map]
    exact fun entry _ => .text entry.1
  · rw [List.forall_mem_map]
    exact values

theorem distinctKeys_textList (items : List String) :
    (textList items).DistinctKeys Tree.untagged := by
  refine .sequence ?_
  simp

theorem distinctKeys_textOrNull (value : Option String) :
    (textOrNull value).DistinctKeys Tree.untagged := by
  cases value <;> exact .scalar rfl

namespace Forms

variable {α : Type} [Arrange α] {r : Reader α} {a : α} {short long : Tree}

/-- The keys of a long form are different. -/
theorem distinctKeys (h : Forms r a short long) : long.DistinctKeys Tree.untagged := by
  cases h with
  | settings distinct | labels distinct =>
      refine distinctKeys_textMap (by simpa [Function.comp_def] using distinct) ?_
      rw [List.forall_mem_map]
      exact fun v _ => distinctKeys_textOrNull v.2
  | networks distinct | dependencies distinct =>
      refine distinctKeys_textMap (by simpa [Function.comp_def] using distinct) ?_
      rw [List.forall_mem_map]
      exact fun _ _ => .scalar rfl
  | hosts plain same =>
      refine distinctKeys_textMap (by simpa [Function.comp_def] using same.distinct) ?_
      rw [List.forall_mem_map]
      exact fun host _ => distinctKeys_textList host.2
  | build | secret | device => exact distinctKeys_textMap (by simp) (by simp)
  | mount hsource htarget mode =>
      have hbool : (Tree.bool (mode = .readOnly)).DistinctKeys Tree.untagged := .scalar rfl
      exact distinctKeys_textMap (by simp) (by simp [hbool])

/-- The long form is read as the same value in any order. -/
theorem read_reordered (h : Forms r a short long) {long' : Tree} (horder : long.Reordered long')
    (place : Place) : ReadsAlike r place long' a := by
  have hfree := h.orderFree
  obtain ⟨b, hb, hba⟩ := (h.read place).2
  obtain ⟨c, hc, hbc⟩ := (hfree.agree place long long' ⟨horder, h.distinctKeys⟩).exists_ok hb
  exact ⟨c, hc, hbc.symm.trans hba⟩

end Forms

/-! ## A part of a descriptor -/

/-- Two trees that a reader reads and that are the same but for one part of them, which another
reader reads and which is `short` in the first and `long` in the second. -/
inductive Within {α : Type} [Arrange α] (r : Reader α) (short long : Tree) :
    {β : Type} → [Arrange β] → Reader β → Tree → Tree → Prop
  | here : Within r short long r short long
  /-- An item of a list whose items have a short and a long form. -/
  | item {β : Type} [Arrange β] {shapes : List (Reader β)} {t u : Tree}
      (part : Within r short long (.oneOf shapes) t u) (before after : List Tree) :
      Within r short long (.entriesOf shapes) (.sequence (before ++ t :: after))
        (.sequence (before ++ u :: after))
  /-- The value of a field of a record. -/
  | field {β γ : Type} [Arrange β] [Arrange γ] {q : Reader β} {t u : Tree}
      {fields : List (Field γ)} [FieldsOrderFree fields] {key : String} {put : γ → β → γ}
      (puts : Puts put) (part : Within r short long q t u)
      (named : fields.find? (·.name == key) = some (field key q put)) (defaults : γ)
      (before after : List (Tree × Tree)) :
      Within r short long (record fields defaults) (.mapping (before ++ (.text key, t) :: after))
        (.mapping (before ++ (.text key, u) :: after))
  /-- The value of an entry of a dictionary. -/
  | entry {β : Type} [Arrange β] {q : Reader β} {t u : Tree} (part : Within r short long q t u)
      (key : Tree) (before after : List (Tree × Tree)) :
      Within r short long (.dict q) (.mapping (before ++ (key, t) :: after))
        (.mapping (before ++ (key, u) :: after))
  | optional {β : Type} [Arrange β] {q : Reader β} {es gs : List (Tree × Tree)}
      (part : Within r short long q (.mapping es) (.mapping gs)) :
      Within r short long (.optional q) (.mapping es) (.mapping gs)
  | build {es gs : List (Tree × Tree)}
      (part : Within r short long (record buildFields {}) (.mapping es) (.mapping gs)) :
      Within r short long build (.mapping es) (.mapping gs)

/-- Trees that are read alike in the only shape there is are read alike. -/
theorem first_alike {α : Type} [Arrange α] {r : Reader α} {t u : Tree}
    (h : SameOutcome Alike (r .buffered t) (r .buffered u)) :
    SameOutcome Alike (Reader.first [r] t) (Reader.first [r] u) := by
  simp only [Reader.first]
  generalize r .buffered t = x, r .buffered u = y at h
  cases h with
  | ok related => exact .ok related
  | error fault => exact .error Fault.shape

/-- A record that is written as a mapping is read in the same way in every place. -/
theorem record_mapping {γ : Type} (fields : List (Field γ)) (defaults : γ) (place : Place)
    (entries : List (Tree × Tree)) :
    record fields defaults place (.mapping entries) = do
      let settings ← readFields fields place [] entries
      return applySettings fields settings defaults := by
  cases place <;> rfl

/-- A mapping is no text, so a build that is written as one is a record. -/
theorem build_mapping (place : Place) (entries : List (Tree × Tree)) :
    build place (.mapping entries)
      = (Reader.oneOf [record buildFields {}] place (.mapping entries)).map some := rfl

section Fields

variable {γ : Type} [Arrange γ] {fields : List (Field γ)} [all : FieldsOrderFree fields] {place : Place}

/-- Entries after the same first one are read alike if they are without it. -/
theorem readFields_cons_alike (entry : Tree × Tree) {es gs : List (Tree × Tree)}
    (h : ∀ seen, SameOutcome (List.Forall₂ SettingAlike) (readFields fields place seen es)
      (readFields fields place seen gs)) (seen : List String) :
    SameOutcome (List.Forall₂ SettingAlike) (readFields fields place seen (entry :: es))
      (readFields fields place seen (entry :: gs)) := by
  obtain ⟨key, value⟩ := entry
  rw [readFields, readFields]
  cases hnamed : fieldAt fields place key with
  | error fault => exact .error fault
  | ok named =>
      cases named with
      | none => exact h seen
      | some f =>
          by_cases hseen : seen.contains f.name = true
          · simp only [bind, Except.bind, hseen, if_true]
            exact .error _
          · cases hread : f.read place value with
            | error fault =>
                simp only [bind, Except.bind, hseen, hread]
                exact .error fault
            | ok put =>
                have hkeeps := (all.orderFree f (mem_of_fieldAt hnamed)).keeps place value put hread
                simp only [bind, Except.bind, hseen, hread]
                exact (h (f.name :: seen)).bind fun _ _ hrest => .ok (.cons ⟨rfl, hkeeps⟩ hrest)

/-- Entries are read alike from themselves. -/
theorem readFields_alike_self (entries : List (Tree × Tree)) (seen : List String) :
    SameOutcome (List.Forall₂ SettingAlike) (readFields fields place seen entries)
      (readFields fields place seen entries) := by
  induction entries generalizing seen with
  | nil => exact .ok .nil
  | cons entry rest ih => exact readFields_cons_alike entry ih seen

/-- Fields are read alike if one of them is given two values that are read alike. -/
theorem readFields_replace {f : Field γ} {key : String}
    (named : fields.find? (·.name == key) = some f) {t u : Tree}
    (h : SameOutcome PutAlike (f.read place t) (f.read place u)) (before after : List (Tree × Tree))
    (seen : List String) :
    SameOutcome (List.Forall₂ SettingAlike)
      (readFields fields place seen (before ++ (.text key, t) :: after))
      (readFields fields place seen (before ++ (.text key, u) :: after)) := by
  induction before generalizing seen with
  | nil =>
      have hfield : fieldAt fields place (.text key) = .ok (some f) := by
        rw [← named]
        cases place <;> rfl
      simp only [List.nil_append, readFields, hfield, bind, Except.bind]
      split
      · exact .error _
      · refine h.bind fun put put' hput => ?_
        exact (readFields_alike_self after _).bind fun _ _ hrest => .ok (.cons ⟨rfl, hput⟩ hrest)
  | cons entry before ih => exact readFields_cons_alike entry ih seen

end Fields

namespace Within

variable {α β : Type} [Arrange α] [Arrange β] {r : Reader α} {q : Reader β} {short long t u : Tree}

/-- Trees that differ in one part have tags both or neither, as the parts have. -/
theorem hasTag_eq (h : Within r short long q t u) (hpart : short.hasTag = long.hasTag) :
    t.hasTag = u.hasTag := by
  induction h with
  | here => exact hpart
  | item part before after ih => simp [Tree.hasTag, Tree.itemsHaveTag_eq, ih]
  | field puts part named defaults before after ih =>
      simp [Tree.hasTag, Tree.entriesHaveTag_eq, ih]
  | entry part key before after ih => simp [Tree.hasTag, Tree.entriesHaveTag_eq, ih]
  | optional part ih => exact ih
  | build part ih => exact ih

/-- Trees that differ in a part that is read alike are read alike. -/
theorem read_alike (h : Within r short long q t u) (hpart : short.hasTag = long.hasTag)
    (hread : ∀ place, SameOutcome Alike (r place short) (r place long)) (place : Place) :
    SameOutcome Alike (q place t) (q place u) := by
  induction h generalizing place with
  | here => exact hread place
  | item part before after ih =>
      rw [Reader.entriesOf, Reader.map, Reader.map, Reader.optional_of_not_null _ _ rfl,
        Reader.optional_of_not_null _ _ rfl, Reader.list_sequence, Reader.list_sequence]
      have hitems := SameOutcome.mapM_replace Alike.refl (ih place) before after
      exact (hitems.map fun _ _ hab => Alike.some_iff.2 (Alike.list_iff.2 hab)).map
        fun _ _ hab => hab.getD []
  | @field β γ _ _ q t u fields _ key put puts part named defaults before after ih =>
      have hput : SameOutcome PutAlike ((Decode.field key q put).read place t)
          ((Decode.field key q put).read place u) := (ih place).map fun _ _ => puts.alike
      rw [record_mapping, record_mapping]
      refine (readFields_replace named hput before after []).bind fun settings settings' hsettings => ?_
      exact .ok (applySettings_alike fields hsettings (.refl defaults))
  | @entry β _ q t u part key before after ih =>
      have hpair : SameOutcome Alike (Reader.readPair q place (key, t))
          (Reader.readPair q place (key, u)) := by
        rw [Reader.readPair, Reader.readPair]
        refine (SameOutcome.of_eq (R := Eq) (fun _ => rfl) rfl).bind fun name name' hname => ?_
        refine (ih place).bind fun _ _ hab => .ok ?_
        exact Prod.ext hname hab
      rw [Reader.dict_mapping, Reader.dict_mapping]
      refine (SameOutcome.mapM_replace Alike.refl hpair before after).map fun _ _ hab => ?_
      exact Dict.alike_ofList (Alike.list_iff.2 hab)
  | optional part ih =>
      rw [Reader.optional_of_not_null _ _ rfl, Reader.optional_of_not_null _ _ rfl]
      exact (ih place).map fun _ _ => Alike.some_iff.2
  | build part ih =>
      rw [build_mapping, build_mapping, Reader.oneOf, Reader.oneOf, part.hasTag_eq hpart]
      refine SameOutcome.map ?_ fun _ _ => Alike.some_iff.2
      split
      · exact .error _
      · exact first_alike (ih .buffered)

end Within

/-- Both forms of a setting, the long one in any order, are read as the value that they say, and one
can be written for the other anywhere in a descriptor: it describes an alike project, for which the
same program is generated. -/
theorem respelled_read_alike {α : Type} [Arrange α] {r : Reader α} {a : α} {short long long' : Tree}
    (h : Forms r a short long) (horder : long.Reordered long') :
    (∀ place, ReadsAlike r place short a ∧ ReadsAlike r place long' a)
      ∧ (∀ (β : Type) [Arrange β] (q : Reader β) (t u : Tree), Within r short long' q t u →
          ∀ place, SameOutcome Alike (q place t) (q place u))
      ∧ ∀ t u, Within r short long' descriptor t u →
          SameOutcome (fun p p' => Alike p p' ∧ ∀ options, p.generate options = p'.generate options)
            (project t) (project u) := by
  have hread : ∀ place, ReadsAlike r place short a ∧ ReadsAlike r place long' a :=
    fun place => ⟨(h.read place).1, h.read_reordered horder place⟩
  have hsame : ∀ place, SameOutcome Alike (r place short) (r place long') := by
    intro place
    obtain ⟨⟨b, hb, hba⟩, ⟨c, hc, hca⟩⟩ := hread place
    rw [hb, hc]
    exact .ok (hba.trans hca.symm)
  have htag : short.hasTag = long'.hasTag := by
    rw [← horder.hasTag_eq, h.hasTag.1, h.hasTag.2]
  refine ⟨hread, fun β _ q t u hwithin => hwithin.read_alike htag hsame, fun t u hwithin => ?_⟩
  refine (hwithin.read_alike htag hsame .direct).map fun d d' hd => ?_
  have halike := Descriptor.alike_project hd
  exact ⟨halike, fun options => halike.generate_eq d.namesServices_project options⟩

/-- A descriptor of one service with one setting. -/
def serviceWith (key : String) (value : Tree) : Tree :=
  textMap [("services", textMap [("web", textMap [(key, value)])])]

/-- A part of a setting of a service is a part of a descriptor. -/
theorem Within.inService {α β : Type} [Arrange α] [Arrange β] {r : Reader α} {q : Reader β}
    {short long t u : Tree} {key : String} {put : Service → β → Service} (puts : Puts put)
    (part : Within r short long q t u)
    (named : serviceFields.find? (·.name == key) = some (Decode.field key q put)) :
    Within r short long descriptor (serviceWith key t) (serviceWith key u) := by
  have hservice : Within r short long service (textMap [(key, t)]) (textMap [(key, u)]) :=
    .field puts part named {} [] []
  have hservices : Within r short long (.dict (.optional service))
      (textMap [("web", textMap [(key, t)])]) (textMap [("web", textMap [(key, u)])]) :=
    .entry (.optional hservice) (.text "web") [] []
  have hnamed : descriptorFields.find? (·.name == "services")
      = some (Decode.field "services" (.dict (.optional service)) fun r v =>
          { r with services := v }) := rfl
  exact .field inferInstance hservices hnamed {} [] []

/-- A path that is mounted for reading, in both forms. -/
theorem respelled_read_alike_readOnly :
    let short := serviceWith "volumes" (.sequence [.text "./conf:/etc/app:ro"])
    let long := serviceWith "volumes" (.sequence [textMap
      [("read_only", .bool true), ("target", .text "/etc/app"), ("source", .text "./conf"),
        ("type", .text "bind")]])
    SameOutcome (fun p p' => Alike p p' ∧ ∀ options, p.generate options = p'.generate options)
        (project short) (project long)
      ∧ (project short).toOption.map (·.services.values.map (·.volumes))
          = some [[{ kind := some "bind", source := some "./conf", target := "/etc/app",
                     readOnly := true }]] := by
  intro short long
  have hsource : ':' ∉ "./conf".toList := by decide
  have htarget : ':' ∉ "/etc/app".toList := by decide
  have hform : Forms (.oneOf mountShapes) (mountAt "./conf" "/etc/app" .readOnly)
      (.text "./conf:/etc/app:ro")
      (textMap [("type", .text "bind"), ("source", .text "./conf"), ("target", .text "/etc/app"),
        ("read_only", .bool true)]) := .mount hsource htarget .readOnly
  have horder := Tree.Reordered.of_perm (List.reverse_perm
    [(Tree.text "type", Tree.text "bind"), (.text "source", .text "./conf"),
      (.text "target", .text "/etc/app"), (.text "read_only", .bool true)]).symm
  obtain ⟨-, -, hproject⟩ := respelled_read_alike hform horder
  refine ⟨hproject short long ?_, by decide +kernel⟩
  have hmounts : Within (.oneOf mountShapes) (.text "./conf:/etc/app:ro") (textMap
      [("read_only", .bool true), ("target", .text "/etc/app"), ("source", .text "./conf"),
        ("type", .text "bind")]) (.entriesOf mountShapes) (.sequence [.text "./conf:/etc/app:ro"])
      (.sequence [textMap [("read_only", .bool true), ("target", .text "/etc/app"),
        ("source", .text "./conf"), ("type", .text "bind")]]) := .item .here [] []
  have hputs : Puts fun (s : Service) mounts => { s with volumes := mounts } := inferInstance
  exact .inService hputs hmounts rfl

end Decode
end Stackwright
