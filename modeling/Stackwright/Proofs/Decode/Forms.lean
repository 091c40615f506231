import Stackwright.Decode.Project
import Stackwright.Proofs.Decode.OrderFree
import Stackwright.Proofs.Text.Split

/-!
# Short and long forms

Many settings of a descriptor have a short form, a text or a list of texts, and a long
form, a mapping.  Both forms of a setting are read as the same value, which is given
here for each of them.

Main results:

- Theorems `settings_assignments` and `settings_textMap`: variables.
- Theorems `named_textList` and `named_textMap`: names without settings.
- Theorems `hosts_assignments` and `hosts_textMap`: the addresses of hosts.
- Theorems `shortMount_eq` and `shortDevice_eq`: mounts and devices.
-/

namespace Stackwright
namespace Decode

open Document (Tree)

/-! ## Written forms -/

/-- A list of texts. -/
def textList (items : List String) : Tree :=
  .sequence (items.map .text)

/-- A mapping from texts. -/
def textMap (entries : List (String × Tree)) : Tree :=
  .mapping (entries.map fun entry => (.text entry.1, entry.2))

/-- A text, or null for a missing one. -/
def textOrNull : Option String → Tree
  | none => .null
  | some value => .text value

/-- The item `key=value` of a list, or `key` alone if there is no value. -/
def assignment (key : String) : Option String → String
  | none => key
  | some value => key ++ "=" ++ value

/-- A list of texts has no tag. -/
theorem hasTag_textList (items : List String) : (textList items).hasTag = false := by
  rw [textList, Tree.hasTag, Tree.itemsHaveTag_eq, List.any_map, List.any_eq_false]
  simp [Tree.hasTag]

/-- A mapping from texts has no tag if none of its values has. -/
theorem hasTag_textMap {β : Type} {l : List β} (key : β → String) {tree : β → Tree}
    (h : ∀ b ∈ l, (tree b).hasTag = false) :
    (textMap (l.map fun b => (key b, tree b))).hasTag = false := by
  rw [textMap, Tree.hasTag, Tree.entriesHaveTag_eq, List.map_map, List.any_map, List.any_eq_false]
  intro b hb
  simp [Tree.hasTag, h b hb]

theorem hasTag_textOrNull (value : Option String) : (textOrNull value).hasTag = false := by
  cases value <;> rfl

/-! ## Readers of texts, lists and mappings -/

namespace Reader

variable {α β : Type} {r : Reader α} {place : Place}

@[simp]
theorem text_text (place : Place) (s : String) : text place (.text s) = .ok s := by
  cases place <;> rfl

/-- What is not null is there. -/
theorem optional_of_not_null (r : Reader α) (place : Place) {t : Tree} (h : t.isNull = false) :
    optional r place t = (r place t).map some := by
  cases t with
  | null => cases h
  | _ => rfl

/-- The items of a sequence are read one after the other. -/
theorem list_sequence (r : Reader α) (place : Place) (items : List Tree) :
    list r place (.sequence items) = items.mapM (r place) := by
  cases place <;> rfl

/-- The entries of a mapping are read one after the other and put into a dictionary. -/
theorem dict_mapping (r : Reader α) (place : Place) (es : List (Tree × Tree)) :
    dict r place (.mapping es) = (es.mapM (readPair r place)).map Dict.ofList := by
  rw [← entries_eq]
  cases place <;> rfl

/-- A list of texts is read as these texts. -/
@[simp]
theorem list_textList (place : Place) (items : List String) :
    list text place (textList items) = .ok items := by
  have hread : ∀ s ∈ items, (text place ∘ Tree.text) s = .ok (id s) :=
    fun s _ => text_text place s
  rw [textList, list_sequence, List.mapM_map, mapM_eq_ok hread, List.map_id]

/-- A dictionary is read from the values of its entries. -/
theorem dict_textMap {l : List β} {key : β → String} {tree : β → Tree} {value : β → α}
    (h : ∀ b ∈ l, r place (tree b) = .ok (value b)) :
    dict r place (textMap (l.map fun b => (key b, tree b)))
      = .ok (Dict.ofList (l.map fun b => (key b, value b))) := by
  have hpair : ∀ b ∈ l, readPair r place (.text (key b), tree b) = .ok (key b, value b) := by
    intro b hb
    simp [readPair, h b hb, bind, Except.bind, pure, Except.pure]
  have hpairs := mapM_eq_ok hpair
  rw [textMap, dict_mapping, List.map_map, List.mapM_map]
  exact congrArg (Except.map Dict.ofList) hpairs

/-- A value that may be missing, in one of several shapes. -/
theorem optional_oneOf_getD {shapes : List (Reader α)} {t : Tree} {a d : α}
    (hnull : t.isNull = false) (htag : t.hasTag = false) (h : first shapes t = .ok a) :
    ((optional (oneOf shapes)).map (·.getD d)) place t = .ok a := by
  have hone : oneOf shapes place t = .ok a := by simp [oneOf, htag, h]
  rw [map, optional_of_not_null _ _ hnull, hone]
  rfl

/-- A shape that does not fit is passed over. -/
theorem first_of_error {shapes : List (Reader α)} {t : Tree} {fault : Fault}
    (h : r .buffered t = .error fault) : first (r :: shapes) t = first shapes t := by
  rw [first, h]

/-- The first shape that fits is taken. -/
theorem first_of_ok {shapes : List (Reader α)} {t : Tree} {a : α}
    (h : r .buffered t = .ok a) : first (r :: shapes) t = .ok a := by
  rw [first, h]

/-! ## Variables and labels -/

/-- An assignment is cut at its first equals sign, which the key does not contain. -/
theorem pairOf_assignment {key : String} (h : '=' ∉ key.toList) (value : Option String) :
    pairOf (assignment key value) = (key, value) := by
  cases value with
  | none => simp [assignment, pairOf, Text.splitString_of_not_mem h]
  | some value =>
      have hsplit : Text.splitString '=' (key ++ "=" ++ value) = some (key, value) :=
        Text.splitString_append h (by simp)
      simp [assignment, pairOf, hsplit]

/-- Variables in a list. -/
theorem settings_assignments {vars : List (String × Option String)}
    (h : ∀ v ∈ vars, '=' ∉ v.1.toList) :
    settings place (textList (vars.map fun v => assignment v.1 v.2)) = .ok (Dict.ofList vars) := by
  have hpairs : (vars.map fun v => assignment v.1 v.2).map pairOf = vars := by
    have hpair : ∀ v ∈ vars, (pairOf ∘ fun v => assignment v.1 v.2) v = id v :=
      fun v hv => pairOf_assignment (h v hv) v.2
    rw [List.map_map, List.map_congr_left hpair, List.map_id]
  refine optional_oneOf_getD rfl (hasTag_textList _) ?_
  rw [first_of_error rfl]
  refine first_of_ok ?_
  rw [map, list_textList, Except.map, hpairs]

/-- Variables in a mapping. -/
theorem settings_textMap (vars : List (String × Option String)) :
    settings place (textMap (vars.map fun v => (v.1, textOrNull v.2)))
      = .ok (Dict.ofList vars) := by
  have hvalues : ∀ v ∈ vars, optional scalar .buffered (textOrNull v.2)
      = .ok (v.2.map Scalar.text) := by
    rintro ⟨key, value⟩ -
    cases value <;> rfl
  have htag := hasTag_textMap (l := vars) Prod.fst fun v _ => hasTag_textOrNull v.2
  refine optional_oneOf_getD rfl htag (first_of_ok ?_)
  rw [map, dict_textMap hvalues, Except.map, Dict.map_ofList, List.map_map]
  congr 2
  refine List.map_id'' (fun v => ?_) vars
  obtain ⟨key, value⟩ := v
  cases value <;> rfl

/-- The labels that variables give. -/
theorem labels_of_settings {t : Tree} {vars : List (String × Option String)}
    (h : settings place t = .ok (Dict.ofList vars)) :
    labels place t = .ok (Dict.ofList (vars.map fun v => (v.1, v.2.getD ""))) := by
  rw [labels, map, h, Except.map, Dict.map_ofList]

/-! ## Names -/

/-- Names in a list. -/
theorem named_textList (r : Reader α) (names : List String) :
    named r place (textList names) = .ok (Dict.ofList (names.map fun name => (name, none))) := by
  refine optional_oneOf_getD rfl (hasTag_textList _) (first_of_ok ?_)
  rw [map, list_textList, Except.map]

/-- Names in a mapping without settings. -/
theorem named_textMap (r : Reader α) (names : List String) :
    named r place (textMap (names.map fun name => (name, .null)))
      = .ok (Dict.ofList (names.map fun name => (name, none))) := by
  have htag := hasTag_textMap (l := names) id fun name _ => (rfl : Tree.null.hasTag = false)
  refine optional_oneOf_getD rfl htag ?_
  rw [first_of_error rfl]
  exact first_of_ok (dict_textMap fun _ _ => rfl)

/-- Names without settings do not depend on their order or on how often they are given. -/
theorem alike_ofList_names [Arrange α] {names names' : List String}
    (h : ∀ name, name ∈ names ↔ name ∈ names') (value : α) :
    Alike (Dict.ofList (names.map fun name => (name, value)))
      (Dict.ofList (names'.map fun name => (name, value))) := by
  refine Dict.alike_of_get? fun key => ?_
  rw [Dict.get?_ofList_const, Dict.get?_ofList_const]
  simp only [h key]

/-! ## Hosts -/

/-- The addresses of a host among items, in their order. -/
def addressesOf (host : String) (items : List (String × String)) : List String :=
  (items.filter (·.1 == host)).map Prod.snd

/-- An entry of a host is cut at its first equals sign, which the host does not contain. -/
theorem hostOf_assignment {host : String} (h : '=' ∉ host.toList) (address : String) :
    hostOf (assignment host (some address)) = some (host, address) := by
  have hsplit : Text.splitString '=' (host ++ "=" ++ address) = some (host, address) :=
    Text.splitString_append h (by simp)
  simp [assignment, hostOf, hsplit]

theorem addressesOf_cons (host : String) (item : String × String) (rest : List (String × String)) :
    addressesOf host (item :: rest)
      = if host = item.1 then item.2 :: addressesOf host rest else addressesOf host rest := by
  by_cases h : host = item.1
  · simp [addressesOf, h]
  · have hne : ¬ item.1 = host := fun heq => h heq.symm
    simp [addressesOf, h, hne]

/-- An address is added behind those of its host, and no other host changes. -/
theorem get?_addHost (hosts : Dict (List String)) (item : String × String) (host : String) :
    (addHost hosts item).get? host
      = if host = item.1 then some ((hosts.get? host).getD [] ++ [item.2])
        else hosts.get? host := by
  rw [addHost, Dict.alter, Dict.get?_insert]
  by_cases h : host = item.1
  · simp [h]
  · simp [h]

/-- The addresses that items add to those of a host. -/
theorem get?_foldl_addHost (items : List (String × String)) (hosts : Dict (List String))
    (host : String) :
    (items.foldl addHost hosts).get? host
      = if addressesOf host items = [] then hosts.get? host
        else some ((hosts.get? host).getD [] ++ addressesOf host items) := by
  induction items generalizing hosts with
  | nil => simp [addressesOf]
  | cons item rest ih =>
      rw [List.foldl_cons, ih, get?_addHost, addressesOf_cons]
      by_cases hhost : host = item.1
      · by_cases hrest : addressesOf host rest = []
        · simp [hhost ▸ hrest, hhost]
        · simp [hhost ▸ hrest, hhost]
      · simp [hhost]

/-- Hosts with addresses that are the same ones as in a list of items. -/
structure SameHosts (items : List (String × String)) (hosts : List (String × List String)) :
    Prop where
  distinct : (hosts.map Prod.fst).Nodup
  nonempty : ∀ host ∈ hosts, host.2 ≠ []
  same : ∀ host, addressesOf host items = (hosts.lookup host).getD []

/-- Addresses that are added one by one make the dictionary of the hosts with their addresses. -/
theorem SameHosts.alike_foldl_addHost {items : List (String × String)}
    {hosts : List (String × List String)} (h : SameHosts items hosts) :
    Alike (items.foldl addHost {}) (Dict.ofList hosts) := by
  refine Dict.alike_of_get? fun host => ?_
  rw [get?_foldl_addHost, h.same, Dict.ofList, Dict.get?_foldl_insert _ h.distinct]
  cases hfound : hosts.lookup host with
  | none => rfl
  | some addresses =>
      have hne : addresses ≠ [] :=
        h.nonempty (host, addresses) ((lookup_eq_some_iff_mem h.distinct host addresses).1 hfound)
      have hempty : ({} : Dict (List String)).get? host = none := rfl
      simp [hne, hempty]

/-- Hosts in a list. -/
theorem hosts_assignments {items : List (String × String)}
    (hplain : ∀ item ∈ items, '=' ∉ item.1.toList) :
    Reader.hosts place (textList (items.map fun item => assignment item.1 (some item.2)))
      = .ok (items.foldl addHost {}) := by
  have hitems : (items.map fun item => assignment item.1 (some item.2)).filterMap hostOf
      = items := by
    have hitem : ∀ item ∈ items, (hostOf ∘ fun item => assignment item.1 (some item.2)) item
        = some item := fun item hitem => hostOf_assignment (hplain item hitem) item.2
    rw [List.filterMap_map, List.filterMap_congr hitem, List.filterMap_some]
  refine optional_oneOf_getD rfl (hasTag_textList _) ?_
  rw [first_of_error rfl]
  refine first_of_ok ?_
  rw [map, list_textList, Except.map, hitems]

/-- Hosts in a mapping to lists of addresses. -/
theorem hosts_textMap (hosts : List (String × List String)) :
    Reader.hosts place (textMap (hosts.map fun host => (host.1, textList host.2)))
      = .ok (Dict.ofList hosts) := by
  have haddresses : ∀ host ∈ hosts, oneOrMany text .buffered (textList host.2) = .ok host.2 := by
    intro host _
    rw [oneOrMany, oneOf, hasTag_textList, first_of_error rfl]
    exact first_of_ok (list_textList _ _)
  have htag := hasTag_textMap (l := hosts) Prod.fst fun host _ => hasTag_textList host.2
  refine optional_oneOf_getD rfl htag (first_of_ok ?_)
  rw [dict_textMap haddresses, List.map_id' hosts]

end Reader

/-! ## Builds and secrets -/

/-- The shapes of one secret. -/
def secretShapes : List (Reader Secret) :=
  [.map (fun source => { source }) .text, record secretFields {}]

theorem build_text (place : Place) (context : String) :
    build place (.text context) = .ok (some { context := some context }) := rfl

theorem build_textMap (place : Place) (context : String) :
    build place (textMap [("context", .text context)])
      = .ok (some { context := some context }) := rfl

theorem secret_text (place : Place) (source : String) :
    Reader.oneOf secretShapes place (.text source) = .ok { source } := rfl

theorem secret_textMap (place : Place) (source : String) :
    Reader.oneOf secretShapes place (textMap [("source", .text source)]) = .ok { source } := rfl

/-! ## Mounts and devices -/

/-- The shapes of one mount. -/
def mountShapes : List (Reader Mount) :=
  [.map shortMount .text, record mountFields {}]

/-- The shapes of one device. -/
def deviceShapes : List (Reader Device) :=
  [.map shortDevice .text, record deviceFields {}]

/-- The mode of a mount in its short form. -/
inductive MountMode where
  | unsaid
  | readWrite
  | readOnly
deriving DecidableEq, Repr

/-- What the short form of a mount ends with. -/
def MountMode.suffix : MountMode → String
  | .unsaid => ""
  | .readWrite => ":rw"
  | .readOnly => ":ro"

/-- What is mounted: a path of the host starts with a dot, a slash or a tilde. -/
def mountKind (source : String) : String :=
  if source.toList.head? ∈ [some '.', some '/', some '~'] then "bind" else "volume"

/-- A mount of a source to a target. -/
def mountAt (source target : String) (mode : MountMode) : Mount where
  kind := some (mountKind source)
  source := some source
  target := target
  readOnly := mode = .readOnly

/-- A path of the host is bound; any other source is a volume. -/
theorem mountKind_eq (source : String) :
    mountKind source = if isHostPath source.toList then "bind" else "volume" := by
  rw [mountKind, isHostPath]
  cases source.toList.head? with
  | none => rfl
  | some c => simp [or_assoc]

/-- A mount of three parts has its source, its target and its mode. -/
theorem shortMount_eq {source target : String} (hsource : ':' ∉ source.toList)
    (htarget : ':' ∉ target.toList) (mode : MountMode) :
    shortMount (source ++ ":" ++ target ++ mode.suffix) = mountAt source target mode := by
  have hfirst : Text.splitFirst ':' (source ++ ":" ++ target ++ mode.suffix).toList
      = some (source.toList, target.toList ++ mode.suffix.toList) := by
    simpa using Text.splitFirst_append hsource (target.toList ++ mode.suffix.toList)
  rw [shortMount, hfirst]
  cases mode with
  | unsaid =>
      simp [MountMode.suffix, Text.splitFirst_of_not_mem htarget, mountOf, mountAt, mountKind_eq]
  | readWrite =>
      have hsecond : Text.splitFirst ':' (target.toList ++ MountMode.readWrite.suffix.toList)
          = some (target.toList, ['r', 'w']) := Text.splitFirst_append htarget _
      have hflags : ['r', 'o'] ∉ Text.splitAll ',' ['r', 'w'] := by decide
      simp [hsecond, hflags, mountOf, mountAt, mountKind_eq]
  | readOnly =>
      have hsecond : Text.splitFirst ':' (target.toList ++ MountMode.readOnly.suffix.toList)
          = some (target.toList, ['r', 'o']) := Text.splitFirst_append htarget _
      have hflags : ['r', 'o'] ∈ Text.splitAll ',' ['r', 'o'] := by decide
      simp [hsecond, hflags, mountOf, mountAt, mountKind_eq]

/-- The short form of a mount is read as the mount that it says. -/
theorem mount_text (place : Place) {source target : String} (hsource : ':' ∉ source.toList)
    (htarget : ':' ∉ target.toList) (mode : MountMode) :
    Reader.oneOf mountShapes place (.text (source ++ ":" ++ target ++ mode.suffix))
      = .ok (mountAt source target mode) :=
  congrArg Except.ok (shortMount_eq hsource htarget mode)

/-- The long form of a mount is read as the same mount. -/
theorem mount_textMap (place : Place) (source target : String) (mode : MountMode) :
    Reader.oneOf mountShapes place (textMap
      [("type", .text (mountKind source)), ("source", .text source), ("target", .text target),
        ("read_only", .bool (mode = .readOnly))]) = .ok (mountAt source target mode) := rfl

/-- A device of three parts has its two paths and its permissions. -/
theorem shortDevice_eq {source target : String} (hsource : ':' ∉ source.toList)
    (htarget : ':' ∉ target.toList) (permissions : String) :
    shortDevice (source ++ ":" ++ target ++ ":" ++ permissions)
      = { source, target, permissions := some permissions } := by
  have hfirst : Text.splitFirst ':' (source ++ ":" ++ target ++ ":" ++ permissions).toList
      = some (source.toList, target.toList ++ ':' :: permissions.toList) := by
    simpa using Text.splitFirst_append hsource (target.toList ++ ':' :: permissions.toList)
  rw [shortDevice, hfirst]
  simp [Text.splitFirst_append htarget]

/-- The short form of a device is read as the device that it says. -/
theorem device_text (place : Place) {source target : String} (hsource : ':' ∉ source.toList)
    (htarget : ':' ∉ target.toList) (permissions : String) :
    Reader.oneOf deviceShapes place (.text (source ++ ":" ++ target ++ ":" ++ permissions))
      = .ok { source, target, permissions := some permissions } :=
  congrArg Except.ok (shortDevice_eq hsource htarget permissions)

/-- The long form of a device is read as the same device. -/
theorem device_textMap (place : Place) (source target permissions : String) :
    Reader.oneOf deviceShapes place (textMap
      [("source", .text source), ("target", .text target), ("permissions", .text permissions)])
        = .ok { source, target, permissions := some permissions } := rfl

end Decode
end Stackwright
