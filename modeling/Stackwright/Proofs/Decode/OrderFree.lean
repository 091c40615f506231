import Stackwright.Decode.Record
import Stackwright.Proofs.Arrangement
import Stackwright.Proofs.Document.Reordering

/-!
# Readers that do not depend on order

A reader is *order-free* if it agrees on two trees that differ only in the order in
which the entries of mappings are written: it fails on both, or reads values from both
that are alike.  A dictionary is filled in the order in which its entries are written,
so the dictionaries in the two values may be walked in different orders.  In a direct
place a tag around a key is dropped, so two keys that differ only in such tags are one
key of a dictionary, and the last of them wins.  Keys are therefore taken as distinct
only if they are so without the tags around them.

Order-freeness is a class: the combinators of readers have instances, and a reader
that is put together from them is order-free by instance resolution.

Main results:

- Theorem `Shuffled.mapM_entries`: a step made for each entry of a mapping gives
  related results in two orders.
- Theorem `readFields_eq_ok_iff`: what reading the fields of a record gives.
- Instances of `OrderFree` for every combinator of readers.
-/

namespace Stackwright
namespace Decode

open Document (Tree)

/-! ## Shuffled trees -/

/-- The second tree is the first one in another order, and the keys of every mapping are
different even without the tags around them. -/
structure Shuffled (t u : Tree) : Prop where
  reordered : t.Reordered u
  distinct : t.DistinctKeys Tree.untagged

namespace Shuffled

variable {t u : Tree}

/-- Trees stay shuffled when a reader looks through their tags. -/
theorem view (h : Shuffled t u) (place : Place) : Shuffled (place.view t) (place.view u) := by
  cases place with
  | direct => exact ⟨h.reordered.untagged, h.distinct.untagged⟩
  | buffered => exact h

/-- Shuffled trees are the same scalar or have the same shape with shuffled parts. -/
theorem cases (h : Shuffled t u) :
    (t.isScalar = true ∧ u = t)
      ∨ (∃ as bs, t = .sequence as ∧ u = .sequence bs ∧ List.Forall₂ Shuffled as bs)
      ∨ (∃ es gs, t = .mapping es ∧ u = .mapping gs)
      ∨ ∃ tag a b, t = .tagged tag a ∧ u = .tagged tag b := by
  cases t with
  | sequence as =>
      obtain ⟨bs, rfl, related⟩ := h.reordered.of_sequence
      refine .inr (.inl ⟨as, bs, rfl, rfl, ?_⟩)
      have hdistinct := Tree.DistinctKeys.sequence_iff.1 h.distinct
      exact forall₂_imp_of_mem related fun a ha b hab => ⟨hab, hdistinct a ha⟩
  | mapping es =>
      obtain ⟨fs, gs, rfl, -, -⟩ := h.reordered.of_mapping
      exact .inr (.inr (.inl ⟨es, gs, rfl, rfl⟩))
  | tagged tag a =>
      obtain ⟨b, rfl, -⟩ := h.reordered.of_tagged
      exact .inr (.inr (.inr ⟨tag, a, b, rfl, rfl⟩))
  | _ => exact .inl ⟨rfl, h.reordered.eq_of_isScalar rfl⟩

/-- A step made for each entry of a mapping gives related results in two orders. -/
theorem mapM_entries {β : Type} {R : β → β → Prop} {es gs : List (Tree × Tree)}
    {step : Tree × Tree → Except Fault β} (h : Shuffled (.mapping es) (.mapping gs))
    (hstep : ∀ e f, Shuffled e.1 f.1 → Shuffled e.2 f.2 → Agree R (step e) (step f)) :
    Agree (fun as cs => ∃ bs, List.Forall₂ R as bs ∧ bs.Perm cs) (es.mapM step)
      (gs.mapM step) := by
  obtain ⟨fs, gs, heq, related, order⟩ := h.reordered.of_mapping
  cases heq
  obtain ⟨-, keys, values⟩ := Tree.DistinctKeys.mapping_iff.1 h.distinct
  -- The parts of each entry are shuffled in place first, and the entries after that.
  have hparts : Agree (List.Forall₂ R) (es.mapM step) (fs.mapM step) := by
    refine Agree.mapM (forall₂_imp_of_mem related fun e he f hef => ?_)
    exact hstep e f ⟨hef.key, keys e he⟩ ⟨hef.value, values e he⟩
  exact hparts.trans (Agree.mapM_perm order)

end Shuffled

/-! ## Entries of dictionaries -/

variable {α β : Type}

namespace Reader

/-- Reads one entry of a dictionary. -/
def readPair (r : Reader α) (place : Place) (entry : Tree × Tree) : Except Fault (String × α) := do
  let key ← text place entry.1
  let value ← r place entry.2
  return (key, value)

/-- The entries of a mapping are read one after the other. -/
theorem entries_eq (r : Reader α) (place : Place) (entries : List (Tree × Tree)) :
    r.entries place entries = entries.mapM (readPair r place) := by
  induction entries with
  | nil => rfl
  | cons entry rest ih =>
      rw [entries, ih, List.mapM_cons, readPair]
      simp only [bind_assoc, pure_bind]

/-- A tree that is read as a string is this string without the tags around it. -/
theorem untagged_of_text {place : Place} {key : Tree} {name : String}
    (h : text place key = .ok name) : key.untagged = .text name := by
  unfold text at h
  split at h
  · rename_i hview
    cases h
    cases place with
    | direct => exact hview
    | buffered =>
        rw [Place.view] at hview
        rw [hview]
        rfl
  · cases h

/-- The keys of a dictionary that was read are different. -/
theorem nodup_of_mapM_readPair {r : Reader α} {place : Place} {es : List (Tree × Tree)}
    {pairs : List (String × α)} (h : (Tree.mapping es).DistinctKeys Tree.untagged)
    (hpairs : es.mapM (readPair r place) = .ok pairs) : (pairs.map Prod.fst).Nodup := by
  rw [List.Nodup, List.pairwise_map]
  have hdistinct := (Tree.DistinctKeys.mapping_iff.1 h).1
  refine pairwise_of_forall₂ (forall₂_of_mapM_eq_ok hpairs) hdistinct ?_
  intro e e' pair pair' hpair hpair' hne heq
  simp only [readPair, bind_eq_ok_iff, pure_eq_ok_iff] at hpair hpair'
  obtain ⟨key, hkey, _, _, rfl⟩ := hpair
  obtain ⟨key', hkey', _, _, rfl⟩ := hpair'
  cases heq
  rw [untagged_of_text hkey, untagged_of_text hkey', Tree.same] at hne
  simp at hne

end Reader

/-! ## Fields of records -/

/-- Reads the field that one entry of a mapping gives; an unknown field gives nothing. -/
def readEntry (fields : List (Field α)) (place : Place) (entry : Tree × Tree) :
    Except Fault (Option (String × (α → α))) := do
  match ← fieldAt fields place entry.1 with
  | none => return none
  | some f =>
      let put ← f.read place entry.2
      return some (f.name, put)

/-- Settings that give no field twice and none of those seen before. -/
def Fresh (seen : List String) (settings : Settings α) : Prop :=
  (settings.map Prod.fst).Nodup ∧ ∀ name ∈ settings.map Prod.fst, name ∉ seen

/-- Settings are fresh if the first one is, and the others are fresh beside it. -/
theorem fresh_cons {seen : List String} {setting : String × (α → α)} {settings : Settings α} :
    Fresh seen (setting :: settings)
      ↔ setting.1 ∉ seen ∧ Fresh (setting.1 :: seen) settings := by
  rw [Fresh, Fresh, List.map_cons, List.nodup_cons, List.forall_mem_cons]
  constructor
  · rintro ⟨⟨hnotMem, hnodup⟩, hseen, hrest⟩
    refine ⟨hseen, hnodup, fun name hname hmem => ?_⟩
    rcases List.mem_cons.1 hmem with rfl | hmem
    · exact hnotMem hname
    · exact hrest name hname hmem
  · rintro ⟨hseen, hnodup, hrest⟩
    refine ⟨⟨fun hmem => hrest _ hmem List.mem_cons_self, hnodup⟩, hseen, fun name hname hmem => ?_⟩
    exact hrest name hname (List.mem_cons_of_mem _ hmem)

/-- Settings are fresh in any order. -/
theorem Fresh.perm {seen : List String} {settings settings' : Settings α} (h : Fresh seen settings)
    (hperm : settings.Perm settings') : Fresh seen settings' := by
  have hnames := hperm.map Prod.fst
  exact ⟨hnames.nodup_iff.1 h.1, fun name hname => h.2 name (hnames.mem_iff.2 hname)⟩

/-- What the first entry gives decides how the fields of a record are read on. -/
theorem readFields_cons_eq_ok_iff {fields : List (Field α)} {place : Place} {seen : List String}
    {entry : Tree × Tree} {rest : List (Tree × Tree)} {settings : Settings α} :
    readFields fields place seen (entry :: rest) = .ok settings
      ↔ (readEntry fields place entry = .ok none ∧ readFields fields place seen rest = .ok settings)
        ∨ ∃ setting settings', readEntry fields place entry = .ok (some setting)
          ∧ setting.1 ∉ seen
          ∧ readFields fields place (setting.1 :: seen) rest = .ok settings'
          ∧ setting :: settings' = settings := by
  obtain ⟨key, value⟩ := entry
  rw [readFields, readEntry]
  cases fieldAt fields place key with
  | error fault => simp [bind, Except.bind]
  | ok named =>
      cases named with
      | none => simp [bind, Except.bind]
      | some f =>
          cases hread : f.read place value with
          | error fault =>
              by_cases hseen : f.name ∈ seen <;> simp [bind, Except.bind, hread, hseen]
          | ok put =>
              by_cases hseen : f.name ∈ seen
              · simp [bind, Except.bind, pure, Except.pure, hread, hseen]
              · cases hrest : readFields fields place (f.name :: seen) rest <;>
                  simp [bind, Except.bind, pure, Except.pure, hread, hseen, hrest]

/-- Reading the fields of a record gives what its entries give, if no field is given twice
and none was seen before. -/
theorem readFields_eq_ok_iff (fields : List (Field α)) (place : Place) (seen : List String)
    (entries : List (Tree × Tree)) (settings : Settings α) :
    readFields fields place seen entries = .ok settings
      ↔ ∃ found, entries.mapM (readEntry fields place) = .ok found
          ∧ found.filterMap id = settings ∧ Fresh seen settings := by
  induction entries generalizing seen settings with
  | nil =>
      simp only [readFields, List.mapM_nil, pure_eq_ok_iff, Except.ok.injEq]
      constructor
      · rintro rfl
        exact ⟨[], rfl, rfl, .nil, by simp⟩
      · rintro ⟨_, rfl, rfl, -⟩
        rfl
  | cons entry rest ih =>
      rw [readFields_cons_eq_ok_iff, List.mapM_cons]
      simp only [bind_eq_ok_iff, pure_eq_ok_iff, ih]
      constructor
      · rintro (⟨hgiven, found, hfound, hsettings, hfresh⟩ |
          ⟨setting, _, hgiven, hseen, ⟨found, hfound, rfl, hfresh⟩, rfl⟩)
        · exact ⟨_, ⟨none, hgiven, found, hfound, rfl⟩, hsettings, hfresh⟩
        · exact ⟨_, ⟨some setting, hgiven, found, hfound, rfl⟩, rfl, fresh_cons.2 ⟨hseen, hfresh⟩⟩
      · rintro ⟨_, ⟨given, hgiven, found, hfound, rfl⟩, rfl, hfresh⟩
        cases given with
        | none => exact .inl ⟨hgiven, found, hfound, rfl, hfresh⟩
        | some setting =>
            obtain ⟨hseen, hfresh⟩ := fresh_cons.1 hfresh
            exact .inr ⟨setting, _, hgiven, hseen, ⟨found, hfound, rfl, hfresh⟩, rfl⟩

/-- Settings of different fields can be put into a record in any order. -/
theorem applySettings_eq_of_perm {fields : List (Field α)} {settings settings' : Settings α}
    (hperm : settings.Perm settings') (h : (settings.map Prod.fst).Nodup) (record : α) :
    applySettings fields settings record = applySettings fields settings' record := by
  unfold applySettings
  congr 1
  funext record f
  rw [lookup_eq_of_perm hperm h]

/-- What is found for a key is a field of the record. -/
theorem mem_of_fieldAt {fields : List (Field α)} {place : Place} {key : Tree} {f : Field α}
    (h : fieldAt fields place key = .ok (some f)) : f ∈ fields := by
  unfold fieldAt at h
  split at h
  · exact List.mem_of_find?_eq_some (Except.ok.inj h)
  · split at h
    · exact List.mem_of_getElem? (Except.ok.inj h)
    · cases h
  · cases h

/-! ## Order-free readers -/

/-- A reader that agrees on shuffled trees. -/
class OrderFree [Arrange α] (r : Reader α) : Prop where
  agree : ∀ (place : Place) (t u : Tree), Shuffled t u → Agree Alike (r place t) (r place u)

/-- Readers that agree on shuffled trees. -/
class AllOrderFree [Arrange α] (shapes : List (Reader α)) : Prop where
  orderFree : ∀ r ∈ shapes, OrderFree r

section Alike

variable [Arrange α] [Arrange β]

instance : AllOrderFree ([] : List (Reader α)) where
  orderFree := by simp

instance {r : Reader α} {shapes : List (Reader α)} [head : OrderFree r]
    [tail : AllOrderFree shapes] : AllOrderFree (r :: shapes) where
  orderFree := List.forall_mem_cons.2 ⟨head, tail.orderFree⟩

theorem agree_of_eq {x y : Except Fault α} (h : x = y) : Agree Alike x y :=
  (Agree.of_eq h).mono fun _ _ hab => congrArg arranged hab

/-- An order-free reader of values without dictionaries reads the same value. -/
theorem OrderFree.agree_eq {r : Reader α} [Plain α] [OrderFree r] (place : Place) (t u : Tree)
    (h : Shuffled t u) : Agree Eq (r place t) (r place u) :=
  (OrderFree.agree place t u h).mono fun _ _ hab => hab.eq

/-! ## Scalars -/

/-- A reader that takes only scalars, without the tags that its place drops. -/
theorem OrderFree.ofScalar {r : Reader α}
    (hview : ∀ place t u, place.view t = place.view u → r place t = r place u)
    (hshape : ∀ place t, (place.view t).isScalar = false → r place t = .error .shape) :
    OrderFree r where
  agree place t u h := by
    obtain ⟨-, heq⟩ | ⟨as, bs, ht, hu, -⟩ | ⟨es, gs, ht, hu⟩ | ⟨tag, a, b, ht, hu⟩ :=
      (h.view place).cases
    · exact agree_of_eq (hview place t u heq.symm)
    all_goals
      rw [hshape place t (by rw [ht]; rfl), hshape place u (by rw [hu]; rfl)]
      exact .error _ _

instance : OrderFree Reader.bool := by
  refine .ofScalar (fun place t u h => ?_) (fun place t h => ?_)
  · rw [Reader.bool, Reader.bool, h]
  · unfold Reader.bool
    split <;> simp_all [Tree.isScalar]

instance (low high : Int) : OrderFree (Reader.intIn low high) := by
  refine .ofScalar (fun place t u h => ?_) (fun place t h => ?_)
  · rw [Reader.intIn, Reader.intIn, h]
  · unfold Reader.intIn
    split <;> simp_all [Tree.isScalar]

instance : OrderFree Reader.float := by
  refine .ofScalar (fun place t u h => ?_) (fun place t h => ?_)
  · rw [Reader.float, Reader.float, h]
  · unfold Reader.float
    split <;> simp_all [Tree.isScalar]

instance : OrderFree Reader.text := by
  refine .ofScalar (fun place t u h => ?_) (fun place t h => ?_)
  · rw [Reader.text, Reader.text, h]
  · unfold Reader.text
    split <;> simp_all [Tree.isScalar]

instance (fields : List (Field α)) : OrderFree (fieldAt fields) := by
  refine .ofScalar (fun place t u h => ?_) (fun place t h => ?_)
  · unfold fieldAt
    rw [h]
  · unfold fieldAt
    split <;> simp_all [Tree.isScalar]

/-! ## Combinators -/

/-- A function may be applied to what is read if it keeps alike values alike. -/
theorem OrderFree.map {r : Reader α} [OrderFree r] {f : α → β}
    (hf : ∀ a b, Alike a b → Alike (f a) (f b)) : OrderFree (r.map f) where
  agree place t u h := (OrderFree.agree (r := r) place t u h).map hf

instance (f : α → β) (r : Reader α) [Plain α] [OrderFree r] : OrderFree (r.map f) :=
  .map fun _ _ hab => congrArg (arranged ∘ f) hab.eq

instance (default : α) (r : Reader (Option α)) [OrderFree r] :
    OrderFree (r.map (·.getD default)) :=
  .map fun _ _ hab => hab.getD default

instance (f : String → α → β) (r : Reader (Dict α)) [Plain α] [OrderFree r] :
    OrderFree (r.map (Dict.map f)) :=
  .map fun _ _ hab => Dict.alike_map hab fun key _ _ hxy => congrArg (arranged ∘ f key) hxy.eq

instance (f : α → Except Fault β) (r : Reader α) [Plain α] [OrderFree r] :
    OrderFree (r.check f) where
  agree place t u h :=
    (OrderFree.agree_eq (r := r) place t u h).bind fun _ _ hab => agree_of_eq (congrArg f hab)

instance : OrderFree Reader.int64 := by
  unfold Reader.int64
  infer_instance

instance (bound : Nat) : OrderFree (Reader.natBelow bound) := by
  unfold Reader.natBelow
  infer_instance

instance (r : Reader α) [OrderFree r] : OrderFree r.optional where
  agree place t u h := by
    have hsome : Agree Alike ((r place t).map some) ((r place u).map some) :=
      (OrderFree.agree place t u h).map fun _ _ => Alike.some_iff.2
    cases t with
    | null =>
        rw [h.reordered.eq_of_isScalar rfl]
        exact .ok rfl
    | sequence as =>
        obtain ⟨bs, rfl, -⟩ := h.reordered.of_sequence
        exact hsome
    | mapping es =>
        obtain ⟨fs, gs, rfl, -⟩ := h.reordered.of_mapping
        exact hsome
    | tagged tag a =>
        obtain ⟨b, rfl, -⟩ := h.reordered.of_tagged
        exact hsome
    | bool | int | float | text =>
        obtain rfl := h.reordered.eq_of_isScalar rfl
        exact hsome

instance (r : Reader α) [OrderFree r] : OrderFree r.list where
  agree place t u h := by
    unfold Reader.list
    obtain ⟨-, heq⟩ | ⟨as, bs, ht, hu, hitems⟩ | ⟨es, gs, ht, hu⟩ | ⟨tag, a, b, ht, hu⟩ :=
      (h.view place).cases
    · rw [heq]
      exact agree_of_eq rfl
    · rw [ht, hu]
      refine (Agree.mapM (hitems.imp fun a b hab => OrderFree.agree place a b hab)).mono ?_
      exact fun _ _ => Alike.list_iff.2
    all_goals
      rw [ht, hu]
      exact .error _ _

/-- The first shape that fits is the same one on shuffled trees. -/
theorem agree_first {shapes : List (Reader α)} (hall : ∀ r ∈ shapes, OrderFree r) {t u : Tree}
    (h : Shuffled t u) : Agree Alike (Reader.first shapes t) (Reader.first shapes u) := by
  induction shapes with
  | nil => exact .error _ _
  | cons r rest ih =>
      obtain ⟨hr, hrest⟩ := List.forall_mem_cons.1 hall
      have hagree := hr.agree .buffered t u h
      rw [Reader.first, Reader.first]
      generalize r .buffered t = x at hagree ⊢
      generalize r .buffered u = y at hagree ⊢
      cases hagree with
      | ok related => exact .ok related
      | error e e' => exact ih hrest

instance (shapes : List (Reader α)) [all : AllOrderFree shapes] :
    OrderFree (Reader.oneOf shapes) where
  agree place t u h := by
    rw [Reader.oneOf, Reader.oneOf, h.reordered.hasTag_eq]
    split
    · exact .error _ _
    · exact agree_first all.orderFree h

/-! ## Dictionaries -/

namespace Reader

/-- A key and its value are read alike from shuffled entries. -/
theorem agree_readPair (r : Reader α) [OrderFree r] (place : Place) {e f : Tree × Tree}
    (hkey : Shuffled e.1 f.1) (hvalue : Shuffled e.2 f.2) :
    Agree Alike (readPair r place e) (readPair r place f) := by
  refine (OrderFree.agree_eq place _ _ hkey).bind fun key key' hkeys => ?_
  refine (OrderFree.agree place _ _ hvalue).bind fun value value' hvalues => ?_
  exact .ok (Prod.ext hkeys hvalues)

end Reader

instance (r : Reader α) [OrderFree r] : OrderFree r.dict where
  agree place t u h := by
    have hview := h.view place
    unfold Reader.dict
    obtain ⟨-, heq⟩ | ⟨as, bs, ht, hu, -⟩ | ⟨es, gs, ht, hu⟩ | ⟨tag, a, b, ht, hu⟩ := hview.cases
    · rw [heq]
      exact agree_of_eq rfl
    · rw [ht, hu]
      exact .error _ _
    · rw [ht, hu] at hview
      rw [ht, hu]
      simp only [Reader.entries_eq]
      have hagree := hview.mapM_entries fun e f => Reader.agree_readPair r place
      refine hagree.attach.map fun pairs pairs' hpairs => ?_
      obtain ⟨hread, between, hrelated, hperm⟩ := hpairs
      have hpairs := Alike.list_iff.2 hrelated
      have hnodup := Reader.nodup_of_mapM_readPair hview.distinct hread
      rw [Alike.map_fst_eq hpairs] at hnodup
      exact (Dict.alike_ofList hpairs).trans (Dict.alike_ofList_of_perm hperm hnodup)
    · rw [ht, hu]
      exact .error _ _

/-! ## Records -/

/-- Two ways of putting a value into a record that keep alike records alike. -/
def PutAlike (put put' : α → α) : Prop :=
  ∀ a b, Alike a b → Alike (put a) (put' b)

/-- Settings that put alike values into the same field. -/
def SettingAlike (setting setting' : String × (α → α)) : Prop :=
  setting.1 = setting'.1 ∧ PutAlike setting.2 setting'.2

/-- A setter that puts the arranged value into the arranged record. -/
class Puts (put : α → β → α) : Prop where
  arranged_put : ∀ a b, arranged (put a b) = put (arranged a) (arranged b)

/-- Functions that instance resolution sees to be the same by unfolding them. -/
class Unfolds {γ : Type} (f g : γ) : Prop where
  eq : f = g

instance {γ : Type} (f : γ) : Unfolds f f :=
  ⟨rfl⟩

instance (put : α → β → α) [Plain α] [Plain β] : Puts put where
  arranged_put := by simp

/-- A setter of a field without dictionaries. -/
instance (put : α → β → α) [Plain β]
    [h : Unfolds (fun a b => arranged (put a b)) fun a b => put (arranged a) b] : Puts put where
  arranged_put a b := by rw [arranged_plain b, congrFun (congrFun h.eq a) b]

/-- A setter of a field with dictionaries. -/
instance (put : α → β → α)
    [h : Unfolds (fun a b => arranged (put a b)) fun a b => put (arranged a) (arranged b)] :
    Puts put where
  arranged_put a b := congrFun (congrFun h.eq a) b

/-- A field that is filled with alike values keeps records alike. -/
theorem Puts.alike {put : α → β → α} (hput : Puts put) {b b' : β} (h : Alike b b') :
    PutAlike (put · b) (put · b') := by
  intro a a' ha
  rw [Alike, hput.arranged_put, hput.arranged_put, ha, h]

/-- A field that agrees on shuffled trees and keeps alike records alike. -/
structure Field.OrderFree (f : Field α) : Prop where
  agree : ∀ place t u, Shuffled t u → Agree PutAlike (f.read place t) (f.read place u)
  keeps : ∀ place t put, f.read place t = .ok put → PutAlike put put

theorem Field.OrderFree.of_puts {name : String} {r : Reader β} {put : α → β → α}
    [Decode.OrderFree r] (hput : Puts put) : (field name r put).OrderFree where
  agree place t u h :=
    (Decode.OrderFree.agree (r := r) place t u h).map fun _ _ hab => hput.alike hab
  keeps place t put h := by
    obtain ⟨b, -, rfl⟩ := map_eq_ok_iff.1 h
    exact hput.alike (.refl b)

/-- Fields that agree on shuffled trees. -/
class FieldsOrderFree (fields : List (Field α)) : Prop where
  orderFree : ∀ f ∈ fields, f.OrderFree

instance : FieldsOrderFree ([] : List (Field α)) where
  orderFree := by simp

instance (name : String) (r : Reader β) (put : α → β → α) (fields : List (Field α))
    [OrderFree r] [hput : Puts put] [rest : FieldsOrderFree fields] :
    FieldsOrderFree (field name r put :: fields) where
  orderFree := List.forall_mem_cons.2 ⟨.of_puts hput, rest.orderFree⟩

/-- Alike settings in two orders. -/
def SettingsAlike (settings settings' : Settings α) : Prop :=
  ∃ between, List.Forall₂ SettingAlike settings between ∧ between.Perm settings'

/-- Alike settings are of the same fields. -/
theorem map_fst_eq {settings settings' : Settings α}
    (h : List.Forall₂ SettingAlike settings settings') :
    settings.map Prod.fst = settings'.map Prod.fst := by
  rw [← List.forall₂_eq_eq_eq, List.forall₂_map_left_iff, List.forall₂_map_right_iff]
  exact h.imp fun _ _ hab => hab.1

namespace SettingsAlike

/-- Entries that give alike fields in two orders give alike settings in two orders. -/
theorem of_found {found found' : List (Option (String × (α → α)))}
    (h : ∃ between, List.Forall₂ (Option.Rel SettingAlike) found between ∧ between.Perm found') :
    SettingsAlike (found.filterMap id) (found'.filterMap id) := by
  obtain ⟨between, hrelated, hperm⟩ := h
  exact ⟨_, List.rel_filterMap (fun _ _ h => h) hrelated, hperm.filterMap id⟩

/-- Alike settings are fresh together. -/
theorem fresh_iff {settings settings' : Settings α} (h : SettingsAlike settings settings')
    (seen : List String) : Fresh seen settings ↔ Fresh seen settings' := by
  obtain ⟨between, hrelated, hperm⟩ := h
  have hbetween : Fresh seen settings ↔ Fresh seen between := by
    rw [Fresh, Fresh, map_fst_eq hrelated]
  exact hbetween.trans ⟨(·.perm hperm), (·.perm hperm.symm)⟩

end SettingsAlike

/-- Alike settings hold alike setters for a field, or none. -/
theorem lookup_alike {settings settings' : Settings α}
    (h : List.Forall₂ SettingAlike settings settings') (name : String) :
    Option.Rel PutAlike (settings.lookup name) (settings'.lookup name) := by
  induction h with
  | nil => exact .none
  | @cons setting setting' rest rest' hhead _ ih =>
      rw [List.lookup_cons, List.lookup_cons, hhead.1]
      cases name == setting'.1 with
      | true => exact .some hhead.2
      | false => exact ih

/-- Alike settings put into alike records give alike records. -/
theorem applySettings_alike (fields : List (Field α)) {settings settings' : Settings α}
    (h : List.Forall₂ SettingAlike settings settings') {a b : α} (hab : Alike a b) :
    Alike (applySettings fields settings a) (applySettings fields settings' b) := by
  unfold applySettings
  induction fields generalizing a b with
  | nil => exact hab
  | cons f fields ih =>
      rw [List.foldl_cons, List.foldl_cons]
      apply ih
      have hput := lookup_alike h f.name
      generalize settings.lookup f.name = put at hput ⊢
      generalize settings'.lookup f.name = put' at hput ⊢
      cases hput with
      | none => exact hab
      | some hput => exact hput a b hab

/-- The entry of a field is read alike from shuffled entries. -/
theorem agree_readEntry (fields : List (Field α)) [all : FieldsOrderFree fields]
    (place : Place) {e f : Tree × Tree} (hkey : Shuffled e.1 f.1) (hvalue : Shuffled e.2 f.2) :
    Agree (Option.Rel SettingAlike) (readEntry fields place e) (readEntry fields place f) := by
  have hnamed := (OrderFree.agree_eq (r := fieldAt fields) place _ _ hkey).attach
  refine hnamed.bind fun named named' hnames => ?_
  obtain ⟨hfield, rfl⟩ := hnames
  cases named with
  | none => exact .ok .none
  | some field =>
      have hread := (all.orderFree field (mem_of_fieldAt hfield)).agree place _ _ hvalue
      exact hread.bind fun put put' hput => .ok (.some ⟨rfl, hput⟩)

/-- Entries in two orders are read into alike settings in two orders. -/
theorem agree_readFields (fields : List (Field α)) [FieldsOrderFree fields]
    (place : Place) {es gs : List (Tree × Tree)} (h : Shuffled (.mapping es) (.mapping gs)) :
    Agree SettingsAlike (readFields fields place [] es) (readFields fields place [] gs) := by
  have hagree := h.mapM_entries fun e f => agree_readEntry fields place
  refine .of_ok (fun settings hes => ?_) fun settings' hgs => ?_
  · obtain ⟨found, hfound, rfl, hfresh⟩ := (readFields_eq_ok_iff ..).1 hes
    obtain ⟨found', hfound', hrelated⟩ := hagree.exists_ok hfound
    have halike := SettingsAlike.of_found hrelated
    exact ⟨_, (readFields_eq_ok_iff ..).2 ⟨found', hfound', rfl, (halike.fresh_iff _).1 hfresh⟩,
      halike⟩
  · obtain ⟨found', hfound', rfl, hfresh⟩ := (readFields_eq_ok_iff ..).1 hgs
    obtain ⟨found, hfound, hrelated⟩ := hagree.symm.exists_ok hfound'
    have halike := SettingsAlike.of_found hrelated
    exact ⟨_, (readFields_eq_ok_iff ..).2 ⟨found, hfound, rfl, (halike.fresh_iff _).2 hfresh⟩⟩

/-- Fields are read alike by their positions in shuffled lists. -/
theorem agree_readPositions (fields : List (Field α)) [all : FieldsOrderFree fields]
    (place : Place) {as bs : List Tree} (h : List.Forall₂ Shuffled as bs) :
    Agree (List.Forall₂ SettingAlike) (readPositions place fields as)
      (readPositions place fields bs) := by
  have hall := all.orderFree
  clear all
  induction h generalizing fields with
  | nil =>
      rw [readPositions]
      exact .ok .nil
  | cons hhead _ ih =>
      cases fields with
      | nil => exact .error _ _
      | cons f fields =>
          obtain ⟨hf, hfields⟩ := List.forall_mem_cons.1 hall
          refine (hf.agree place _ _ hhead).bind fun put put' hput => ?_
          refine (ih fields hfields).bind fun settings settings' hsettings => ?_
          exact .ok (.cons ⟨rfl, hput⟩ hsettings)

instance (fields : List (Field α)) (defaults : α) [FieldsOrderFree fields] :
    OrderFree (record fields defaults) where
  agree place t u h := by
    have hview := h.view place
    unfold record
    obtain ⟨-, heq⟩ | ⟨as, bs, ht, hu, hitems⟩ | ⟨es, gs, ht, hu⟩ | ⟨tag, a, b, ht, hu⟩ :=
      hview.cases
    · rw [heq]
      exact agree_of_eq rfl
    · rw [ht, hu]
      cases place with
      | direct => exact .error _ _
      | buffered =>
          refine (agree_readPositions fields _ hitems).bind fun s s' hs => ?_
          exact .ok (applySettings_alike fields hs (.refl defaults))
    · rw [ht, hu] at hview
      rw [ht, hu]
      refine (agree_readFields fields place hview).attach.bind fun s s' hs => ?_
      obtain ⟨hread, between, hrelated, hperm⟩ := hs
      obtain ⟨-, -, -, hfresh⟩ := (readFields_eq_ok_iff ..).1 hread
      have hnodup : (between.map Prod.fst).Nodup := map_fst_eq hrelated ▸ hfresh.1
      have halike := applySettings_alike fields hrelated (.refl defaults)
      exact .ok (applySettings_eq_of_perm hperm hnodup defaults ▸ halike)
    · rw [ht, hu]
      exact .error _ _

end Alike

end Decode
end Stackwright
