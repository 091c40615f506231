import Stackwright.Model.Project
import Stackwright.Proofs.Dict

/-!
# Dictionaries in any order

A value of the model may hold dictionaries at any depth, and each of them may be walked
in any order.  A value is arranged by putting the entries of every dictionary in it in
ascending order of their keys.  Values are alike if they are equal once they are
arranged: then they say the same, and differ at most in how their dictionaries are
walked.

Main results:

- Theorem `Dict.alike_iff`: dictionaries are alike exactly if every key leads to alike
  values in both.
- Theorem `Project.NamesServices.of_alike`: in alike projects services are stored under
  the same names.
-/

namespace Stackwright

variable {α β : Type}

/-! ## Arranged values -/

/-- Values in which the entries of dictionaries can be put in ascending order. -/
class Arrange (α : Type) where
  arranged : α → α

export Arrange (arranged)

/-- A value of any type that is not named below holds no dictionary. -/
instance (priority := low) Arrange.same : Arrange α :=
  ⟨id⟩

instance [Arrange α] : Arrange (Option α) :=
  ⟨Option.map arranged⟩

instance [Arrange α] : Arrange (List α) :=
  ⟨List.map arranged⟩

instance [Arrange α] [Arrange β] : Arrange (α × β) :=
  ⟨Prod.map arranged arranged⟩

/-- Types whose values hold no dictionary. -/
class Plain (α : Type) [Arrange α] : Prop where
  arranged_eq : ∀ a : α, arranged a = a

instance : @Plain α Arrange.same :=
  @Plain.mk α Arrange.same fun _ => rfl

section Plain

variable [Arrange α] [Plain α]

/-- A value without dictionaries is arranged as it is. -/
@[simp]
theorem arranged_plain (a : α) : arranged a = a :=
  Plain.arranged_eq a

theorem arranged_eq_id : (arranged : α → α) = id :=
  funext arranged_plain

instance : Plain (Option α) where
  arranged_eq a := by
    change a.map arranged = a
    rw [arranged_eq_id, Option.map_id, id]

instance : Plain (List α) where
  arranged_eq as := by
    change as.map arranged = as
    rw [arranged_eq_id, List.map_id]

end Plain

section Option

variable [Arrange α]

/-- What is made of a value that may be missing does not depend on how it is arranged if this
holds of the value. -/
theorem map_arranged {f : α → β} (h : ∀ a, f (arranged a) = f a) (value : Option α) :
    (arranged value).map f = value.map f := by
  cases value with
  | none => rfl
  | some a => exact congrArg some (h a)

theorem bind_arranged {f : α → Option β} (h : ∀ a, f (arranged a) = f a) (value : Option α) :
    (arranged value).bind f = value.bind f := by
  cases value with
  | none => rfl
  | some a => exact h a

end Option

/-! ## Alike values -/

/-- Whether two values are equal but for the orders in which their dictionaries are walked. -/
def Alike [Arrange α] (a b : α) : Prop :=
  arranged a = arranged b

namespace Alike

variable [Arrange α] [Arrange β] {a b c : α}

theorem refl (a : α) : Alike a a :=
  rfl

theorem symm (h : Alike a b) : Alike b a :=
  Eq.symm h

theorem trans (hab : Alike a b) (hbc : Alike b c) : Alike a c :=
  Eq.trans hab hbc

/-- Alike values without dictionaries are equal. -/
theorem eq [Plain α] (h : Alike a b) : a = b := by
  rw [Alike, arranged_plain, arranged_plain] at h
  exact h

/-- Values that are there are alike if they are without saying so. -/
theorem some_iff : Alike (some a) (some b) ↔ Alike a b :=
  Option.some_inj

/-- Values that may be missing are alike, so they are with the same value in place of a missing
one. -/
theorem getD {a b : Option α} (h : Alike a b) (default : α) :
    Alike (a.getD default) (b.getD default) := by
  cases a with
  | none =>
      obtain rfl : b = none := Option.map_eq_none_iff.1 h.symm
      rfl
  | some a =>
      obtain ⟨b, rfl, hvalue⟩ := Option.map_eq_some_iff.1 h.symm
      exact hvalue.symm

/-- Alike lists have alike members, one by one. -/
theorem list_iff {as bs : List α} : Alike as bs ↔ List.Forall₂ Alike as bs := by
  change as.map arranged = bs.map arranged ↔ _
  rw [← List.forall₂_eq_eq_eq, List.forall₂_map_left_iff, List.forall₂_map_right_iff]
  rfl

/-- Alike entries have the same keys. -/
theorem map_fst_eq {as bs : List (String × α)} (h : Alike as bs) :
    as.map Prod.fst = bs.map Prod.fst := by
  have hkeys := congrArg (List.map Prod.fst) h
  change (as.map (Prod.map arranged arranged)).map Prod.fst
    = (bs.map (Prod.map arranged arranged)).map Prod.fst at hkeys
  rw [List.map_map, List.map_map] at hkeys
  exact hkeys

end Alike

/-! ## Dictionaries -/

namespace Dict

/-- The dictionary that is walked in ascending order of the keys. -/
def inOrder (d : Dict α) : Dict α :=
  ⟨d.sorted, d.nodup_sorted⟩

/-- Dictionaries are walked in the same way in order exactly if their entries are the same. -/
theorem inOrder_eq_iff {a b : Dict α} : a.inOrder = b.inOrder ↔ a.sorted = b.sorted :=
  ⟨congrArg entries, fun h => ext_entries h⟩

/-- Putting the entries in order twice is the same as once. -/
@[simp]
theorem sorted_inOrder (d : Dict α) : d.inOrder.sorted = d.sorted :=
  sortBy_eq_of_perm d.perm_sorted d.nodup_sorted

instance [Arrange α] : Arrange (Dict α) :=
  ⟨fun d => (d.map fun _ => arranged).inOrder⟩

variable [Arrange α]

/-- What is walked in an arranged dictionary. -/
theorem entries_arranged (d : Dict α) :
    (arranged d).entries = d.sorted.map fun entry => (entry.1, arranged entry.2) :=
  sorted_map _ d

/-- The entries of an arranged dictionary, in ascending order of the keys, have arranged values. -/
theorem sorted_arranged (d : Dict α) :
    (arranged d).sorted = d.sorted.map fun entry => (entry.1, arranged entry.2) := by
  change (d.map fun _ => arranged).inOrder.sorted = _
  rw [sorted_inOrder, sorted_map]

/-- Without dictionaries in its values, a dictionary has the same entries once it is arranged. -/
@[simp]
theorem sorted_arranged_plain [Plain α] (d : Dict α) : (arranged d).sorted = d.sorted := by
  simp [sorted_arranged]

@[simp]
theorem arranged_eq_empty_iff {d : Dict α} : arranged d = {} ↔ d = {} := by
  rw [← sorted_eq_nil_iff, ← sorted_eq_nil_iff, sorted_arranged, List.map_eq_nil_iff]

/-- Arranging loses no entry, so nothing becomes empty by it. -/
@[simp]
theorem isEmpty_arranged (d : Dict α) : (arranged d).isEmpty = d.isEmpty := by
  rw [Bool.eq_iff_iff, isEmpty_iff, isEmpty_iff, arranged_eq_empty_iff]

/-- Dictionaries are alike exactly if every key leads to alike values in both. -/
theorem alike_iff {a b : Dict α} :
    Alike a b ↔ ∀ key, (a.get? key).map arranged = (b.get? key).map arranged := by
  change (a.map fun _ => arranged).inOrder = (b.map fun _ => arranged).inOrder ↔ _
  rw [inOrder_eq_iff, sorted_eq_iff]
  simp only [get?_map]

/-- Dictionaries with equal look-ups are alike. -/
theorem alike_of_get? {a b : Dict α} (h : ∀ key, a.get? key = b.get? key) : Alike a b :=
  alike_iff.2 fun key => congrArg (Option.map arranged) (h key)

/-- Dictionaries of values without dictionaries are alike exactly if they have the same entries,
in whatever order. -/
theorem alike_iff_perm [Plain α] {a b : Dict α} : Alike a b ↔ a.entries.Perm b.entries := by
  constructor
  · intro h
    have hsorted := congrArg sorted h
    rw [sorted_arranged_plain, sorted_arranged_plain] at hsorted
    exact a.perm_sorted.symm.trans (hsorted ▸ b.perm_sorted)
  · intro h
    have hsorted : a.sorted = b.sorted := sortBy_eq_of_perm h a.distinct
    exact ext_entries (by rw [entries_arranged, entries_arranged, hsorted])

/-- Dictionaries that are filled with alike entries are alike. -/
theorem alike_ofList {as bs : List (String × α)} (h : Alike as bs) :
    Alike (ofList as) (ofList bs) := by
  have hentries : (as.map fun e => (e.1, arranged e.2)) = bs.map fun e => (e.1, arranged e.2) := h
  refine alike_iff.2 fun key => ?_
  rw [← get?_map fun _ => arranged, ← get?_map fun _ => arranged, map_ofList, map_ofList, hentries]

/-- Dictionaries that are filled with entries with different keys in two orders are alike. -/
theorem alike_ofList_of_perm {bs cs : List (String × α)} (hperm : bs.Perm cs)
    (hdistinct : (bs.map Prod.fst).Nodup) : Alike (ofList bs) (ofList cs) :=
  alike_of_get? (get?_ofList_of_perm hperm hdistinct)

/-- Changing values by a function that keeps alike values alike keeps dictionaries alike. -/
theorem alike_map [Arrange β] {f : String → α → β} {a b : Dict α} (h : Alike a b)
    (hf : ∀ key x y, Alike x y → Alike (f key x) (f key y)) : Alike (a.map f) (b.map f) := by
  rw [alike_iff] at h ⊢
  intro key
  rw [get?_map, get?_map]
  have hkey := h key
  cases ha : a.get? key with
  | none =>
      rw [ha] at hkey
      rw [Option.map_eq_none_iff.1 hkey.symm]
  | some x =>
      rw [ha] at hkey
      obtain ⟨y, hb, hxy⟩ := Option.map_eq_some_iff.1 hkey.symm
      rw [hb]
      exact congrArg some (hf key x y hxy.symm)

end Dict

/-! ## The model -/

instance Build.arrange : Arrange Build :=
  ⟨fun b =>
    { b with
      args := arranged b.args
      labels := arranged b.labels
      ulimits := arranged b.ulimits
      extraHosts := arranged b.extraHosts
      additionalContexts := arranged b.additionalContexts }⟩

instance Deploy.arrange : Arrange Deploy :=
  ⟨fun d => { d with labels := arranged d.labels }⟩

instance Logging.arrange : Arrange Logging :=
  ⟨fun l => { l with options := arranged l.options }⟩

instance Endpoint.arrange : Arrange Endpoint :=
  ⟨fun e => { e with driverOpts := arranged e.driverOpts }⟩

instance IpamPool.arrange : Arrange IpamPool :=
  ⟨fun p => { p with auxAddresses := arranged p.auxAddresses }⟩

instance Ipam.arrange : Arrange Ipam :=
  ⟨fun i => { i with config := arranged i.config }⟩

instance Network.arrange : Arrange Network :=
  ⟨fun n =>
    { n with
      driverOpts := arranged n.driverOpts
      ipam := arranged n.ipam
      labels := arranged n.labels }⟩

instance Volume.arrange : Arrange Volume :=
  ⟨fun v => { v with driverOpts := arranged v.driverOpts, labels := arranged v.labels }⟩

instance Service.arrange : Arrange Service :=
  ⟨fun s =>
    { s with
      environment := arranged s.environment
      labels := arranged s.labels
      extraHosts := arranged s.extraHosts
      logging := arranged s.logging
      storageOpt := arranged s.storageOpt
      sysctls := arranged s.sysctls
      ulimits := arranged s.ulimits
      networks := arranged s.networks
      annotations := arranged s.annotations
      build := arranged s.build
      dependsOn := arranged s.dependsOn
      deploy := arranged s.deploy }⟩

instance Project.arrange : Arrange Project :=
  ⟨fun p =>
    { p with
      services := arranged p.services
      networks := arranged p.networks
      volumes := arranged p.volumes }⟩

namespace Project

/-- Projects are alike if their parts are. -/
theorem alike_iff {p q : Project} :
    Alike p q ↔ p.name = q.name ∧ Alike p.services q.services ∧ Alike p.networks q.networks
      ∧ Alike p.volumes q.volumes := by
  change Project.mk .. = Project.mk .. ↔ _
  rw [Project.mk.injEq]
  rfl

/-- Sorting the services loses none of them. -/
theorem perm_sortedServices (p : Project) : p.sortedServices.Perm p.services.values :=
  perm_sortBy _ _

@[simp]
theorem mem_sortedServices {p : Project} {s : Service} :
    s ∈ p.sortedServices ↔ s ∈ p.services.values :=
  mem_sortBy

/-- Sorting the services by their names puts them in the order of their keys. -/
theorem sortedServices_eq {p : Project} (hnames : p.NamesServices) :
    p.sortedServices = p.services.sorted.map Prod.snd :=
  (map_sortBy hnames).symm

/-- Arranging a project changes neither the keys of its services nor their names. -/
theorem namesServices_arranged {p : Project} : (arranged p).NamesServices ↔ p.NamesServices := by
  change (∀ entry ∈ (arranged p.services).entries, entry.2.name = entry.1) ↔ _
  rw [Dict.entries_arranged, List.forall_mem_map]
  simp only [Dict.mem_sorted]
  rfl

/-- In alike projects services are stored under the same names. -/
theorem NamesServices.of_alike {p q : Project} (h : p.NamesServices) (hpq : Alike p q) :
    q.NamesServices := by
  rw [← namesServices_arranged] at h ⊢
  rwa [← hpq]

end Project
end Stackwright
