import Mathlib.Data.List.Forall2
import Stackwright.Builder.ServiceCode
import Stackwright.Proofs.Builder.Calls

/-!
# Slots for calls

The calls of a value stand in slots, one for each field of the value.  A layout lists the
slots of a kind of value: the names that a call in this slot may have, and how the calls of
the field follow from its contents.  Layouts are constants, so that the order of the calls does
not depend on which fields are set.

Main results:

- Definition `InOrder`: calls that follow a layout.
- Theorems `fits_text`, `fits_pairs`, `fits_texts`, `fits_filterMap` and the like: what fits into
  a slot, one for each way to make calls.
-/

namespace Stackwright

/-- The members of all lists with their keys, in the order of the keys. -/
def Dict.members {α : Type} (d : Dict (List α)) : List (String × α) :=
  d.sorted.flatMap fun entry => entry.2.map fun member => (entry.1, member)

namespace Program

/-- The arguments of a call. -/
def Expr.callArgs : Expr → List Expr
  | .packageCall _ _ args => args
  | _ => []

/-- The text that a call has as its first argument. -/
def Expr.firstText? : Expr → Option String
  | .packageCall _ _ (.literal (.string text) :: _) => some text
  | _ => none

/-- How the calls in a slot follow from the contents of a field. -/
inductive SlotRule (σ : Type) where
  /-- A single value makes at most one call. -/
  | once
  /-- Every key makes one call, which takes it as its first argument; the keys ascend. -/
  | keyed (keys : σ → List String)
  /-- Every member makes the call that it makes on its own, if it makes one; the order of the
  members stays. -/
  | each (members : σ → List σ)
  /-- All members are the arguments of one call; without a member there is no call. -/
  | gathered (args : σ → List Expr)

/-- A slot for the calls of one field. -/
structure Slot (σ : Type) where
  /-- The names that a call in this slot may have. -/
  names : List String
  rules : List (SlotRule σ)

namespace Slot

variable {σ : Type}

/-- The slot of a single value. -/
def once (names : List String) : Slot σ :=
  ⟨names, [.once]⟩

/-- The slot of a field with keys. -/
def keyed (names : List String) (keys : σ → List String) : Slot σ :=
  ⟨names, [.keyed keys]⟩

/-- The slot of a list; `alone` is a value with only one member in it. -/
def each {α : Type} (names : List String) (list : σ → List α) (alone : α → σ) : Slot σ :=
  ⟨names, [.each fun value => (list value).map alone]⟩

/-- The slot of a list of texts that make one call. -/
def gathered (names : List String) (texts : σ → List String) : Slot σ :=
  ⟨names, [.gathered fun value => (texts value).map .string]⟩

/-- The slot of a field with keys that have a list each; `alone` is a value with only one
member under one key. -/
def keyedLists {α : Type} (names : List String) (dict : σ → Dict (List α))
    (alone : String × α → σ) : Slot σ :=
  ⟨names,
    [ .keyed fun value => (dict value).members.map (·.1),
      .each fun value => (dict value).members.map alone ]⟩

end Slot

section

variable {σ : Type} (package : Package) (lower : σ → List Expr)

/-- Whether calls follow from the contents of a field as a rule says. -/
def SlotRule.Holds (value : σ) (part : List Expr) : SlotRule σ → Prop
  | .once => part.length ≤ 1
  | .keyed keys =>
      part.map Expr.firstText? = (keys value).map some ∧ (keys value).Pairwise (· ≤ ·)
  | .each members =>
      part = (members value).flatMap lower ∧ ∀ member ∈ members value, (lower member).length ≤ 1
  | .gathered args =>
      ∃ name, part = if (args value).isEmpty then [] else [.packageCall package name (args value)]

/-- Whether calls may stand in a slot. -/
def Slot.Fits (value : σ) (slot : Slot σ) (part : List Expr) : Prop :=
  (∀ call ∈ part, ∃ name ∈ slot.names, ∃ args, call = .packageCall package name args) ∧
    ∀ rule ∈ slot.rules, rule.Holds package lower value part

/-- Whether the calls of all values follow a layout: no name has two slots, and the calls are
those of the slots, one slot after the other. -/
def InOrder (layout : List (Slot σ)) : Prop :=
  (layout.flatMap Slot.names).Nodup ∧
    ∀ value, ∃ parts, List.Forall₂ (Slot.Fits package lower value) layout parts ∧
      lower value = parts.flatten

end

/-! ## What fits into a slot -/

section

variable {σ : Type} {package : Package} {lower : σ → List Expr} {value : σ} {name : String}

/-- The calls of one member at most fit into the slot of a single value. -/
theorem fits_toList {names : List String} {call : Option Expr}
    (h : ∀ e ∈ call, ∃ name ∈ names, ∃ args, e = .packageCall package name args) :
    (Slot.once names).Fits package lower value call.toList := by
  refine ⟨fun e he => h e (Option.mem_toList.1 he), ?_⟩
  simp only [Slot.once, List.mem_singleton, forall_eq, SlotRule.Holds]
  cases call <;> simp

/-- A call that is made if there are arguments fits a slot of one call. -/
theorem fits_optional (args : Option (List Expr)) :
    (Slot.once [name]).Fits package lower value (Calls.optional package name args) :=
  fits_toList (by simp)

/-- A call that is made if a field is present fits a slot of one call. -/
theorem fits_map_toList {α : Type} {field : Option α} {args : α → List Expr} :
    (Slot.once [name]).Fits package lower value
      (field.map fun a => Expr.packageCall package name (args a)).toList := by
  cases field with
  | none => exact fits_optional none
  | some a => exact fits_optional (some (args a))

theorem fits_flag {on : Bool} :
    (Slot.once [name]).Fits package lower value (Calls.flag package name on) :=
  Calls.flag_eq on ▸ fits_optional _

theorem fits_group {args : List Expr} :
    (Slot.once [name]).Fits package lower value (Calls.group package name args) :=
  Calls.group_eq args ▸ fits_optional _

theorem fits_text {text : Option String} :
    (Slot.once [name]).Fits package lower value (Calls.text package name text) :=
  Calls.text_eq text ▸ fits_optional _

theorem fits_int {number : Option Int} :
    (Slot.once [name]).Fits package lower value (Calls.int package name number) :=
  Calls.int_eq number ▸ fits_optional _

theorem fits_uint {number : Option Nat} :
    (Slot.once [name]).Fits package lower value (Calls.uint package name number) :=
  Calls.uint_eq number ▸ fits_optional _

theorem fits_duration {duration : Option Duration} :
    (Slot.once [name]).Fits package lower value (Calls.duration package name duration) :=
  Calls.duration_eq duration ▸ fits_optional _

theorem fits_textMap {values : Dict String} :
    (Slot.once [name]).Fits package lower value (Calls.textMap package name values) :=
  Calls.textMap_eq values ▸ fits_optional _

/-- A call with all texts of a list fits a slot that gathers them. -/
theorem fits_texts {texts : σ → List String} :
    (Slot.gathered [name] texts).Fits package lower value
      (Calls.texts package name (texts value)) := by
  refine ⟨?_, ?_⟩
  · rw [Calls.texts_eq]
    simp [Slot.gathered, Calls.optional]
  · simp only [Slot.gathered, List.mem_singleton, forall_eq]
    exact ⟨name, rfl⟩

/-- The keys of a dictionary ascend. -/
theorem pairwise_keys_le {α : Type} (d : Dict α) : d.keys.Pairwise (· ≤ ·) :=
  List.pairwise_map.2 (d.pairwise_sorted.imp fun h => String.not_lt.1 (String.lt_asymm h))

/-- A call for each entry of a dictionary fits into the slot of a field with keys. -/
theorem fits_entries {α : Type} {names : List String} {dict : σ → Dict α} {call : String × α → Expr}
    (hcall : ∀ entry, ∃ name ∈ names, ∃ args,
      call entry = .packageCall package name (.string entry.1 :: args)) :
    (Slot.keyed names fun value => (dict value).keys).Fits package lower value
      ((dict value).sorted.map call) := by
  refine ⟨?_, ?_⟩
  · simp only [List.mem_map, forall_exists_index, and_imp, forall_apply_eq_imp_iff₂]
    intro entry _
    obtain ⟨name, hname, args, heq⟩ := hcall entry
    exact ⟨name, hname, _, heq⟩
  · have hkey (entry : String × α) : (call entry).firstText? = some entry.1 := by
      obtain ⟨name, -, args, heq⟩ := hcall entry
      rw [heq]
      rfl
    simp only [Slot.keyed, List.mem_singleton, forall_eq, SlotRule.Holds]
    refine ⟨?_, pairwise_keys_le _⟩
    simp [Dict.keys, hkey]

/-- The calls of a dictionary fit a slot with its keys. -/
theorem fits_pairs {dict : σ → Dict String} :
    (Slot.keyed [name] fun value => (dict value).keys).Fits package lower value
      (Calls.pairs package name (dict value)) :=
  fits_entries (by simp)

/-- The calls of a dictionary with values that may be missing fit a slot with its keys. -/
theorem fits_optionalPairs {dict : σ → Dict (Option String)} :
    (Slot.keyed [name] fun value => (dict value).keys).Fits package lower value
      (Calls.optionalPairs package name (dict value)) :=
  fits_entries (by simp)

/-- The calls of resource limits fit a slot with their names. -/
theorem fits_ulimits {dict : σ → Dict Ulimit} :
    (Slot.keyed [name] fun value => (dict value).keys).Fits package lower value
      (Calls.ulimits package name (dict value)) :=
  fits_entries (by simp)

/-- The calls of the members that make one fit into the slot of a list if a value with only one
member makes the call of this member. -/
theorem fits_filterMap {α : Type} {names : List String} {list : σ → List α} {alone : α → σ}
    {call : α → Option Expr} (halone : ∀ a, lower (alone a) = (call a).toList)
    (hcall : ∀ a, ∀ e ∈ call a, ∃ name ∈ names, ∃ args, e = .packageCall package name args) :
    (Slot.each names list alone).Fits package lower value ((list value).filterMap call) := by
  refine ⟨?_, ?_⟩
  · intro e he
    obtain ⟨a, -, ha⟩ := List.mem_filterMap.1 he
    exact hcall a e ha
  · simp only [Slot.each, List.mem_singleton, forall_eq, SlotRule.Holds, List.flatMap_map, halone]
    refine ⟨List.filterMap_eq_flatMap_toList _ _, ?_⟩
    simp only [List.mem_map, forall_exists_index, and_imp, forall_apply_eq_imp_iff₂, halone]
    intro a _
    cases call a <;> simp

/-- The calls of the members fit into the slot of a list if a value with only one member makes
the call of this member. -/
theorem fits_map {α : Type} {names : List String} {list : σ → List α} {alone : α → σ}
    {call : α → Expr} (halone : ∀ a, lower (alone a) = [call a])
    (hcall : ∀ a, ∃ name ∈ names, ∃ args, call a = .packageCall package name args) :
    (Slot.each names list alone).Fits package lower value ((list value).map call) := by
  rw [← List.filterMap_eq_map]
  exact fits_filterMap halone (by simpa using hcall)

/-- The keys of the members of all lists ascend. -/
theorem pairwise_members_le {α : Type} (d : Dict (List α)) :
    (d.members.map (·.1)).Pairwise (· ≤ ·) := by
  rw [Dict.members, List.map_flatMap, List.pairwise_flatMap]
  refine ⟨fun entry _ => ?_, d.pairwise_sorted.imp fun {first second} h => ?_⟩
  · simp [Function.comp_def]
  · intro a ha b hb
    simp only [List.map_map, List.mem_map] at ha hb
    obtain ⟨-, -, rfl⟩ := ha
    obtain ⟨-, -, rfl⟩ := hb
    exact String.not_lt.1 (String.lt_asymm h)

/-- A call for each member of all lists fits into the slot of a field with keys that have lists. -/
theorem fits_members {α : Type} {dict : σ → Dict (List α)} {alone : String × α → σ}
    {args : String × α → List Expr}
    (halone : ∀ member,
      lower (alone member) = [.packageCall package name (.string member.1 :: args member)]) :
    (Slot.keyedLists [name] dict alone).Fits package lower value
      ((dict value).members.map fun member =>
        .packageCall package name (.string member.1 :: args member)) := by
  obtain ⟨hnames, hrules⟩ : (Slot.each [name] (fun value => (dict value).members) alone).Fits package
      lower value ((dict value).members.map fun member =>
        .packageCall package name (.string member.1 :: args member)) :=
    fits_map halone (by simp)
  refine ⟨hnames, ?_⟩
  simp only [Slot.keyedLists, List.mem_cons, List.not_mem_nil, or_false, forall_eq_or_imp,
    forall_eq, SlotRule.Holds]
  refine ⟨⟨?_, pairwise_members_le _⟩, hrules _ List.mem_cons_self⟩
  simp [Function.comp_def, Expr.firstText?, Expr.string]

end

end Program
end Stackwright
