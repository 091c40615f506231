import Mathlib.Data.List.Forall2

/-!
# Outcomes that agree

Two computations that may fail agree if both fail or both give results that are
related.  Which fault is told does not count: a computation that looks at its
parts in another order may meet another fault first.

Main results:

- Theorem `Agree.bind`: steps that agree can be put one after the other.
- Theorem `Agree.mapM`: a step made for each member of two related lists.
- Theorem `Agree.mapM_perm`: a step made for each member of a list in two orders
  fails in both or gives the same results in two orders.
- Theorem `forall₂_of_mapM_eq_ok`: the results of a step that was made for each
  member of a list.
- Theorem `mapM_eq_ok_iff_forall₂`: these are all that such a step can give.
- Theorem `SameOutcome.mapM_replace`: a list in which one member is replaced.
-/

namespace Stackwright

/-! ## Related lists -/

/-- Members that are related in one way are related in another if those of the first list
say so. -/
theorem forall₂_imp_of_mem {α β : Type} {R S : α → β → Prop} {l : List α} {l' : List β}
    (h : List.Forall₂ R l l') (hS : ∀ a ∈ l, ∀ b, R a b → S a b) : List.Forall₂ S l l' := by
  have hmembers := (List.forall₂_and_left l l').2 ⟨hS, h⟩
  exact hmembers.imp fun a b hab => hab.1 b hab.2

/-- A test that agrees on related members agrees on related lists. -/
theorem any_eq_of_forall₂ {α β : Type} {p : α → Bool} {q : β → Bool} {l : List α} {l' : List β}
    (h : List.Forall₂ (fun a b => p a = q b) l l') : l.any p = l'.any q := by
  induction h with
  | nil => rfl
  | cons hhead _ ih => rw [List.any_cons, List.any_cons, hhead, ih]

/-- What holds of everything that a member of a list is related to holds of the members of
a related list. -/
theorem forall_mem_of_forall₂ {α β : Type} {R : α → β → Prop} {Q : β → Prop} {l : List α}
    {l' : List β} (h : List.Forall₂ R l l') (hl : ∀ a ∈ l, ∀ b, R a b → Q b) :
    ∀ b ∈ l', Q b := by
  induction h with
  | nil => simp
  | cons hhead _ ih =>
      obtain ⟨hfirst, hrest⟩ := List.forall_mem_cons.1 hl
      exact List.forall_mem_cons.2 ⟨hfirst _ hhead, ih hrest⟩

/-- What holds of any two members of a list holds of the members they are related to. -/
theorem pairwise_of_forall₂ {α β : Type} {R : α → β → Prop} {S : α → α → Prop}
    {T : β → β → Prop} {l : List α} {l' : List β} (h : List.Forall₂ R l l') (hl : l.Pairwise S)
    (hRST : ∀ a a' b b', R a b → R a' b' → S a a' → T b b') : l'.Pairwise T := by
  induction h with
  | nil => exact .nil
  | cons hhead htail ih =>
      obtain ⟨hfirst, hrest⟩ := List.pairwise_cons.1 hl
      refine List.pairwise_cons.2 ⟨?_, ih hrest⟩
      exact forall_mem_of_forall₂ htail fun a ha b hab => hRST _ _ _ _ hhead hab (hfirst a ha)

/-- Where related members give lists of equal length, these are related for each two members
exactly if they are after they are joined. -/
theorem forall₂_flatMap_iff {α β γ δ : Type} {P : α → β → Prop} {R : γ → δ → Prop} {f : α → List γ}
    {g : β → List δ} (hlen : ∀ a b, P a b → (f a).length = (g b).length) {l : List α}
    {l' : List β} :
    List.Forall₂ (fun a b => P a b ∧ List.Forall₂ R (f a) (g b)) l l' ↔
      List.Forall₂ P l l' ∧ List.Forall₂ R (l.flatMap f) (l'.flatMap g) := by
  constructor
  · intro h
    exact ⟨h.imp fun _ _ hab => hab.1, List.rel_flatMap h fun _ _ hab => hab.2⟩
  · rintro ⟨hP, hR⟩
    induction hP with
    | nil => exact .nil
    | cons hhead _ ih =>
        rw [List.flatMap_cons, List.flatMap_cons] at hR
        -- The lists of the first members are as long as each other, so both are cut there.
        have hfirst := List.forall₂_take_append _ _ _ hR
        have hrest := List.forall₂_drop_append _ _ _ hR
        rw [← hlen _ _ hhead, List.take_left] at hfirst
        rw [← hlen _ _ hhead, List.drop_left] at hrest
        exact .cons ⟨hhead, hfirst⟩ (ih hrest)

/-- Relations that are the same for the members of a list relate it to the same lists. -/
theorem forall₂_congr_of_mem {α β : Type} {P Q : α → β → Prop} {l : List α} {l' : List β}
    (h : ∀ a ∈ l, ∀ b, P a b ↔ Q a b) : List.Forall₂ P l l' ↔ List.Forall₂ Q l l' :=
  ⟨fun hP => forall₂_imp_of_mem hP fun a ha b => (h a ha b).1,
    fun hQ => forall₂_imp_of_mem hQ fun a ha b => (h a ha b).2⟩

/-- Members are related by an equation exactly if their images are the same lists. -/
theorem forall₂_eq_iff {α β γ : Type} {f : α → γ} {g : β → γ} {l : List α} {l' : List β} :
    List.Forall₂ (fun a b => g b = f a) l l' ↔ l'.map g = l.map f := by
  rw [← List.forall₂_eq_eq_eq, List.forall₂_map_left_iff, List.forall₂_map_right_iff]
  exact ⟨List.Forall₂.flip, List.Forall₂.flip⟩

/-! ## Steps that may fail -/

/-- A step after a step that may fail gives a result if both do. -/
theorem bind_eq_ok_iff {ε α β : Type} {x : Except ε α} {f : α → Except ε β} {b : β} :
    (x >>= f) = .ok b ↔ ∃ a, x = .ok a ∧ f a = .ok b := by
  cases x with
  | error e => simp [bind, Except.bind]
  | ok a => simp [bind, Except.bind]

@[simp]
theorem pure_eq_ok_iff {ε α : Type} {a b : α} :
    (pure a : Except ε α) = .ok b ↔ a = b := by
  simp [pure, Except.pure]

/-- A function of what a step gives that may fail. -/
theorem map_eq_ok_iff {ε α β : Type} {x : Except ε α} {f : α → β} {b : β} :
    x.map f = .ok b ↔ ∃ a, x = .ok a ∧ f a = b := by
  cases x with
  | error e => simp [Except.map]
  | ok a => simp [Except.map]

/-- A step with only one fault fails with it exactly if it gives no result. -/
theorem eq_error_iff {ε α : Type} {x : Except ε α} {fault : ε} (h : ∀ e, x = .error e → e = fault)
    (e : ε) : x = .error e ↔ (∀ a, x ≠ .ok a) ∧ e = fault := by
  cases x with
  | error e' =>
      cases h e' rfl
      simp [eq_comm]
  | ok a => simp

/-- A step made for each member of a list gives results if it does so for each. -/
theorem mapM_eq_ok_iff {ε α β : Type} {f : α → Except ε β} {ok : α → Bool} {g : α → β}
    {l : List α} (h : ∀ a ∈ l, ∀ b, f a = .ok b ↔ ok a = true ∧ g a = b) (r : List β) :
    l.mapM f = .ok r ↔ l.all ok = true ∧ l.map g = r := by
  induction l generalizing r with
  | nil => simp
  | cons a l ih =>
      have hrest := ih (fun x hx => h x (List.mem_cons_of_mem a hx))
      simp only [List.mapM_cons, bind_eq_ok_iff, pure_eq_ok_iff, h a List.mem_cons_self, hrest,
        List.all_cons, Bool.and_eq_true, List.map_cons]
      constructor
      · rintro ⟨_, ⟨ha, rfl⟩, _, ⟨hl, rfl⟩, rfl⟩
        exact ⟨⟨ha, hl⟩, rfl⟩
      · rintro ⟨⟨ha, hl⟩, rfl⟩
        exact ⟨_, ⟨ha, rfl⟩, _, ⟨hl, rfl⟩, rfl⟩

/-- A step made for each member of a list that gives a result for each. -/
theorem mapM_eq_ok {ε α β : Type} {f : α → Except ε β} {g : α → β} {l : List α}
    (h : ∀ a ∈ l, f a = .ok (g a)) : l.mapM f = .ok (l.map g) := by
  induction l with
  | nil => rfl
  | cons a l ih =>
      obtain ⟨ha, hl⟩ := List.forall_mem_cons.1 h
      rw [List.mapM_cons, ha, ih hl]
      rfl

/-- The results of a step that was made for each member of a list. -/
theorem forall₂_of_mapM_eq_ok {ε α β : Type} {f : α → Except ε β} {l : List α} {r : List β}
    (h : l.mapM f = .ok r) : List.Forall₂ (fun a b => f a = .ok b) l r := by
  induction l generalizing r with
  | nil =>
      cases h
      exact .nil
  | cons a l ih =>
      simp only [List.mapM_cons, bind_eq_ok_iff, pure_eq_ok_iff] at h
      obtain ⟨b, ha, bs, hl, rfl⟩ := h
      exact .cons ha (ih hl)

/-- A step made for each member of a list gives the results that it gives for each. -/
theorem mapM_eq_ok_iff_forall₂ {ε α β : Type} {f : α → Except ε β} {l : List α} {r : List β} :
    l.mapM f = .ok r ↔ List.Forall₂ (fun a b => f a = .ok b) l r := by
  constructor
  · exact forall₂_of_mapM_eq_ok
  · intro h
    induction h with
    | nil => rfl
    | cons hhead _ ih =>
        rw [List.mapM_cons, hhead, ih]
        rfl

/-- The results of a step that was made for each member of a list, one by one. -/
theorem mem_iff_of_mapM_eq_ok {ε α β : Type} {f : α → Except ε β} {l : List α} {r : List β}
    (h : l.mapM f = .ok r) (b : β) : b ∈ r ↔ ∃ a ∈ l, f a = .ok b := by
  induction l generalizing r with
  | nil =>
      cases h
      simp
  | cons a l ih =>
      simp only [List.mapM_cons, bind_eq_ok_iff, pure_eq_ok_iff] at h
      obtain ⟨first, ha, rest, hl, rfl⟩ := h
      simp [ha, ih hl, eq_comm]

/-- A step that gave a result for a list gave one for each member. -/
theorem exists_ok_of_mapM_eq_ok {ε α β : Type} {f : α → Except ε β} {l : List α} {r : List β}
    (h : l.mapM f = .ok r) {a : α} (ha : a ∈ l) : ∃ b, f a = .ok b := by
  have hrelated : List.Forall₂ (fun b a => f a = .ok b) r l := (forall₂_of_mapM_eq_ok h).flip
  have hall : ∀ a ∈ l, ∃ b, f a = .ok b :=
    forall_mem_of_forall₂ hrelated fun b _ a hab => ⟨b, hab⟩
  exact hall a ha

/-! ## Agreement -/

/-- Both computations fail, or both give results that are related. -/
inductive Agree {ε α β : Type} (R : α → β → Prop) : Except ε α → Except ε β → Prop
  | ok {a : α} {b : β} (related : R a b) : Agree R (.ok a) (.ok b)
  | error (e e' : ε) : Agree R (.error e) (.error e')

namespace Agree

variable {ε α β γ δ : Type}

/-- Computations that agree on one relation agree on a weaker one. -/
theorem mono {R S : α → β → Prop} {x : Except ε α} {y : Except ε β} (h : Agree R x y)
    (hRS : ∀ a b, R a b → S a b) : Agree S x y := by
  cases h with
  | ok related => exact .ok (hRS _ _ related)
  | error e e' => exact .error e e'

/-- Steps that agree can be put one after the other. -/
theorem bind {R : α → β → Prop} {S : γ → δ → Prop} {x : Except ε α} {y : Except ε β}
    {f : α → Except ε γ} {g : β → Except ε δ} (h : Agree R x y)
    (hfg : ∀ a b, R a b → Agree S (f a) (g b)) : Agree S (x >>= f) (y >>= g) := by
  cases h with
  | ok related => exact hfg _ _ related
  | error e e' => exact .error e e'

theorem map {R : α → β → Prop} {S : γ → δ → Prop} {x : Except ε α} {y : Except ε β}
    {f : α → γ} {g : β → δ} (h : Agree R x y) (hfg : ∀ a b, R a b → S (f a) (g b)) :
    Agree S (x.map f) (y.map g) := by
  cases h with
  | ok related => exact .ok (hfg _ _ related)
  | error e e' => exact .error e e'

/-- Agreement goes on from one computation to the next. -/
theorem trans {R : α → β → Prop} {S : β → γ → Prop} {x : Except ε α} {y : Except ε β}
    {z : Except ε γ} (hxy : Agree R x y) (hyz : Agree S y z) :
    Agree (fun a c => ∃ b, R a b ∧ S b c) x z := by
  cases hxy with
  | ok hR =>
      cases hyz with
      | ok hS => exact .ok ⟨_, hR, hS⟩
  | error e e' =>
      cases hyz with
      | error e' e'' => exact .error e e''

/-- A computation gives a result if one that agrees with it does. -/
theorem exists_ok_iff {R : α → β → Prop} {x : Except ε α} {y : Except ε β} (h : Agree R x y) :
    (∃ a, x = .ok a) ↔ ∃ b, y = .ok b := by
  cases h with
  | ok related => exact ⟨fun _ => ⟨_, rfl⟩, fun _ => ⟨_, rfl⟩⟩
  | error e e' => simp

theorem symm {R : α → β → Prop} {x : Except ε α} {y : Except ε β} (h : Agree R x y) :
    Agree (fun b a => R a b) y x := by
  cases h with
  | ok related => exact .ok related
  | error e e' => exact .error e' e

/-- A result of one computation is related to one of the other. -/
theorem exists_ok {R : α → β → Prop} {x : Except ε α} {y : Except ε β} (h : Agree R x y) {a : α}
    (hx : x = .ok a) : ∃ b, y = .ok b ∧ R a b := by
  cases h with
  | ok related =>
      cases hx
      exact ⟨_, rfl, related⟩
  | error e e' => cases hx

/-- Computations agree if each gives a result when the other does, and the results are related. -/
theorem of_ok {R : α → β → Prop} {x : Except ε α} {y : Except ε β}
    (hxy : ∀ a, x = .ok a → ∃ b, y = .ok b ∧ R a b) (hyx : ∀ b, y = .ok b → ∃ a, x = .ok a) :
    Agree R x y := by
  cases x with
  | ok a =>
      obtain ⟨b, rfl, hab⟩ := hxy a rfl
      exact .ok hab
  | error e =>
      cases y with
      | ok b =>
          obtain ⟨a, ha⟩ := hyx b rfl
          cases ha
      | error e' => exact .error e e'

/-- A result may be related with what it is a result of. -/
theorem attach {R : α → β → Prop} {x : Except ε α} {y : Except ε β} (h : Agree R x y) :
    Agree (fun a b => x = .ok a ∧ R a b) x y := by
  cases h with
  | ok related => exact .ok ⟨rfl, related⟩
  | error e e' => exact .error e e'

theorem of_eq {x y : Except ε α} (h : x = y) : Agree Eq x y := by
  subst h
  cases x with
  | ok a => exact .ok rfl
  | error e => exact .error e e

/-- A step made for each member of two lists agrees if it does so for each pair. -/
theorem mapM {R : γ → δ → Prop} {f : α → Except ε γ} {g : β → Except ε δ} {l : List α}
    {l' : List β} (h : List.Forall₂ (fun a b => Agree R (f a) (g b)) l l') :
    Agree (List.Forall₂ R) (l.mapM f) (l'.mapM g) := by
  induction h with
  | nil => exact .ok .nil
  | cons hhead _ ih =>
      rw [List.mapM_cons, List.mapM_cons]
      refine hhead.bind fun a b hab => ?_
      exact ih.bind fun as bs hrest => .ok (.cons hab hrest)

/-- A step made for each member of a list in two orders fails in both or gives the
same results in two orders. -/
theorem mapM_perm {f : α → Except ε β} {l l' : List α} (h : l.Perm l') :
    Agree List.Perm (l.mapM f) (l'.mapM f) := by
  induction h with
  | nil => exact .ok .nil
  | cons a _ ih =>
      rw [List.mapM_cons, List.mapM_cons]
      refine (of_eq (x := f a) rfl).bind fun b c hbc => ?_
      exact ih.bind fun bs cs hrest => .ok (hbc ▸ hrest.cons b)
  | swap a b l =>
      -- Of the two members in front, the one that fails first may be either.
      simp only [List.mapM_cons]
      cases f a with
      | error e => cases f b <;> exact .error _ _
      | ok c =>
          cases f b with
          | error e => exact .error _ _
          | ok d =>
              cases l.mapM f with
              | error e => exact .error _ _
              | ok rest => exact .ok (.swap _ _ _)
  | trans _ _ ih₁ ih₂ => exact (ih₁.trans ih₂).mono fun _ _ ⟨_, h₁, h₂⟩ => h₁.trans h₂

end Agree

/-! ## The same outcome -/

/-- Both computations fail with the same fault, or both give results that are related. -/
inductive SameOutcome {ε α β : Type} (R : α → β → Prop) : Except ε α → Except ε β → Prop
  | ok {a : α} {b : β} (related : R a b) : SameOutcome R (.ok a) (.ok b)
  | error (e : ε) : SameOutcome R (.error e) (.error e)

namespace SameOutcome

variable {ε α β γ δ : Type}

/-- Equal computations have the same outcome. -/
theorem of_eq {R : α → α → Prop} (hrefl : ∀ a, R a a) {x y : Except ε α} (h : x = y) :
    SameOutcome R x y := by
  subst h
  cases x with
  | ok a => exact .ok (hrefl a)
  | error e => exact .error e

/-- Steps with the same outcome can be put one after the other. -/
theorem bind {R : α → β → Prop} {S : γ → δ → Prop} {x : Except ε α} {y : Except ε β}
    {f : α → Except ε γ} {g : β → Except ε δ} (h : SameOutcome R x y)
    (hfg : ∀ a b, R a b → SameOutcome S (f a) (g b)) : SameOutcome S (x >>= f) (y >>= g) := by
  cases h with
  | ok related => exact hfg _ _ related
  | error e => exact .error e

theorem map {R : α → β → Prop} {S : γ → δ → Prop} {x : Except ε α} {y : Except ε β}
    {f : α → γ} {g : β → δ} (h : SameOutcome R x y) (hfg : ∀ a b, R a b → S (f a) (g b)) :
    SameOutcome S (x.map f) (y.map g) := by
  cases h with
  | ok related => exact .ok (hfg _ _ related)
  | error e => exact .error e

/-- A step made for each member of a list has the same outcome if one member is replaced for
which it has. -/
theorem mapM_replace {R : γ → γ → Prop} (hrefl : ∀ c, R c c) {f : α → Except ε γ} {x y : α}
    (h : SameOutcome R (f x) (f y)) (before after : List α) :
    SameOutcome (List.Forall₂ R) ((before ++ x :: after).mapM f) ((before ++ y :: after).mapM f) := by
  have hsame (l : List α) : SameOutcome (List.Forall₂ R) (l.mapM f) (l.mapM f) :=
    .of_eq (fun cs => List.forall₂_same.2 fun c _ => hrefl c) rfl
  induction before with
  | nil =>
      rw [List.nil_append, List.nil_append, List.mapM_cons, List.mapM_cons]
      refine h.bind fun c d hcd => ?_
      exact (hsame after).bind fun _ _ hrest => .ok (.cons hcd hrest)
  | cons a before ih =>
      rw [List.cons_append, List.cons_append, List.mapM_cons, List.mapM_cons]
      refine (of_eq hrefl (x := f a) rfl).bind fun c d hcd => ?_
      exact ih.bind fun _ _ hrest => .ok (.cons hcd hrest)

end SameOutcome
end Stackwright
