import Mathlib.Data.List.Forall2
import Stackwright.Proofs.Program.Formula

/-!
# Regrouping

When the texts of formulas are put together without parentheses, the parts may
group in another way than they were put together.  An operator in front of a
formula goes to its first operand, a selector after it to its last one, and
two formulas with an operator between them are cut at the operators that bind
least.

Which of two operations is more nested to the right is measured by a *strain*: a
call counts its receiver twice, and an inequality its right operand.
Regrouping never adds to the strain, and moving conjunctions does not change it.

Main results:

- Theorems `Formula.conforms_sign`, `Formula.conforms_select` and
  `Formula.Joined.conforms`: regrouped formulas conform to the grammar.
- Theorem `Formula.exists_joined`: any two formulas can be joined.
- Theorem `Formula.Joined.reassociated`: if the operands bind strongly enough, then joining
  moves conjunctions only.
- Theorems `Formula.strain_select_le` and `Formula.Joined.strain_le`: regrouping never adds
  to the strain.
-/

namespace Stackwright
namespace Program

/-! ## Moving conjunctions -/

namespace Expr

/-- Two expressions that differ in how conjunctions are grouped. -/
inductive Reassociated : Expr → Expr → Prop where
  | refl (e : Expr) : Reassociated e e
  | symm {a b : Expr} : Reassociated a b → Reassociated b a
  | trans {a b c : Expr} : Reassociated a b → Reassociated b c → Reassociated a c
  | assoc (a b c : Expr) :
      Reassociated (.binary .and (.binary .and a b) c) (.binary .and a (.binary .and b c))
  | unary (op : UnaryOp) {a a' : Expr} :
      Reassociated a a' → Reassociated (.unary op a) (.unary op a')
  | binary (op : BinaryOp) {a a' b b' : Expr} :
      Reassociated a a' → Reassociated b b' → Reassociated (.binary op a b) (.binary op a' b')
  | receiver {a a' : Expr} (name : String) (args : List Expr) :
      Reassociated a a' → Reassociated (.methodCall a name args) (.methodCall a' name args)
  | argument (receiver : Expr) (name : String) (front : List Expr) {a a' : Expr}
      (back : List Expr) : Reassociated a a' →
        Reassociated (.methodCall receiver name (front ++ a :: back))
          (.methodCall receiver name (front ++ a' :: back))

/-- Conjunctions may be moved in all arguments of a call at once. -/
theorem Reassociated.arguments (receiver : Expr) (name : String) {args args' : List Expr}
    (h : List.Forall₂ Reassociated args args') (front : List Expr) :
    Reassociated (.methodCall receiver name (front ++ args))
      (.methodCall receiver name (front ++ args')) := by
  induction h generalizing front with
  | nil => exact .refl _
  | @cons a a' rest rest' ha _ ih =>
      have hrest := ih (front ++ [a'])
      rw [List.append_assoc, List.append_assoc] at hrest
      exact (argument receiver name front rest ha).trans hrest

/-! ## Strain -/

/-- The number of operators, calls and names of an operation, less those of its arguments. -/
def mass : Expr → Nat
  | .unary _ operand => operand.mass + 1
  | .binary _ left right => left.mass + right.mass + 1
  | .methodCall receiver _ _ => receiver.mass + 1
  | _ => 1

mutual
/-- How much an operation holds together against its operators. -/
def strain : Expr → Nat
  | .unary _ operand => operand.strain
  | .binary .and left right => left.strain + right.strain
  | .binary .notEq left right => left.strain + right.strain + right.mass
  | .methodCall receiver _ args => receiver.strain + 2 * receiver.mass + argStrain args
  | _ => 0

/-- The strain of arguments. -/
def argStrain : List Expr → Nat
  | [] => 0
  | arg :: rest => arg.strain + argStrain rest
end

/-- The strain of arguments is added up. -/
theorem argStrain_append (front back : List Expr) :
    argStrain (front ++ back) = argStrain front + argStrain back := by
  induction front with
  | nil => simp [argStrain]
  | cons arg rest ih => simp [argStrain, ih, Nat.add_assoc]

/-- Grouping operators in another way changes no operator. -/
theorem Reassociated.mass_eq {a b : Expr} (h : Reassociated a b) : a.mass = b.mass := by
  induction h with
  | refl => rfl
  | symm _ ih => exact ih.symm
  | trans _ _ ih ih' => exact ih.trans ih'
  | assoc a b c =>
      simp only [mass]
      omega
  | unary op _ ih => simp only [mass, ih]
  | binary op _ _ ih ih' => simp only [mass, ih, ih']
  | receiver name args _ ih => simp only [mass, ih]
  | argument => simp only [mass]

/-- Moving conjunctions does not change the strain. -/
theorem Reassociated.strain_eq {a b : Expr} (h : Reassociated a b) : a.strain = b.strain := by
  induction h with
  | refl => rfl
  | symm _ ih => exact ih.symm
  | trans _ _ ih ih' => exact ih.trans ih'
  | assoc a b c =>
      simp only [strain]
      omega
  | unary op _ ih => simp only [strain, ih]
  | binary op _ hb ih ih' => cases op <;> simp only [strain, ih, ih', hb.mass_eq]
  | receiver name args ha ih => simp only [strain, ih, ha.mass_eq]
  | argument receiver name front back _ ih => simp only [strain, argStrain_append, argStrain, ih]

end Expr

namespace Formula

/-! ## Parentheses, signs and selectors -/

/-- Puts parentheses around a formula if asked to. -/
def enclose (needed : Bool) (m : Formula) : Formula :=
  if needed then .paren m else m

/-- Parentheses conform to the grammar around anything that does. -/
theorem Conforms.enclose {m : Formula} (h : m.Conforms) (needed : Bool) :
    (m.enclose needed).Conforms := by
  cases needed with
  | false => exact h
  | true => exact h.paren

/-- Parentheses change no expression. -/
@[simp]
theorem expr_enclose (needed : Bool) (m : Formula) : (m.enclose needed).expr = m.expr := by
  cases needed with
  | false => rfl
  | true => simp [enclose, expr]

/-- What an operator in front of the text of a formula makes of it. -/
def sign (op : UnaryOp) : Formula → Formula
  | .binary other left right => .binary other (sign op left) right
  | m => .unary op m

/-- A sign is put in front of all tokens. -/
theorem tokens_sign (op : UnaryOp) (m : Formula) :
    (m.sign op).tokens = .unary op :: m.tokens := by
  fun_induction sign op m with
  | case1 other left right ih => simp [tokens, ih]
  | case2 m => simp [tokens]

/-- Behind a sign nothing binds more strongly than the sign. -/
theorem binding_sign (op : UnaryOp) (m : Formula) : (m.sign op).binding = min 6 m.binding := by
  fun_cases sign op m with
  | case1 other left right =>
      have := other.rank_lt
      simp only [binding]
      omega
  | case2 m hbinary => cases m <;> simp_all [binding]

/-- A sign conforms to the grammar in front of anything that does. -/
theorem conforms_sign (op : UnaryOp) {m : Formula} (h : m.Conforms) : (m.sign op).Conforms := by
  fun_induction sign op m with
  | case1 other left right ih =>
      cases h with
      | binary _ hleft hright hl hr =>
          have := other.rank_lt
          refine .binary other ?_ hright (ih hl) hr
          rw [binding_sign]
          omega
  | case2 m hbinary =>
      refine .unary op ?_ h
      cases m <;> simp_all [binding]

/-- Before a formula that binds strongly enough, an operator takes all of it. -/
theorem sign_eq {m : Formula} (h : 6 ≤ m.binding) (op : UnaryOp) : m.sign op = .unary op m := by
  cases m with
  | binary other left right => exact absurd h (by have := other.rank_lt; simp [binding]; omega)
  | _ => rfl

/-- A sign is one operator more. -/
theorem mass_sign (op : UnaryOp) (m : Formula) : (m.sign op).expr.mass = m.expr.mass + 1 := by
  fun_induction sign op m with
  | case1 other left right ih =>
      simp only [expr, Expr.mass, ih]
      omega
  | case2 m => simp only [expr, Expr.mass]

/-- A sign puts no strain on an expression. -/
theorem strain_sign (op : UnaryOp) (m : Formula) : (m.sign op).expr.strain = m.expr.strain := by
  fun_induction sign op m with
  | case1 other left right ih => cases other <;> simp only [expr, Expr.strain, ih]
  | case2 m => simp only [expr, Expr.strain]

/-- What a selector with its arguments after the text of a formula makes of it. -/
def select (method : String) (args : List Formula) (trailing : Bool) : Formula → Formula
  | .unary op operand => .unary op (select method args trailing operand)
  | .binary op left right => .binary op left (select method args trailing right)
  | m => .call m method args trailing

section Select

variable (method : String) {args : List Formula} {trailing : Bool}

/-- A call of a method is put behind all tokens. -/
theorem tokens_select (args : List Formula) (trailing : Bool) (m : Formula) :
    (m.select method args trailing).tokens
      = m.tokens ++ .dot :: .name method :: .opening :: argTokens trailing args ++ [.closing] := by
  fun_induction select method args trailing m with
  | case1 op operand ih => simp [tokens, ih]
  | case2 op left right ih => simp [tokens, ih]
  | case3 m => simp [tokens]

theorem binding_select (args : List Formula) (trailing : Bool) (m : Formula) :
    (m.select method args trailing).binding = m.binding := by
  cases m <;> rfl

/-- A call of a method conforms to the grammar behind anything that does. -/
theorem conforms_select (hargs : ∀ arg ∈ args, arg.Conforms)
    (htrailing : trailing = true → args ≠ []) {m : Formula} (h : m.Conforms) :
    (m.select method args trailing).Conforms := by
  fun_induction select method args trailing m with
  | case1 op operand ih =>
      cases h with
      | unary _ hbinding hoperand =>
          exact .unary op (by rwa [binding_select]) (ih hoperand)
  | case2 op left right ih =>
      cases h with
      | binary _ hleft hright hl hr =>
          exact .binary op hleft (by rwa [binding_select]) hl (ih hr)
  | case3 m hunary hbinary =>
      refine .call method ?_ h htrailing hargs
      cases m <;> simp_all [binding]

/-- After a formula that binds most strongly, a selector takes all of it. -/
theorem select_eq {m : Formula} (h : m.binding = 7) :
    m.select method args trailing = .call m method args trailing := by
  cases m with
  | unary op operand => cases h
  | binary op left right => exact absurd h (by have := op.rank_lt; simp [binding]; omega)
  | _ => rfl

theorem mass_select (m : Formula) :
    (m.select method args trailing).expr.mass = m.expr.mass + 1 := by
  fun_induction select method args trailing m with
  | case1 op operand ih => simp only [expr, Expr.mass, ih]
  | case2 op left right ih =>
      simp only [expr, Expr.mass, ih]
      omega
  | case3 m => simp only [expr, Expr.mass]

/-- A selector never adds more to the strain than a call does, and it adds less if it does not
take the whole formula. -/
theorem strain_select_le (args : List Formula) (trailing : Bool) (m : Formula) :
    (m.select method args trailing).expr.strain
        ≤ m.expr.strain + 2 * m.expr.mass + Expr.argStrain (argExprs args) ∧
      (m.binding < 7 → (m.select method args trailing).expr.strain
        < m.expr.strain + 2 * m.expr.mass + Expr.argStrain (argExprs args)) := by
  fun_induction select method args trailing m with
  | case1 op operand ih =>
      simp only [expr, Expr.strain, Expr.mass]
      omega
  | case2 op left right ih =>
      cases op <;> simp only [expr, Expr.strain, Expr.mass, mass_select] <;> omega
  | case3 m hunary hbinary =>
      have hbinding : m.binding = 7 := by cases m <;> simp_all [binding]
      simp only [expr, Expr.strain]
      omega

end Select

/-! ## Joining -/

/-- What an operator between the texts of two formulas makes of them: it takes both if they bind
strongly enough, and otherwise its side of the operator that binds least. -/
inductive Joined (op : BinaryOp) : Formula → Formula → Formula → Prop where
  | whole {left right : Formula} : op.rank ≤ left.binding → op.rank < right.binding →
      Joined op left right (.binary op left right)
  | right (other : BinaryOp) {left a b m : Formula} :
      other.rank ≤ op.rank → other.rank ≤ left.binding → Joined op left a m →
        Joined op left (.binary other a b) (.binary other m b)
  | left (other : BinaryOp) {a b right m : Formula} :
      other.rank < op.rank → other.rank < right.binding → Joined op b right m →
        Joined op (.binary other a b) right (.binary other a m)

section Exists

variable {op : BinaryOp} {left right : Formula}

/-- If the formulas that bind strongly enough can be joined with a formula, then so can all
others: they are cut until they do. -/
theorem exists_joined_of_le {rank : Nat} (hrank : rank ≤ op.rank) (hright : rank ≤ right.binding)
    (h : ∀ left, left.Conforms → rank ≤ left.binding → ∃ m, Joined op left right m)
    (hleft : left.Conforms) : ∃ m, Joined op left right m := by
  have hop := op.rank_lt
  have hstrong : ∀ m : Formula, 6 ≤ m.binding → m.Conforms → ∃ joined, Joined op m right joined :=
    fun m hm hconforms => h m hconforms (by omega)
  induction hleft with
  | @binary other a b hab hba ha hb _ ih =>
      by_cases hother : rank ≤ other.rank
      · exact h _ (.binary other hab hba ha hb) hother
      · obtain ⟨m, hm⟩ := ih
        exact ⟨_, .left other (by omega) (by omega) hm⟩
  | name word => exact hstrong _ (Nat.le_succ 6) (.name word)
  | paren hinner _ => exact hstrong _ (Nat.le_succ 6) (.paren hinner)
  | unary op hbinding hoperand _ =>
      exact hstrong _ (Nat.le_refl 6) (.unary op hbinding hoperand)
  | call method hbinding hreceiver htrailing hargs _ _ =>
      exact hstrong _ (Nat.le_succ 6) (.call method hbinding hreceiver htrailing hargs)

/-- Any two formulas can be joined. -/
theorem exists_joined (op : BinaryOp) (hleft : left.Conforms) (hright : right.Conforms) :
    ∃ m, Joined op left right m := by
  have hop := op.rank_lt
  -- An operator of the right formula that binds less is cut first, so the induction is on it.
  have hwhole : ∀ {left right : Formula}, op.rank < right.binding → left.Conforms →
      ∃ m, Joined op left right m := fun hlt hleft =>
    exists_joined_of_le (Nat.le_refl _) (Nat.le_of_lt hlt) (fun l _ hl => ⟨_, .whole hl hlt⟩) hleft
  induction hright generalizing left with
  | @binary other a b hab hba ha hb ih _ =>
      by_cases hlt : op.rank < other.rank
      · exact hwhole hlt hleft
      · refine exists_joined_of_le (Nat.le_of_not_lt hlt) (Nat.le_refl _) (fun l hl hle => ?_) hleft
        obtain ⟨m, hm⟩ := ih hl
        exact ⟨_, .right other (Nat.le_of_not_lt hlt) hle hm⟩
  | unary => exact hwhole hop hleft
  | name => exact hwhole (Nat.lt_succ_of_lt hop) hleft
  | paren => exact hwhole (Nat.lt_succ_of_lt hop) hleft
  | call => exact hwhole (Nat.lt_succ_of_lt hop) hleft

end Exists

namespace Joined

variable {op : BinaryOp} {left right m : Formula}

/-- The tokens of joined formulas are those of both with the operator between them. -/
theorem tokens_eq (h : Joined op left right m) :
    m.tokens = left.tokens ++ .binary op :: right.tokens := by
  induction h with
  | whole => rw [tokens]
  | right other _ _ _ ih => simp [tokens, ih]
  | left other _ _ _ ih => simp [tokens, ih]

/-- Joined formulas bind no more strongly than their operator. -/
theorem binding_le (h : Joined op left right m) : m.binding ≤ op.rank := by
  cases h with
  | whole => exact Nat.le_refl _
  | right other hother => exact hother
  | left other hother => exact Nat.le_of_lt hother

/-- A joined formula binds as strongly as the weaker one of the two and the operator. -/
theorem le_binding (h : Joined op left right m) {rank : Nat} (hop : rank ≤ op.rank)
    (hleft : rank ≤ left.binding) (hright : rank ≤ right.binding) : rank ≤ m.binding := by
  cases h with
  | whole => exact hop
  | right other => exact hright
  | left other => exact hleft

/-- Joined formulas conform to the grammar if both do. -/
theorem conforms (h : Joined op left right m) (hleft : left.Conforms) (hright : right.Conforms) :
    m.Conforms := by
  induction h with
  | whole hl hr => exact .binary op hl hr hleft hright
  | right other hother hle hm ih =>
      cases hright with
      | binary _ ha hb hca hcb =>
          exact .binary other (hm.le_binding hother hle ha) hb (ih hleft hca) hcb
  | left other hother hlt hm ih =>
      cases hleft with
      | binary _ ha hb hca hcb =>
          exact .binary other ha (hm.le_binding hother hb hlt) hca (ih hcb hright)

/-- Joining is one operator more. -/
theorem mass_eq (h : Joined op left right m) :
    m.expr.mass = left.expr.mass + right.expr.mass + 1 := by
  induction h with
  | whole => simp only [expr, Expr.mass]
  | right other _ _ _ ih =>
      simp only [expr, Expr.mass, ih]
      omega
  | left other _ _ _ ih =>
      simp only [expr, Expr.mass, ih]
      omega

/-- Joining never adds more to the strain than the operator does. -/
theorem strain_le (h : Joined op left right m) :
    m.expr.strain ≤ (Expr.binary op left.expr right.expr).strain := by
  induction h with
  | whole => exact Nat.le_refl _
  | right other hother _ _ ih =>
      cases op <;> cases other <;> simp only [expr, Expr.strain, Expr.mass] at ih ⊢ <;> omega
  | left other hother _ hm ih =>
      -- A conjunction on the left of an inequality is the only case.
      cases op with
      | and => exact absurd hother (by cases other <;> decide)
      | notEq =>
          cases other with
          | notEq => exact absurd hother (by decide)
          | and =>
              simp only [expr, Expr.strain] at ih ⊢
              omega

/-- An inequality on the right of an inequality comes apart, which takes away from the strain. -/
theorem strain_lt (h : Joined .notEq left right m)
    (hright : right.binding ≤ BinaryOp.notEq.rank) :
    m.expr.strain < (Expr.binary .notEq left.expr right.expr).strain := by
  induction h with
  | whole _ hlt => exact absurd hlt (Nat.not_lt.2 hright)
  | right other _ _ hm =>
      have hle := hm.strain_le
      cases other <;> simp only [expr, Expr.strain, Expr.mass] at hle ⊢ <;> omega
  | left other hother _ _ ih =>
      have hlt := ih hright
      cases other with
      | and =>
          simp only [expr, Expr.strain] at hlt ⊢
          omega
      | notEq => exact absurd hother (Nat.lt_irrefl _)

/-- If both operands bind strongly enough, then joining moves conjunctions only. -/
theorem reassociated (h : Joined op left right m) (hconforms : right.Conforms)
    (hleft : op.rank ≤ left.binding) (hright : op.rank ≤ right.binding)
    (hstrict : op = .notEq → op.rank < right.binding) :
    Expr.Reassociated m.expr (.binary op left.expr right.expr) := by
  induction h with
  | whole =>
      rw [expr]
      exact .refl _
  | @right other left a b m hother _ _ ih =>
      -- Only a conjunction on the right of a conjunction binds as strongly as the operator.
      cases op with
      | notEq => exact absurd hother (Nat.not_le.2 (hstrict rfl))
      | and =>
          cases other with
          | notEq => exact absurd hother (by decide)
          | and =>
              cases hconforms with
              | binary _ ha _ hca _ =>
                  have hm := ih hca hleft ha (by rintro ⟨⟩)
                  rw [expr, expr]
                  exact (hm.binary .and (.refl b.expr)).trans (.assoc _ _ _)
  | left other hother => exact absurd hleft (Nat.not_le.2 hother)

end Joined
end Formula
end Program
end Stackwright
