import Stackwright.Proofs.Program.Blanking
import Stackwright.Proofs.Program.Regrouping

/-!
# Reading printed operations back

The printer writes parentheses around an operand that binds more weakly than the
operator beside it.  It does so on both sides alike, and never around the receiver
of a call.  The text of an operation always spells a formula, and only one; this
module says when the formula stands for the operation that was printed, up to the
grouping of conjunctions.

Main results:

- Theorem `Lexes.lex_layoutArgs`: the tokens of an argument list, whether or not its
  arguments have a line each.
- Theorem `Expr.Operation.exists_readsAs`: the formula that the text of an operation
  spells, with what it keeps of the operation.
- Theorem `Expr.print_reassociated_iff`: a printed operation reads back exactly if
  no inequality is the right operand of an inequality and no operation with operators
  is the receiver of a call.
-/

namespace Stackwright
namespace Program

/-! ## The tokens of a text -/

section Lex

variable (ended : Bool) (rest : List Char)

theorem lex_opening : lex [] ended ('(' :: rest) = (lex [] false rest).map (.opening :: ·) :=
  rfl

theorem lex_closing : lex [] ended (')' :: rest) = (lex [] true rest).map (.closing :: ·) :=
  rfl

theorem lex_comma : lex [] ended (',' :: rest) = (lex [] false rest).map (.comma :: ·) :=
  rfl

theorem lex_dot : lex [] ended ('.' :: rest) = (lex [] false rest).map (.dot :: ·) :=
  rfl

theorem lex_space : lex [] ended (' ' :: rest) = lex [] ended rest := by
  simp [lex, endWord, isIdentChar]

theorem lex_and :
    lex [] ended ('&' :: '&' :: rest) = (lex [] false rest).map (.binary .and :: ·) :=
  rfl

theorem lex_notEq :
    lex [] ended ('!' :: '=' :: rest) = (lex [] false rest).map (.binary .notEq :: ·) :=
  rfl

/-- An operator with two operands is one token, and a value may start behind it. -/
theorem lex_binary (op : BinaryOp) :
    lex [] ended (op.symbol ++ rest) = (lex [] false rest).map (.binary op :: ·) := by
  cases op <;> simp [BinaryOp.symbol, lex_space, lex_and, lex_notEq]

/-- A negation is no inequality unless an equals sign comes next. -/
theorem lex_unary (op : UnaryOp) (h : ∃ c ∈ rest.head?, c ≠ '=') :
    lex [] ended (op.symbol ++ rest) = (lex [] false rest).map (.unary op :: ·) := by
  cases op with
  | receive => rfl
  | not =>
      cases rest with
      | nil => rfl
      | cons c rest =>
          have hc : c ≠ '=' := by simpa [eq_comm] using h
          simp [UnaryOp.symbol, lex, endWord, isIdentChar, hc]

/-- A line end after a token that cannot end a statement is nothing but a blank. -/
theorem lex_newline (indent : Nat) : lex [] false (newline indent ++ rest) = lex [] false rest := by
  have htabs : lex [] false (List.replicate indent '\t' ++ rest) = lex [] false rest := by
    induction indent with
    | zero => rfl
    | succ n ih => exact ih
  exact htabs

/-- The characters of a word are collected. -/
theorem lex_word {word : List Char} (h : word.all isIdentChar = true) (done : List Char) :
    lex done ended (word ++ rest) = lex (done ++ word) ended rest := by
  induction word generalizing done with
  | nil => simp
  | cons c word ih =>
      rw [List.all_cons, Bool.and_eq_true] at h
      rw [List.cons_append, lex, if_pos h.1, ih h.2, List.append_assoc, List.singleton_append]

/-- A word ends where no letter or digit comes next, and a name can end a statement. -/
theorem lex_wordEnd {name : String} (h : isName name = true)
    (hrest : ∀ c ∈ rest.head?, isIdentChar c = false) :
    lex name.toList ended rest = (lex [] true rest).map (.name name :: ·) := by
  have hne : name.toList.isEmpty = false := by
    obtain ⟨c, word, htext, -⟩ := exists_cons_of_isName h
    rw [htext]
    rfl
  have hword : ∀ tokens, endWord name.toList tokens = tokens.map (.name name :: ·) := by
    intro tokens
    simp [endWord, hne, h]
  cases rest with
  | nil => exact hword (some [])
  | cons c rest =>
      have hc : isIdentChar c = false := hrest c rfl
      rw [lex, lex, if_neg (by simp [hc]), if_neg (by simp [hc])]
      simp only [hne, hword, Bool.not_false, Bool.or_true, Bool.true_or]
      rfl

end Lex

/-- A text has the given tokens, at the start of a word and whatever comes after it; the last of
them can end a statement. -/
structure Lexes (text : List Char) (tokens : List Token) : Prop where
  head : ∃ c ∈ text.head?, c ≠ '='
  lex_eq : ∀ ended rest, (∀ c ∈ rest.head?, isIdentChar c = false) →
    lex [] ended (text ++ rest) = (lex [] true rest).map (tokens ++ ·)

namespace Lexes

variable {text : List Char} {tokens : List Token}

/-- A text that is cut into tokens does not start with an equals sign, which would join a token in
front. -/
theorem head_append (h : Lexes text tokens) (rest : List Char) :
    ∃ c ∈ (text ++ rest).head?, c ≠ '=' := by
  obtain ⟨c, hc, hne⟩ := h.head
  exact ⟨c, by rw [List.head?_append, hc]; rfl, hne⟩

/-- A name is one token. -/
theorem name {name : String} (h : isName name = true) : Lexes name.toList [.name name] where
  head := by
    obtain ⟨c, word, htext, hstart⟩ := exists_cons_of_isName h
    refine ⟨c, by rw [htext]; rfl, ?_⟩
    rintro rfl
    exact absurd hstart (by decide)
  lex_eq ended rest hrest := by
    have hword : name.toList.all isIdentChar = true :=
      List.all_eq_true.2 fun c hc => isIdentChar_of_mem (isIdentifier_of_isName h) hc
    rw [lex_word ended rest hword, List.nil_append, lex_wordEnd ended rest h hrest]
    rfl

/-- Parentheses around a text are two tokens more. -/
theorem parentheses (h : Lexes text tokens) :
    Lexes ('(' :: text ++ [')']) (.opening :: tokens ++ [.closing]) where
  head := ⟨'(', rfl, by decide⟩
  lex_eq ended rest _ := by
    have hinner := h.lex_eq false (')' :: rest) (by rintro c ⟨⟩; rfl)
    rw [List.cons_append, List.cons_append, List.append_assoc, lex_opening, List.singleton_append,
      hinner, lex_closing]
    simp [Function.comp_def]

/-- An operator in front of a text is one token more. -/
theorem unary (h : Lexes text tokens) (op : UnaryOp) :
    Lexes (op.symbol ++ text) (.unary op :: tokens) where
  head := by
    cases op with
    | not => exact ⟨'!', rfl, by decide⟩
    | receive => exact ⟨'<', rfl, by decide⟩
  lex_eq ended rest hrest := by
    rw [List.append_assoc, lex_unary ended _ op (h.head_append rest), h.lex_eq false rest hrest]
    simp [Function.comp_def]

/-- Two texts with an operator between them are cut into the tokens of all three. -/
theorem binary {left right : List Char} {ltokens rtokens : List Token} (hleft : Lexes left ltokens)
    (hright : Lexes right rtokens) (op : BinaryOp) :
    Lexes (left ++ op.symbol ++ right) (ltokens ++ .binary op :: rtokens) where
  head := by
    rw [List.append_assoc]
    exact hleft.head_append _
  lex_eq ended rest hrest := by
    have hsymbol : ∀ c ∈ (op.symbol ++ (right ++ rest)).head?, isIdentChar c = false := by
      cases op <;> rintro c ⟨⟩ <;> rfl
    rw [List.append_assoc, List.append_assoc, hleft.lex_eq ended _ hsymbol, lex_binary,
      hright.lex_eq false rest hrest]
    simp [Function.comp_def]

section Args

variable {texts : List (List Char)} {ms : List Formula}
  (h : List.Forall₂ (fun text m => Lexes text (Formula.tokens m)) texts ms)
include h

/-- Arguments on one line, up to the parenthesis after them. -/
theorem lex_commaSeparated (rest : List Char) :
    lex [] false (commaSeparated texts ++ ')' :: rest)
      = (lex [] true rest).map (Formula.argTokens false ms ++ .closing :: ·) := by
  induction h with
  | nil => rfl
  | @cons text m texts ms htext htexts ih =>
      cases htexts with
      | nil =>
          have hlast := htext.lex_eq false (')' :: rest) (by rintro c ⟨⟩; rfl)
          rw [lex_closing] at hlast
          simpa [commaSeparated, Formula.argTokens, Function.comp_def] using hlast
      | @cons next n texts ms hnext htexts =>
          have hcomma := htext.lex_eq false (',' :: ' ' :: (commaSeparated (next :: texts)
            ++ ')' :: rest)) (by rintro c ⟨⟩; rfl)
          rw [lex_comma, lex_space, ih] at hcomma
          have hsplit : commaSeparated (text :: next :: texts) ++ ')' :: rest
              = text ++ ',' :: ' ' :: (commaSeparated (next :: texts) ++ ')' :: rest) := by
            simp [commaSeparated]
          rw [hsplit, hcomma, Formula.argTokens.eq_3 false m (n :: ms) (by simp)]
          simp [Function.comp_def]

/-- Arguments with a line each, up to the parenthesis after them. -/
theorem lex_lines (hne : ms ≠ []) (inner outer : Nat) (rest : List Char) :
    lex [] false (texts.flatMap (fun text => newline inner ++ text ++ [','])
        ++ (newline outer ++ ')' :: rest))
      = (lex [] true rest).map (Formula.argTokens true ms ++ .closing :: ·) := by
  induction h with
  | nil => exact absurd rfl hne
  | @cons text m texts ms htext htexts ih =>
      rw [List.flatMap_cons, List.append_assoc, List.append_assoc, List.append_assoc, lex_newline,
        htext.lex_eq false _ (by rintro c ⟨⟩; rfl), List.singleton_append, lex_comma]
      cases htexts with
      | nil =>
          rw [List.flatMap_nil, List.nil_append, lex_newline, lex_closing]
          simp [Formula.argTokens, Function.comp_def]
      | @cons next n texts ms hnext htexts =>
          rw [ih (List.cons_ne_nil _ _), Formula.argTokens.eq_3 true m (n :: ms) (by simp)]
          simp [Function.comp_def]

/-- The tokens of an argument list, whether or not its arguments have a line each. -/
theorem lex_layoutArgs {broken : Bool} (hbroken : broken = true → ms ≠ []) (indent : Nat)
    (rest : List Char) :
    lex [] true (Program.layoutArgs indent broken texts ++ rest)
      = (lex [] true rest).map (.opening :: Formula.argTokens broken ms ++ .closing :: ·) := by
  cases broken with
  | false =>
      have hargs := lex_commaSeparated h rest
      simp [Program.layoutArgs, lex_opening, hargs, Function.comp_def]
  | true =>
      have hargs := lex_lines h (hbroken rfl) (indent + 1) indent rest
      simp only [Program.layoutArgs, if_true, List.cons_append, List.append_assoc, List.nil_append,
        lex_opening] at hargs ⊢
      rw [hargs]
      simp [Function.comp_def]

/-- The call of a method, on the line of its receiver or on the next one. -/
theorem select {text gap : List Char} {tokens : List Token} (htext : Lexes text tokens)
    (hgap : ∀ rest, lex [] false (gap ++ rest) = lex [] false rest) {name : String}
    (hname : isName name = true) {broken : Bool} (hbroken : broken = true → ms ≠ [])
    (indent : Nat) :
    Lexes (text ++ '.' :: gap ++ name.toList ++ Program.layoutArgs indent broken texts)
      (tokens ++ .dot :: .name name :: .opening :: Formula.argTokens broken ms ++ [.closing]) where
  head := by
    rw [List.append_assoc, List.append_assoc]
    exact htext.head_append _
  lex_eq ended rest hrest := by
    have hargs : ∀ c ∈ (Program.layoutArgs indent broken texts ++ rest).head?,
        isIdentChar c = false := by
      cases broken <;> rintro c ⟨⟩ <;> rfl
    simp only [List.append_assoc, List.cons_append]
    rw [htext.lex_eq ended _ (by rintro c ⟨⟩; rfl), lex_dot, hgap,
      (Lexes.name hname).lex_eq false _ hargs, lex_layoutArgs h hbroken]
    simp [Function.comp_def]

end Args

end Lexes

/-! ## Operations -/

namespace Expr

/-- The operations on names: operators with one operand or two, and calls of methods. -/
inductive Operation : Expr → Prop where
  | ident {name : String} : isName name = true → Operation (.ident name)
  | unary (op : UnaryOp) {operand : Expr} : Operation operand → Operation (.unary op operand)
  | binary (op : BinaryOp) {left right : Expr} :
      Operation left → Operation right → Operation (.binary op left right)
  | methodCall {receiver : Expr} {name : String} {args : List Expr} :
      Operation receiver → isName name = true → (∀ arg ∈ args, Operation arg) →
        Operation (.methodCall receiver name args)

/-- How strongly the parts of an operation are held together. -/
def binding : Expr → Nat
  | .binary op _ _ => op.rank
  | .unary _ _ => 6
  | _ => 7

/-- Nothing binds more strongly than a name. -/
theorem binding_le_seven (e : Expr) : e.binding ≤ 7 := by
  cases e with
  | binary op left right => exact Nat.le_trans (Nat.le_of_lt op.rank_lt) (by decide)
  | unary op operand => exact Nat.le_succ 6
  | _ => exact Nat.le_refl _

/-- The operations whose text has all the parentheses that they need: the right operand of an
inequality is no inequality, and the receiver of a call is a name or a call. -/
inductive Legible : Expr → Prop where
  | ident (name : String) : Legible (.ident name)
  | unary (op : UnaryOp) {operand : Expr} : Legible operand → Legible (.unary op operand)
  | and {left right : Expr} : Legible left → Legible right → Legible (.binary .and left right)
  | notEq {left right : Expr} : Legible left → Legible right →
      right.binding ≠ BinaryOp.notEq.rank → Legible (.binary .notEq left right)
  | methodCall {receiver : Expr} (name : String) {args : List Expr} : Legible receiver →
      receiver.binding = 7 → (∀ arg ∈ args, Legible arg) →
        Legible (.methodCall receiver name args)

/-- The operands of a legible expression are legible, and no comparison stands to the right of
another. -/
theorem Legible.operands {op : BinaryOp} {left right : Expr} (h : Legible (.binary op left right)) :
    left.Legible ∧ right.Legible ∧ (op = .notEq → right.binding ≠ op.rank) := by
  cases h with
  | and hleft hright => exact ⟨hleft, hright, by rintro ⟨⟩⟩
  | notEq hleft hright hne => exact ⟨hleft, hright, fun _ => hne⟩

/-- The expressions with an operator between operands are those that bind least. -/
theorem isBinary_eq (e : Expr) : e.isBinary = decide (e.binding < 6) := by
  cases e with
  | binary op left right => exact (decide_eq_true op.rank_lt).symm
  | _ => rfl

/-- An operand is put into parentheses if it binds less than the operator. -/
theorem bindsBelow_eq (op : BinaryOp) (e : Expr) :
    e.bindsBelow op.precedence = decide (e.binding < op.rank) := by
  cases e with
  | binary other left right => cases op <;> cases other <;> rfl
  | _ => cases op <;> rfl

/-- No operation is a group. -/
theorem Operation.splice_eq {args : List Expr} (h : ∀ arg ∈ args, Operation arg) :
    splice args = args := by
  induction args with
  | nil => rfl
  | cons arg rest ih =>
      obtain ⟨harg, hrest⟩ := List.forall_mem_cons.1 h
      rw [splice_cons (by rintro items rfl; cases harg), ih hrest]

/-- Every operation can be printed. -/
theorem Operation.wellFormed {e : Expr} (h : Operation e) : e.wellFormed = true := by
  induction h with
  | ident h => exact isIdentifier_of_isName h
  | unary op _ ih => exact ih
  | binary op _ _ ih ih' => simp [Expr.wellFormed, ih, ih']
  | methodCall _ h hargs ih ihargs =>
      simpa [Expr.wellFormed, argsWellFormed_eq, splice_eq hargs, ih, isIdentifier_of_isName h]
        using ihargs

/-! ## What the text of an operation reads as -/

/-- The formula that the text of an operation spells, with what it keeps of the operation. -/
structure ReadsAs (e : Expr) (m : Formula) : Prop where
  lexes : ∀ indent depth, Lexes (e.layout .source indent depth) m.tokens
  conforms : m.Conforms
  binding_le : m.binding ≤ e.binding
  mass_eq : m.expr.mass = e.mass
  strain_le : m.expr.strain ≤ e.strain
  legible : e.strain ≤ m.expr.strain → e.Legible
  binding_eq : e.Legible → m.binding = e.binding
  reassociated : e.Legible → Reassociated m.expr e

namespace ReadsAs

/-- A name reads as itself. -/
theorem ident {name : String} (h : isName name = true) : ReadsAs (.ident name) (.name name) where
  lexes indent depth := by
    rw [layout, Formula.tokens]
    exact .name h
  conforms := .name name
  binding_le := Nat.le_refl _
  mass_eq := rfl
  strain_le := Nat.le_refl _
  legible _ := .ident name
  binding_eq _ := rfl
  reassociated _ := .refl _

section Operand

variable {e : Expr} {m : Formula}

/-- An operand is in parentheses in the text if it is in the formula. -/
theorem lexes_enclose (h : ReadsAs e m) (needed : Bool) (indent depth : Nat) :
    Lexes (parenthesize needed (e.layout .source indent depth)) (m.enclose needed).tokens := by
  cases needed with
  | false => exact h.lexes indent depth
  | true =>
      rw [Formula.enclose, if_pos rfl, Formula.tokens]
      exact (h.lexes indent depth).parentheses

/-- An operand that binds too weakly is in parentheses. -/
theorem binding_enclose (h : ReadsAs e m) (hlegible : e.Legible) (rank : Nat) :
    (m.enclose (decide (e.binding < rank))).binding
      = if e.binding < rank then 7 else e.binding := by
  by_cases hlt : e.binding < rank
  · simp [Formula.enclose, hlt, Formula.binding]
  · simp [Formula.enclose, hlt, h.binding_eq hlegible]

/-- An operator in front of an operand takes all of it. -/
theorem sign_enclose (h : ReadsAs e m) (hlegible : e.Legible) (op : UnaryOp) :
    (m.enclose e.isBinary).sign op = .unary op (m.enclose e.isBinary) := by
  refine Formula.sign_eq ?_ op
  rw [isBinary_eq, h.binding_enclose hlegible]
  split <;> omega

/-- An operator in front of an operand reads as one, and the operand as what it is or as a group. -/
theorem unary (h : ReadsAs e m) (op : UnaryOp) :
    ReadsAs (.unary op e) ((m.enclose e.isBinary).sign op) where
  lexes indent depth := by
    rw [layout, Formula.tokens_sign]
    exact (h.lexes_enclose e.isBinary indent depth).unary op
  conforms := Formula.conforms_sign op (h.conforms.enclose _)
  binding_le := by
    rw [Formula.binding_sign]
    exact Nat.min_le_left ..
  mass_eq := by rw [Formula.mass_sign, Formula.expr_enclose, h.mass_eq, mass]
  strain_le := by
    rw [Formula.strain_sign, Formula.expr_enclose, strain]
    exact h.strain_le
  legible hle := by
    rw [Formula.strain_sign, Formula.expr_enclose, strain] at hle
    exact .unary op (h.legible hle)
  binding_eq hlegible := by
    cases hlegible with
    | unary _ hoperand =>
        rw [h.sign_enclose hoperand]
        rfl
  reassociated hlegible := by
    cases hlegible with
    | unary _ hoperand =>
        rw [h.sign_enclose hoperand, Formula.expr, Formula.expr_enclose]
        exact (h.reassociated hoperand).unary op

end Operand

section Binary

variable {op : BinaryOp} {left right : Expr} {l r m : Formula}

/-- Behind its parentheses an operand binds as strongly as the operator at least. -/
theorem le_binding_enclose {e : Expr} (h : ReadsAs e m) (hlegible : e.Legible) (op : BinaryOp) :
    op.rank ≤ (m.enclose (e.bindsBelow op.precedence)).binding := by
  have hrank := op.rank_lt
  rw [bindsBelow_eq, h.binding_enclose hlegible]
  split <;> omega

/-- The strain of an operation whose operands are read. -/
theorem strain_binary_le (hl : ReadsAs left l) (hr : ReadsAs right r) (op : BinaryOp) :
    (Expr.binary op l.expr r.expr).strain ≤ (Expr.binary op left right).strain := by
  have hleft := hl.strain_le
  have hright := hr.strain_le
  cases op <;> simp only [strain, hr.mass_eq] <;> omega

/-- An operator between operands reads as the formula that they join to. -/
theorem binary (hl : ReadsAs left l) (hr : ReadsAs right r)
    (h : Formula.Joined op (l.enclose (left.bindsBelow op.precedence))
      (r.enclose (right.bindsBelow op.precedence)) m) :
    ReadsAs (.binary op left right) m where
  lexes indent depth := by
    rw [layout, h.tokens_eq]
    exact (hl.lexes_enclose _ indent depth).binary (hr.lexes_enclose _ indent depth) op
  conforms := h.conforms (hl.conforms.enclose _) (hr.conforms.enclose _)
  binding_le := h.binding_le
  mass_eq := by
    rw [h.mass_eq, Formula.expr_enclose, Formula.expr_enclose, hl.mass_eq, hr.mass_eq, mass]
  strain_le := by
    have hjoined := h.strain_le
    rw [Formula.expr_enclose, Formula.expr_enclose] at hjoined
    exact Nat.le_trans hjoined (hl.strain_binary_le hr op)
  legible hle := by
    have hjoined := h.strain_le
    have hleft := hl.strain_le
    have hright := hr.strain_le
    rw [Formula.expr_enclose, Formula.expr_enclose] at hjoined
    cases op with
    | and =>
        simp only [strain] at hle hjoined
        exact .and (hl.legible (by omega)) (hr.legible (by omega))
    | notEq =>
        simp only [strain, hr.mass_eq] at hle hjoined
        refine .notEq (hl.legible (by omega)) (hr.legible (by omega)) fun hbinding => ?_
        -- An inequality on the right has no parentheses and comes apart.
        have hbare : right.bindsBelow BinaryOp.notEq.precedence = false := by
          rw [bindsBelow_eq, hbinding]
          rfl
        rw [hbare] at h
        have hlt := h.strain_lt (hbinding ▸ hr.binding_le)
        rw [Formula.expr_enclose, Formula.expr_enclose] at hlt
        simp only [strain, hr.mass_eq] at hlt
        omega
  binding_eq hlegible := by
    obtain ⟨hlegl, hlegr, -⟩ := hlegible.operands
    refine Nat.le_antisymm h.binding_le (h.le_binding (Nat.le_refl _) ?_ ?_)
    · exact hl.le_binding_enclose hlegl op
    · exact hr.le_binding_enclose hlegr op
  reassociated hlegible := by
    obtain ⟨hlegl, hlegr, hstrict⟩ := hlegible.operands
    have hjoined := h.reassociated (hr.conforms.enclose _) (hl.le_binding_enclose hlegl op)
      (hr.le_binding_enclose hlegr op) fun hop => ?_
    · rw [Formula.expr_enclose, Formula.expr_enclose] at hjoined
      exact hjoined.trans ((hl.reassociated hlegl).binary op (hr.reassociated hlegr))
    · have hne := hstrict hop
      have hrank := op.rank_lt
      rw [bindsBelow_eq, hr.binding_enclose hlegr]
      split <;> omega

end Binary
section Calls

variable {args : List Expr} {ms : List Formula}

/-- The strain of arguments that are read. -/
theorem argStrain_le (h : List.Forall₂ ReadsAs args ms) :
    argStrain (ms.map Formula.expr) ≤ argStrain args ∧
      (argStrain args ≤ argStrain (ms.map Formula.expr) → ∀ arg ∈ args, arg.Legible) := by
  induction h with
  | nil => simp
  | @cons arg m args ms harg hargs ih =>
      obtain ⟨hle, hlegible⟩ := ih
      have hfirst := harg.strain_le
      simp only [List.map_cons, argStrain]
      refine ⟨by omega, fun heq => List.forall_mem_cons.2 ⟨harg.legible ?_, hlegible ?_⟩⟩ <;> omega

/-- Legible arguments read as themselves, each but for the groups of its operators. -/
theorem reassociated_args (h : List.Forall₂ ReadsAs args ms)
    (hlegible : ∀ arg ∈ args, arg.Legible) :
    List.Forall₂ Reassociated (ms.map Formula.expr) args := by
  induction h with
  | nil => exact .nil
  | cons harg hargs ih =>
      obtain ⟨hfirst, hrest⟩ := List.forall_mem_cons.1 hlegible
      exact .cons (harg.reassociated hfirst) (ih hrest)

/-- Arguments read together if each of them reads. -/
theorem exists_args (h : ∀ arg ∈ args, ∃ m, ReadsAs arg m) :
    ∃ ms, List.Forall₂ ReadsAs args ms := by
  induction args with
  | nil => exact ⟨[], .nil⟩
  | cons arg rest ih =>
      obtain ⟨⟨m, hm⟩, hrest⟩ := List.forall_mem_cons.1 h
      obtain ⟨ms, hms⟩ := ih hrest
      exact ⟨m :: ms, .cons hm hms⟩

/-- The texts of arguments are cut into the tokens of their formulas. -/
theorem lexes_args (h : List.Forall₂ ReadsAs args ms) (indent depth : Nat) :
    List.Forall₂ (fun text m => Lexes text (Formula.tokens m))
      (args.map (layout .source indent depth)) ms := by
  rw [List.forall₂_map_left_iff]
  exact h.imp fun _ _ harg => harg.lexes indent depth

theorem conforms_args (h : List.Forall₂ ReadsAs args ms) : ∀ m ∈ ms, m.Conforms := by
  induction h with
  | nil => simp
  | cons harg _ ih => exact List.forall_mem_cons.2 ⟨harg.conforms, ih⟩

/-- A call of a method reads as the receiver with the method and its arguments. -/
theorem methodCall {receiver : Expr} {m : Formula} {name : String} (hm : ReadsAs receiver m)
    (hname : isName name = true) (hsplice : splice args = args) (h : List.Forall₂ ReadsAs args ms) :
    ReadsAs (.methodCall receiver name args) (m.select name ms (breaksLines none name args 0)) := by
  have hdepth : ∀ depth, breaksLines none name args depth = breaksLines none name args 0 := by
    intro depth
    simp [breaksLines]
  have hbroken : breaksLines none name args 0 = true → ms ≠ [] := by
    rintro hbroken rfl
    cases h
    simp [breaksLines] at hbroken
  have hstrain := Formula.strain_select_le name ms (breaksLines none name args 0) m
  rw [Formula.argExprs_eq, hm.mass_eq] at hstrain
  obtain ⟨hargs, hlegible⟩ := argStrain_le h
  have hreceiver := hm.strain_le
  refine
    { lexes := fun indent depth => ?_
      conforms := Formula.conforms_select name (conforms_args h) hbroken hm.conforms
      binding_le := ?_
      mass_eq := by rw [Formula.mass_select, hm.mass_eq, mass]
      strain_le := by
        rw [strain]
        omega
      legible := fun hle => ?_
      binding_eq := fun hleg => ?_
      reassociated := fun hleg => ?_ }
  · simp only [layout, argLayouts_eq, hsplice, hdepth, Formula.tokens_select]
    split
    · exact .select (lexes_args h _ _) (hm.lexes indent depth)
        (fun rest => lex_newline rest (indent + 1)) hname hbroken (indent + 1)
    · have hnoGap : ∀ rest, lex [] false ([] ++ rest) = lex [] false rest := fun _ => rfl
      simpa using Lexes.select (lexes_args h _ _) (hm.lexes indent depth) hnoGap hname hbroken indent
  · rw [Formula.binding_select]
    exact Nat.le_trans hm.binding_le receiver.binding_le_seven
  · rw [strain] at hle
    have hseven : ¬ m.binding < 7 := fun hlt => by have := hstrain.2 hlt; omega
    have hbinding := hm.binding_le
    have hle_seven := receiver.binding_le_seven
    exact .methodCall name (hm.legible (by omega)) (by omega) (hlegible (by omega))
  · cases hleg with
    | methodCall _ hrec hseven _ => rw [Formula.binding_select, hm.binding_eq hrec, hseven]; rfl
  · cases hleg with
    | methodCall _ hrec hseven hargsLegible =>
        rw [Formula.select_eq name ((hm.binding_eq hrec).trans hseven), Formula.expr,
          Formula.argExprs_eq]
        exact (Reassociated.receiver name _ (hm.reassociated hrec)).trans
          (.arguments receiver name (reassociated_args h hargsLegible) [])

end Calls

end ReadsAs

/-- The text of an operation spells a formula. -/
theorem Operation.exists_readsAs {e : Expr} (h : Operation e) : ∃ m, ReadsAs e m := by
  induction h with
  | ident hname => exact ⟨_, .ident hname⟩
  | unary op _ ih =>
      obtain ⟨m, hm⟩ := ih
      exact ⟨_, hm.unary op⟩
  | @binary op left right _ _ ihleft ihright =>
      obtain ⟨l, hl⟩ := ihleft
      obtain ⟨r, hr⟩ := ihright
      obtain ⟨m, hm⟩ := Formula.exists_joined op
        (hl.conforms.enclose (left.bindsBelow op.precedence))
        (hr.conforms.enclose (right.bindsBelow op.precedence))
      exact ⟨m, hl.binary hr hm⟩
  | methodCall _ hname hargs ih ihargs =>
      obtain ⟨m, hm⟩ := ih
      obtain ⟨ms, hms⟩ := ReadsAs.exists_args ihargs
      exact ⟨_, hm.methodCall hname (splice_eq hargs) hms⟩

/-- A printed operation spells one formula, which stands for the operation up to the grouping of
conjunctions exactly if no inequality is the right operand of an inequality and no operation with
operators is the receiver of a call. -/
theorem print_reassociated_iff {e : Expr} (h : Operation e) (indent depth : Nat) :
    ∃ (text : List Char) (m : Formula), e.print indent depth = .ok text ∧ m.Spells text ∧
      (∀ m' : Formula, m'.Spells text → m' = m) ∧ (Reassociated m.expr e ↔ e.Legible) := by
  obtain ⟨m, hm⟩ := h.exists_readsAs
  have hspells : m.Spells (e.layout .source indent depth) := by
    have hlex := (hm.lexes indent depth).lex_eq false [] (by simp)
    rw [List.append_nil] at hlex
    exact ⟨hm.conforms, by simpa [lex, endWord] using hlex⟩
  refine ⟨e.layout .source indent depth, m, ?_, hspells, fun m' => hspells.unique, ?_⟩
  · exact (e.print_eq_ok_iff indent depth _).2 ⟨h.wellFormed, rfl⟩
  · exact ⟨fun hsame => hm.legible (Nat.le_of_eq hsame.strain_eq.symm), hm.reassociated⟩

/-- A conjunction with a conjunction on its right, a call on lines of its own, and both operators
with one operand. -/
def guardTree : Expr :=
  .binary .and
    (.unary .not (.methodCall (.ident "a") "WithConfig" [.binary .notEq (.ident "b") (.ident "c")]))
    (.binary .and (.unary .not (.binary .notEq (.ident "d") (.ident "e")))
      (.unary .receive (.ident "f")))

theorem print_reassociated_iff_guardTree :
    guardTree.Operation ∧ guardTree.Legible ∧
      guardTree.print 0 0 = .ok "!a.WithConfig(\n\tb != c,\n) && !(d != e) && <-f".toList ∧
      ∃ m : Formula, m.Spells "!a.WithConfig(\n\tb != c,\n) && !(d != e) && <-f".toList ∧
        Reassociated m.expr guardTree := by
  have hname : ∀ name ∈ ["a", "b", "c", "d", "e", "f", "WithConfig"], isName name = true := by
    decide +kernel
  have hident : ∀ name ∈ ["a", "b", "c", "d", "e", "f"], Operation (.ident name) := fun name h =>
    .ident (hname name (List.mem_append_left ["WithConfig"] h))
  have hoperation : guardTree.Operation := by
    refine .binary _ (.unary _ (.methodCall (hident "a" (by simp)) (hname _ (by simp)) ?_))
      (.binary _ (.unary _ (.binary _ (hident "d" (by simp)) (hident "e" (by simp))))
        (.unary _ (hident "f" (by simp))))
    simpa using Operation.binary .notEq (hident "b" (by simp)) (hident "c" (by simp))
  have hlegible : guardTree.Legible := by
    refine .and (.unary _ (.methodCall _ (.ident "a") rfl ?_))
      (.and (.unary _ (.notEq (.ident "d") (.ident "e") (by decide))) (.unary _ (.ident "f")))
    simpa using Legible.notEq (.ident "b") (.ident "c") (by decide)
  have hprint : guardTree.print 0 0
      = .ok "!a.WithConfig(\n\tb != c,\n) && !(d != e) && <-f".toList := by rfl
  obtain ⟨text, m, htext, hspells, -, hiff⟩ := print_reassociated_iff hoperation 0 0
  obtain rfl : _ = text := Except.ok.inj (hprint.symm.trans htext)
  exact ⟨hoperation, hlegible, hprint, m, hspells, hiff.2 hlegible⟩

/-- An inequality as the right operand of an inequality. -/
def nestedInequality : Expr :=
  .binary .notEq (.ident "a") (.binary .notEq (.ident "b") (.ident "c"))

/-- The text of an inequality on the right of an inequality reads as one on the left. -/
theorem print_reassociated_nestedInequality :
    nestedInequality.Operation ∧ nestedInequality.print 0 0 = .ok "a != b != c".toList ∧
      ∀ m : Formula, m.Spells "a != b != c".toList →
        m.expr = .binary .notEq (.binary .notEq (.ident "a") (.ident "b")) (.ident "c") ∧
          ¬ Reassociated m.expr nestedInequality := by
  have hname : ∀ name ∈ ["a", "b", "c"], isName name = true := by decide +kernel
  refine ⟨.binary _ (.ident (hname "a" (by simp))) (.binary _ (.ident (hname "b" (by simp)))
    (.ident (hname "c" (by simp)))), rfl, fun m hm => ?_⟩
  have hleft : Formula.Spells (.binary .notEq (.binary .notEq (.name "a") (.name "b")) (.name "c"))
      "a != b != c".toList := by
    refine ⟨.binary _ (by decide) (by decide) (.binary _ (by decide) (by decide) (.name _)
      (.name _)) (.name _), by decide +kernel⟩
  obtain rfl := hleft.unique hm
  refine ⟨by simp only [Formula.expr], fun hsame => ?_⟩
  have hstrain := hsame.strain_eq
  simp [Formula.expr, nestedInequality, strain, mass] at hstrain

end Expr
end Program
end Stackwright
