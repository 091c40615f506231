import Stackwright.Program.Expr
import Stackwright.Program.Ident

/-!
# Formulas

A *formula* is an operation as its text has it, with its parentheses and its
trailing commas.  Both operators with two operands group to the left, an
inequality binds more tightly than a conjunction, an operator with one operand
more tightly than these, and a selector with its arguments most tightly.
`Formula.Conforms` has one rule for each production of this grammar, and a text
*spells* a formula if its tokens are those of a formula that conforms.

Formulas are read by a stack automaton, which puts off an operator until it knows
what its right operand is.  It finds every formula from its tokens, so that no
text spells two formulas.

Main results:

- Theorem `Formula.run_tokens`: what the automaton has on its stack after the
  tokens of a formula.
- Theorem `Formula.read_tokens`: reading the tokens of a formula gives the formula.
- Theorem `Formula.Spells.unique`: a text spells at most one formula.
-/

namespace Stackwright
namespace Program

/-! ## Tokens -/

/-- The words that are no names. -/
def keywords : List String :=
  [ "break", "case", "chan", "const", "continue", "default", "defer", "else", "fallthrough", "for",
    "func", "go", "goto", "if", "import", "interface", "map", "package", "range", "return",
    "select", "struct", "switch", "type", "var" ]

/-- Whether a word is a name. -/
def isName (word : String) : Bool :=
  isIdentifier word.toList && !keywords.contains word

/-- A name is an identifier that is no keyword. -/
theorem isIdentifier_of_isName {word : String} (h : isName word = true) :
    isIdentifier word.toList = true := by
  rw [isName, Bool.and_eq_true] at h
  exact h.1

/-- A name starts with a letter or an underscore. -/
theorem exists_cons_of_isName {word : String} (h : isName word = true) :
    ∃ c rest, word.toList = c :: rest ∧ isIdentStart c = true := by
  have hidentifier := isIdentifier_of_isName h
  cases htext : word.toList with
  | nil => simp [htext, isIdentifier] at hidentifier
  | cons c rest =>
      rw [htext, isIdentifier, Bool.and_eq_true] at hidentifier
      exact ⟨c, rest, rfl, hidentifier.1⟩

/-- A token of an operation. -/
inductive Token where
  | name (word : String)
  | unary (op : UnaryOp)
  | binary (op : BinaryOp)
  | dot
  | comma
  | opening
  | closing
  /-- What a line end stands for after a token that can end a statement. -/
  | semicolon
deriving DecidableEq

/-- Puts a word that ends here in front of the tokens after it. -/
def endWord (word : List Char) (tokens : Option (List Token)) : Option (List Token) :=
  if word.isEmpty then tokens
  else if isName (String.ofList word) then tokens.map (.name (String.ofList word) :: ·)
  else none

/-- The tokens of a text that comes after the first characters of a word; `ended` says that the
token before the word can end a statement.  A token is as long as it can be. -/
def lex (word : List Char) (ended : Bool) : List Char → Option (List Token)
  | [] => endWord word (some [])
  | c :: rest =>
      if isIdentChar c then lex (word ++ [c]) ended rest
      else
        let ended := ended || !word.isEmpty
        endWord word <|
          match c, rest with
          | '!', '=' :: rest => (lex [] false rest).map (.binary .notEq :: ·)
          | '&', '&' :: rest => (lex [] false rest).map (.binary .and :: ·)
          | '<', '-' :: rest => (lex [] false rest).map (.unary .receive :: ·)
          | '!', rest => (lex [] false rest).map (.unary .not :: ·)
          | '.', rest => (lex [] false rest).map (.dot :: ·)
          | ',', rest => (lex [] false rest).map (.comma :: ·)
          | '(', rest => (lex [] false rest).map (.opening :: ·)
          | ')', rest => (lex [] true rest).map (.closing :: ·)
          | '\n', rest =>
              if ended then (lex [] false rest).map (.semicolon :: ·) else lex [] false rest
          | ' ', rest | '\t', rest | '\r', rest => lex [] ended rest
          | _, _ => none

example : lex [] false "!a != b.M(<-c,\n\td)\n".toList
    = some [.unary .not, .name "a", .binary .notEq, .name "b", .dot, .name "M", .opening,
        .unary .receive, .name "c", .comma, .name "d", .closing, .semicolon] := by
  decide +kernel

/-! ## The grammar -/

/-- How strongly an operator with two operands binds. -/
def BinaryOp.rank : BinaryOp → Nat
  | .and => 2
  | .notEq => 3

/-- An operator with two operands binds less strongly than one with a single operand. -/
theorem BinaryOp.rank_lt (op : BinaryOp) : op.rank < 6 := by
  cases op <;> decide

/-- An operation as its text has it. -/
inductive Formula where
  | name (word : String)
  | paren (inner : Formula)
  | unary (op : UnaryOp) (operand : Formula)
  | binary (op : BinaryOp) (left right : Formula)
  /-- A call of a method; `trailing` says that a comma comes after the last argument. -/
  | call (receiver : Formula) (method : String) (args : List Formula) (trailing : Bool)

namespace Formula

/-- How strongly the parts of a formula are held together. -/
def binding : Formula → Nat
  | .binary op _ _ => op.rank
  | .unary _ _ => 6
  | _ => 7

/-- The productions of the grammar. -/
inductive Conforms : Formula → Prop where
  | name (word : String) : Conforms (.name word)
  | paren {inner : Formula} : Conforms inner → Conforms (.paren inner)
  | unary (op : UnaryOp) {operand : Formula} :
      6 ≤ operand.binding → Conforms operand → Conforms (.unary op operand)
  | binary (op : BinaryOp) {left right : Formula} :
      op.rank ≤ left.binding → op.rank < right.binding → Conforms left → Conforms right →
        Conforms (.binary op left right)
  | call {receiver : Formula} (method : String) {args : List Formula} {trailing : Bool} :
      receiver.binding = 7 → Conforms receiver → (trailing = true → args ≠ []) →
        (∀ arg ∈ args, Conforms arg) → Conforms (.call receiver method args trailing)

mutual
/-- The tokens of a formula. -/
def tokens : Formula → List Token
  | .name word => [.name word]
  | .paren inner => .opening :: inner.tokens ++ [.closing]
  | .unary op operand => .unary op :: operand.tokens
  | .binary op left right => left.tokens ++ .binary op :: right.tokens
  | .call receiver method args trailing =>
      receiver.tokens ++ .dot :: .name method :: .opening :: argTokens trailing args ++ [.closing]

/-- The tokens of arguments. -/
def argTokens (trailing : Bool) : List Formula → List Token
  | [] => []
  | [arg] => arg.tokens ++ if trailing then [.comma] else []
  | arg :: rest => arg.tokens ++ .comma :: argTokens trailing rest
end

mutual
/-- The operation that a formula stands for. -/
def expr : Formula → Expr
  | .name word => .ident word
  | .paren inner => inner.expr
  | .unary op operand => .unary op operand.expr
  | .binary op left right => .binary op left.expr right.expr
  | .call receiver method args _ => .methodCall receiver.expr method (argExprs args)

/-- The operations that arguments stand for. -/
def argExprs : List Formula → List Expr
  | [] => []
  | arg :: rest => arg.expr :: argExprs rest
end

theorem argExprs_eq (args : List Formula) : argExprs args = args.map expr := by
  induction args with
  | nil => rfl
  | cons arg rest ih => rw [argExprs, ih, List.map_cons]

/-- The formula conforms to the grammar and has the tokens of the text. -/
def Spells (m : Formula) (text : List Char) : Prop :=
  m.Conforms ∧ lex [] false text = some m.tokens

/-! ## Reading -/

/-- What has been read of a formula that is not complete. -/
inductive Frame where
  | unary (op : UnaryOp)
  | binary (op : BinaryOp) (left : Formula)
  | paren
  | args (receiver : Formula) (method : String) (done : List Formula)

/-- A place in a formula, with the incomplete formulas around it, innermost first. -/
inductive Reader where
  /-- An operand has to come. -/
  | operand (stack : List Frame)
  /-- After an operand. -/
  | operator (last : Formula) (stack : List Frame)
  /-- After the dot of a selector. -/
  | selector (receiver : Formula) (stack : List Frame)
  /-- After the name of a method. -/
  | arguments (receiver : Formula) (method : String) (stack : List Frame)

/-- Completes the operations around an operand that bind at least as strongly as an operator that
comes after it. -/
def reduce (rank : Nat) (last : Formula) : List Frame → Formula × List Frame
  | .unary op :: stack =>
      if rank ≤ 6 then reduce rank (.unary op last) stack else (last, .unary op :: stack)
  | .binary op left :: stack =>
      if rank ≤ op.rank then reduce rank (.binary op left last) stack
      else (last, .binary op left :: stack)
  | stack => (last, stack)

namespace Reader

/-- Reads a token. -/
def step : Reader → Token → Option Reader
  | .operand stack, .name word => some (.operator (.name word) stack)
  | .operand stack, .unary op => some (.operand (.unary op :: stack))
  | .operand stack, .opening => some (.operand (.paren :: stack))
  | .operand (.args receiver method done :: stack), .closing =>
      some (.operator (.call receiver method done !done.isEmpty) stack)
  | .operator last stack, .dot => some (.selector last stack)
  | .operator last stack, .binary op =>
      let (left, stack) := reduce op.rank last stack
      some (.operand (.binary op left :: stack))
  | .operator last stack, .comma =>
      match reduce 0 last stack with
      | (arg, .args receiver method done :: stack) =>
          some (.operand (.args receiver method (done ++ [arg]) :: stack))
      | _ => none
  | .operator last stack, .closing =>
      match reduce 0 last stack with
      | (inner, .paren :: stack) => some (.operator (.paren inner) stack)
      | (arg, .args receiver method done :: stack) =>
          some (.operator (.call receiver method (done ++ [arg]) false) stack)
      | _ => none
  | .selector receiver stack, .name method => some (.arguments receiver method stack)
  | .arguments receiver method stack, .opening =>
      some (.operand (.args receiver method [] :: stack))
  | _, _ => none

/-- Reads tokens one after the other. -/
def run (place : Reader) (tokens : List Token) : Option Reader :=
  tokens.foldlM step place

/-- The formula that has been read, if it is complete. -/
def finish : Reader → Option Formula
  | .operator last stack =>
      match reduce 0 last stack with
      | (m, []) => some m
      | _ => none
  | _ => none

theorem run_cons (place : Reader) (token : Token) (tokens : List Token) :
    place.run (token :: tokens) = (place.step token).bind (·.run tokens) := by
  simp [run]

@[simp]
theorem run_nil (place : Reader) : place.run [] = some place :=
  rfl

/-- Reading goes on where the reading of the first tokens ends. -/
theorem run_append {place next : Reader} {front : List Token} (h : place.run front = some next)
    (back : List Token) : place.run (front ++ back) = next.run back := by
  rw [run] at h
  simp [run, List.foldlM_append, h]

end Reader

/-- The formula that tokens spell. -/
def read (tokens : List Token) : Option Formula :=
  ((Reader.operand []).run tokens).bind Reader.finish

/-! ## Every formula is read -/

/-- Whether a formula of the given binding can be the operand that a frame waits for. -/
def Frame.takes (binding : Nat) : Frame → Prop
  | .unary _ => 6 ≤ binding
  | .binary op _ => op.rank < binding
  | _ => True

/-- Whether the innermost incomplete formula can take a formula of the given binding. -/
def Takes (stack : List Frame) (binding : Nat) : Prop :=
  ∀ frame ∈ stack.head?, frame.takes binding

/-- What takes a formula takes one that binds more strongly. -/
theorem Takes.mono {stack : List Frame} {a b : Nat} (h : Takes stack a) (hab : a ≤ b) :
    Takes stack b := by
  intro frame hframe
  have htakes := h frame hframe
  cases frame with
  | unary op => exact Nat.le_trans htakes hab
  | binary op left => exact Nat.lt_of_lt_of_le htakes hab
  | paren => trivial
  | args receiver method done => trivial

/-- Nothing is complete before an operator whose operation the stack waits for. -/
theorem reduce_of_takes {stack : List Frame} {op : BinaryOp} (h : Takes stack op.rank)
    (last : Formula) : reduce op.rank last stack = (last, stack) := by
  cases stack with
  | nil => rfl
  | cons frame stack =>
      have htakes := h frame rfl
      cases frame with
      | unary sign => exact absurd htakes (by have := op.rank_lt; simp [Frame.takes]; omega)
      | binary other left =>
          have hrank : ¬ op.rank ≤ other.rank := Nat.not_le.2 htakes
          rw [reduce, if_neg hrank]
      | paren => rfl
      | args receiver method done => rfl

/-- A selector comes before every operation around it. -/
theorem reduce_seven (last : Formula) (stack : List Frame) :
    reduce 7 last stack = (last, stack) := by
  cases stack with
  | nil => rfl
  | cons frame stack =>
      cases frame with
      | unary op => rfl
      | binary op left =>
          have hrank : ¬ 7 ≤ op.rank := by have := op.rank_lt; omega
          rw [reduce, if_neg hrank]
      | paren => rfl
      | args receiver method done => rfl

/-- After the tokens of a formula, the reader has an operand and a stack that complete to the
formula on the stack before it. -/
def ReadsOn (m : Formula) : Prop :=
  ∀ stack, Takes stack m.binding → ∃ last below,
    (Reader.operand stack).run m.tokens = some (.operator last below) ∧
      ∀ rank ≤ m.binding, reduce rank last below = reduce rank m stack

/-- Arguments are read up to the parenthesis after them. -/
theorem run_argTokens {args : List Formula} (h : ∀ arg ∈ args, ReadsOn arg) (hne : args ≠ [])
    (receiver : Formula) (method : String) (done : List Formula) (trailing : Bool)
    (stack : List Frame) :
    (Reader.operand (.args receiver method done :: stack)).run
        (argTokens trailing args ++ [.closing])
      = some (.operator (.call receiver method (done ++ args) trailing) stack) := by
  induction args generalizing done with
  | nil => exact absurd rfl hne
  | cons arg rest ih =>
      obtain ⟨harg, hrest⟩ := List.forall_mem_cons.1 h
      obtain ⟨last, below, hrun, hreduce⟩ :=
        harg (.args receiver method done :: stack) (by rintro frame ⟨⟩; trivial)
      have hcomplete : reduce 0 last below = (arg, .args receiver method done :: stack) :=
        hreduce 0 (Nat.zero_le _)
      cases rest with
      | nil =>
          rw [argTokens, List.append_assoc, Reader.run_append hrun]
          cases trailing <;> simp [Reader.run_cons, Reader.step, hcomplete]
      | cons next rest =>
          have hmore := ih hrest (List.cons_ne_nil _ _) (done ++ [arg])
          rw [argTokens.eq_3 trailing arg (next :: rest) (by simp), List.append_assoc,
            Reader.run_append hrun, List.cons_append, Reader.run_cons]
          simpa [Reader.step, hcomplete] using hmore

/-- The automaton reads every formula, whatever it stands in. -/
theorem run_tokens {m : Formula} (h : m.Conforms) : ReadsOn m := by
  induction h with
  | name word =>
      intro stack _
      exact ⟨.name word, stack, rfl, fun _ _ => rfl⟩
  | @paren inner _ ih =>
      intro stack _
      obtain ⟨last, below, hrun, hreduce⟩ := ih (.paren :: stack) (by rintro frame ⟨⟩; trivial)
      have hcomplete : reduce 0 last below = (inner, .paren :: stack) :=
        hreduce 0 (Nat.zero_le _)
      refine ⟨.paren inner, stack, ?_, fun _ _ => rfl⟩
      rw [tokens, List.cons_append, Reader.run_cons]
      simp [Reader.step, Reader.run_append hrun, Reader.run_cons, hcomplete]
  | @unary op operand hbinding _ ih =>
      intro stack _
      obtain ⟨last, below, hrun, hreduce⟩ :=
        ih (.unary op :: stack) (by rintro frame ⟨⟩; exact hbinding)
      refine ⟨last, below, ?_, fun rank hrank => ?_⟩
      · simp [tokens, Reader.run_cons, Reader.step, hrun]
      · have hle : rank ≤ 6 := hrank
        rw [hreduce rank (Nat.le_trans hle hbinding), reduce, if_pos hle]
  | @binary op left right hleft hright _ _ ihleft ihright =>
      intro stack hstack
      -- The left operand is complete when the operator comes, and nothing around it is.
      obtain ⟨last, below, hrun, hreduce⟩ := ihleft stack (hstack.mono hleft)
      have hcomplete : reduce op.rank last below = (left, stack) := by
        rw [hreduce op.rank hleft]
        exact reduce_of_takes hstack left
      obtain ⟨last', below', hrun', hreduce'⟩ :=
        ihright (.binary op left :: stack) (by rintro frame ⟨⟩; exact hright)
      refine ⟨last', below', ?_, fun rank hrank => ?_⟩
      · rw [tokens, Reader.run_append hrun, Reader.run_cons]
        simp [Reader.step, hcomplete, hrun']
      · have hle : rank ≤ op.rank := hrank
        rw [hreduce' rank (by omega), reduce, if_pos hle]
  | @call receiver method args trailing hreceiver _ htrailing _ ih ihargs =>
      intro stack hstack
      obtain ⟨last, below, hrun, hreduce⟩ := ih stack (hstack.mono (Nat.le_of_eq hreceiver.symm))
      have hsame : (last, below) = (receiver, stack) := by
        have hseven := hreduce 7 (Nat.le_of_eq hreceiver.symm)
        rwa [reduce_seven, reduce_seven] at hseven
      obtain ⟨rfl, rfl⟩ := Prod.mk.inj hsame
      refine ⟨.call last method args trailing, below, ?_, fun _ _ => rfl⟩
      rw [tokens, List.append_assoc, Reader.run_append hrun]
      simp only [List.cons_append, Reader.run_cons, Reader.step, Option.bind_some]
      by_cases hne : args = []
      · subst hne
        cases trailing with
        | true => exact absurd rfl (htrailing rfl)
        | false => rfl
      · exact run_argTokens ihargs hne last method [] trailing below

/-- Reading the tokens of a formula gives the formula. -/
theorem read_tokens {m : Formula} (h : m.Conforms) : read m.tokens = some m := by
  obtain ⟨last, below, hrun, hreduce⟩ := run_tokens h [] (by simp [Takes])
  have hcomplete : reduce 0 last below = (m, []) := hreduce 0 (Nat.zero_le _)
  simp [read, hrun, Reader.finish, hcomplete]

/-- A text spells at most one formula. -/
theorem Spells.unique {m m' : Formula} {text : List Char} (h : m.Spells text)
    (h' : m'.Spells text) : m' = m := by
  have htokens : m'.tokens = m.tokens := Option.some.inj (h'.2.symm.trans h.2)
  have hread := read_tokens h'.1
  rw [htokens, read_tokens h.1] at hread
  exact (Option.some.inj hread).symm

end Formula
end Program
end Stackwright
