import Stackwright.Program.Printer
import Stackwright.Proofs.Outcome

/-!
# The layout of a program

Printing checks names and lays text out in one walk.  This module takes the two
apart: a tree is *well-formed* if its names are identifiers, its floats are
finite and its groups stand in argument lists, and the *layout* of a tree is a
total function that never fails.

The layout takes an `Ink`, which says how strings and comments are written.
`Ink.source` writes them as the printer does; `Ink.blank` writes blanks instead,
which gives the code of the program alone, in the same places.

Main results:

- Theorem `Expr.spliceInduction`: induction over expressions in which the
  arguments of a call are those that remain after its groups are spliced in.
- Theorem `File.print_eq_ok_iff`: a file is printed exactly if it is
  well-formed, and its text is its layout in `Ink.source`.
-/

namespace Stackwright
namespace Program

/-! ## Inks -/

/-- How the parts of a program that are no code are written. -/
structure Ink where
  string : List Char → List Char
  comment : String → List Char

/-- Strings and comments as they are printed. -/
def Ink.source : Ink where
  string := quote
  comment := printComment

/-- Strings and comments as blanks that take the same place. -/
def Ink.blank : Ink where
  string s := List.replicate (quote s).length ' '
  comment line := List.replicate ((printComment line).length - 1) ' ' ++ ['\n']

/-! ## Names -/

/-- A name is printed exactly if it is an identifier. -/
theorem printName_eq_ok_iff {name : String} {text : List Char} :
    printName name = .ok text ↔ isIdentifier name.toList = true ∧ name.toList = text := by
  unfold printName
  split <;> simp_all

/-- Commas put nothing into a list but themselves and spaces. -/
theorem notMem_commaSeparated {c : Char} (hcomma : c ≠ ',') (hspace : c ≠ ' ')
    {parts : List (List Char)} (h : ∀ part ∈ parts, c ∉ part) : c ∉ commaSeparated parts := by
  induction parts with
  | nil => simp [commaSeparated]
  | cons part rest ih =>
      obtain ⟨hpart, hrest⟩ := List.forall_mem_cons.1 h
      cases rest with
      | nil => simpa [commaSeparated] using hpart
      | cons other rest =>
          have htext : commaSeparated (part :: other :: rest)
              = part ++ ',' :: ' ' :: commaSeparated (other :: rest) :=
            rfl
          rw [htext, List.mem_append, List.mem_cons, List.mem_cons]
          exact not_or.2 ⟨hpart, not_or.2 ⟨hcomma, not_or.2 ⟨hspace, ih hrest⟩⟩⟩

/-! ## Types and literals -/

/-- Whether the names of a type are identifiers. -/
def TypeExpr.wellFormed : TypeExpr → Bool
  | .named name => isIdentifier name.toList
  | .qualified _ name => isIdentifier name.toList
  | .pointer target => target.wellFormed
  | .slice element => element.wellFormed
  | .map key value => key.wellFormed && value.wellFormed
  | .chan element => element.wellFormed

/-- The layout of a type. -/
def TypeExpr.layout : TypeExpr → List Char
  | .named name => name.toList
  | .qualified package name => qualifier package ++ name.toList
  | .pointer target => '*' :: target.layout
  | .slice element => '[' :: ']' :: element.layout
  | .map key value => ['m', 'a', 'p', '['] ++ key.layout ++ ']' :: value.layout
  | .chan element => ['c', 'h', 'a', 'n', ' '] ++ element.layout

/-- A type is printed exactly if it is well-formed. -/
theorem TypeExpr.print_eq_ok_iff (t : TypeExpr) (text : List Char) :
    t.print = .ok text ↔ t.wellFormed = true ∧ t.layout = text := by
  induction t generalizing text with
  | named name => exact printName_eq_ok_iff
  | qualified package name =>
      simp only [print, bind_eq_ok_iff, pure_eq_ok_iff, printName_eq_ok_iff, wellFormed, layout]
      simp
  | pointer target ih | slice element ih | chan element ih =>
      simp only [print, bind_eq_ok_iff, pure_eq_ok_iff, ih, wellFormed, layout]
      simp
  | map key value ihkey ihvalue =>
      simp only [print, bind_eq_ok_iff, pure_eq_ok_iff, ihkey, ihvalue, wellFormed, layout]
      simp [and_assoc]

/-- Whether a literal can be printed. -/
def Literal.wellFormed : Literal → Bool
  | .float value => value.isFinite
  | _ => true

/-- The layout of a literal. -/
def Literal.layout (ink : Ink) : Literal → List Char
  | .string value => ink.string value.toList
  | .int value => Text.decimalInt value
  | .uint value => Text.decimal value
  | .float value => Decimal.Style.literal.text value
  | .bool value => printBool value
  | .fileMode value => printFileMode value
  | .duration value => printDuration value
  | .nil => "nil".toList

/-- A literal is printed exactly if it is well-formed. -/
theorem Literal.print_eq_ok_iff (l : Literal) (text : List Char) :
    l.print = .ok text ↔ l.wellFormed = true ∧ l.layout .source = text := by
  cases l with
  | float value =>
      simp only [print, wellFormed, layout]
      split <;> simp_all
  | _ => simp [print, wellFormed, layout, Ink.source]

/-! ## Expressions -/

namespace Expr

/-- Induction over expressions.  The arguments of a call are taken after its
groups are spliced in, so that a group never stands among them. -/
@[elab_as_elim]
theorem spliceInduction {P : Expr → Prop}
    (call : ∀ name args, (∀ a ∈ splice args, P a) → P (.call name args))
    (packageCall : ∀ package name args, (∀ a ∈ splice args, P a) →
      P (.packageCall package name args))
    (methodCall : ∀ receiver name args, P receiver → (∀ a ∈ splice args, P a) →
      P (.methodCall receiver name args))
    (ident : ∀ name, P (.ident name))
    (qualified : ∀ package name, P (.qualified package name))
    (literal : ∀ value, P (.literal value))
    (list : ∀ element items, (∀ a ∈ items, P a) → P (.list element items))
    (map : ∀ key value entries, (∀ entry ∈ entries, P entry.1 ∧ P entry.2) →
      P (.map key value entries))
    (group : ∀ items, P (.group items))
    (type : ∀ value, P (.type value))
    (unary : ∀ op operand, P operand → P (.unary op operand))
    (binary : ∀ op left right, P left → P right → P (.binary op left right))
    (e : Expr) : P e := by
  -- Beside `P e`, the arguments that `e` itself splices into a list are carried along.
  have key : P e ∧ ∀ a ∈ e.spliceOne, P a := by
    refine @Expr.rec (fun e => P e ∧ ∀ a ∈ e.spliceOne, P a)
      (fun l => (∀ a ∈ l, P a) ∧ ∀ a ∈ splice l, P a)
      (fun l => ∀ entry ∈ l, P entry.1 ∧ P entry.2) (fun entry => P entry.1 ∧ P entry.2)
      ?_ ?_ ?_ ?_ ?_ ?_ ?_ ?_ ?_ ?_ ?_ ?_ ?_ ?_ ?_ ?_ ?_ e
    · intro name args ih
      simpa [spliceOne] using call name args ih.2
    · intro package name args ih
      simpa [spliceOne] using packageCall package name args ih.2
    · intro receiver name args ihreceiver ih
      simpa [spliceOne] using methodCall receiver name args ihreceiver.1 ih.2
    · intro name
      simpa [spliceOne] using ident name
    · intro package name
      simpa [spliceOne] using qualified package name
    · intro value
      simpa [spliceOne] using literal value
    · intro element items ih
      simpa [spliceOne] using list element items ih.1
    · intro key value entries ih
      simpa [spliceOne] using map key value entries ih
    · intro items ih
      exact ⟨group items, by simpa [spliceOne] using ih.2⟩
    · intro value
      simpa [spliceOne] using type value
    · intro op operand ih
      simpa [spliceOne] using unary op operand ih.1
    · intro op left right ihleft ihright
      simpa [spliceOne] using binary op left right ihleft.1 ihright.1
    · simp [splice]
    · intro head tail ihhead ihtail
      refine ⟨List.forall_mem_cons.2 ⟨ihhead.1, ihtail.1⟩, ?_⟩
      intro a ha
      rw [splice, List.mem_append] at ha
      exact ha.elim (ihhead.2 a) (ihtail.2 a)
    · simp
    · intro head tail ihhead ihtail
      exact List.forall_mem_cons.2 ⟨ihhead, ihtail⟩
    · intro key value ihkey ihvalue
      exact ⟨ihkey.1, ihvalue.1⟩
  exact key.1

/-- Induction over the arguments of a call, with the items of a group and the
arguments after it as two smaller lists. -/
theorem argsInduction {Q : List Expr → Prop} (nil : Q [])
    (group : ∀ items rest, Q items → Q rest → Q (.group items :: rest))
    (cons : ∀ e rest, (∀ items, e ≠ .group items) → Q rest → Q (e :: rest))
    (args : List Expr) : Q args := by
  refine splice.induct (fun e => ∀ rest, Q rest → Q (e :: rest)) Q ?_ ?_ nil ?_ args
  · intro items ih rest hrest
    exact group items rest ih hrest
  · intro e he rest hrest
    exact cons e rest he hrest
  · intro e rest ihe ihrest
    exact ihe rest ihrest

@[simp]
theorem splice_nil : splice [] = [] :=
  rfl

@[simp]
theorem splice_group_cons (items rest : List Expr) :
    splice (.group items :: rest) = splice items ++ splice rest := by
  simp [splice, spliceOne]

/-- An argument that is no group stays as it is. -/
theorem splice_cons {e : Expr} (he : ∀ items, e ≠ .group items) (rest : List Expr) :
    splice (e :: rest) = e :: splice rest := by
  rw [splice, spliceOne.eq_2 e he, List.singleton_append]

mutual
/-- Whether an expression can be printed: its names are identifiers, its floats
are finite and its groups stand in argument lists. -/
def wellFormed : Expr → Bool
  | .call name args => isIdentifier name.toList && argsWellFormed args
  | .packageCall _ name args => isIdentifier name.toList && argsWellFormed args
  | .methodCall receiver name args =>
      receiver.wellFormed && isIdentifier name.toList && argsWellFormed args
  | .ident name => isIdentifier name.toList
  | .qualified _ name => isIdentifier name.toList
  | .literal value => value.wellFormed
  | .list element items => element.wellFormed && itemsWellFormed items
  | .map key value entries => key.wellFormed && value.wellFormed && entriesWellFormed entries
  | .group _ => false
  | .type value => value.wellFormed
  | .unary _ operand => operand.wellFormed
  | .binary _ left right => left.wellFormed && right.wellFormed

/-- Whether the arguments of a call can be printed; groups are allowed. -/
def argsWellFormed : List Expr → Bool
  | [] => true
  | .group items :: rest => argsWellFormed items && argsWellFormed rest
  | e :: rest => e.wellFormed && argsWellFormed rest

/-- Whether the items of a list can be printed. -/
def itemsWellFormed : List Expr → Bool
  | [] => true
  | e :: rest => e.wellFormed && itemsWellFormed rest

/-- Whether the entries of a map can be printed. -/
def entriesWellFormed : List (Expr × Expr) → Bool
  | [] => true
  | (key, value) :: rest => key.wellFormed && value.wellFormed && entriesWellFormed rest
end

/-- Arguments can be printed if those that remain after splicing can. -/
theorem argsWellFormed_eq (args : List Expr) :
    argsWellFormed args = (splice args).all wellFormed := by
  induction args using argsInduction with
  | nil => simp [argsWellFormed]
  | group items rest ihitems ihrest => simp [argsWellFormed, ihitems, ihrest]
  | cons e rest he ih => rw [splice_cons he, argsWellFormed.eq_3 e rest he, ih, List.all_cons]

/-- Items can be printed if each of them can. -/
theorem itemsWellFormed_eq (items : List Expr) : itemsWellFormed items = items.all wellFormed := by
  induction items with
  | nil => rfl
  | cons e rest ih => simp [itemsWellFormed, ih]

/-- Entries can be printed if the two sides of each of them can. -/
theorem entriesWellFormed_eq (entries : List (Expr × Expr)) :
    entriesWellFormed entries
      = entries.all fun entry => entry.1.wellFormed && entry.2.wellFormed := by
  induction entries with
  | nil => rfl
  | cons entry rest ih => simp [entriesWellFormed, ih]

mutual
/-- The layout of an expression at a nesting depth, on a line with the given
indentation. -/
def layout (ink : Ink) (indent depth : Nat) : Expr → List Char
  | .call name args =>
      let broken := breaksLines none name args depth
      name.toList
        ++ layoutArgs indent broken (argLayouts ink (argIndent indent broken) (depth + 1) args)
  | .packageCall package name args =>
      let broken := breaksLines (some package) name args depth
      qualifier package ++ name.toList
        ++ layoutArgs indent broken (argLayouts ink (argIndent indent broken) (depth + 1) args)
  | .methodCall receiver name args =>
      let broken := breaksLines none name args depth
      if receiver.isCall then
        receiver.layout ink indent depth ++ '.' :: newline (indent + 1) ++ name.toList
          ++ layoutArgs (indent + 1) broken
            (argLayouts ink (argIndent (indent + 1) broken) (depth + 1) args)
      else
        receiver.layout ink indent depth ++ '.' :: name.toList
          ++ layoutArgs indent broken (argLayouts ink (argIndent indent broken) (depth + 1) args)
  | .ident name => name.toList
  | .qualified package name => qualifier package ++ name.toList
  | .literal value => value.layout ink
  | .list element items =>
      '[' :: ']' :: element.layout
        ++ '\x7b' :: commaSeparated (itemLayouts ink indent (depth + 1) items) ++ ['\x7d']
  | .map key value entries =>
      (TypeExpr.map key value).layout
        ++ '\x7b' :: commaSeparated (entryLayouts ink indent (depth + 1) entries) ++ ['\x7d']
  | .group _ => []
  | .type value => value.layout
  | .unary op operand =>
      op.symbol ++ parenthesize operand.isBinary (operand.layout ink indent depth)
  | .binary op left right =>
      parenthesize (left.bindsBelow op.precedence) (left.layout ink indent depth) ++ op.symbol
        ++ parenthesize (right.bindsBelow op.precedence) (right.layout ink indent depth)

/-- The layouts of the arguments of a call, with groups spliced in. -/
def argLayouts (ink : Ink) (indent depth : Nat) : List Expr → List (List Char)
  | [] => []
  | .group items :: rest => argLayouts ink indent depth items ++ argLayouts ink indent depth rest
  | e :: rest => e.layout ink indent depth :: argLayouts ink indent depth rest

/-- The layouts of the items of a list. -/
def itemLayouts (ink : Ink) (indent depth : Nat) : List Expr → List (List Char)
  | [] => []
  | e :: rest => e.layout ink indent depth :: itemLayouts ink indent depth rest

/-- The layouts of the entries of a map. -/
def entryLayouts (ink : Ink) (indent depth : Nat) : List (Expr × Expr) → List (List Char)
  | [] => []
  | (key, value) :: rest =>
      (key.layout ink indent depth ++ ':' :: ' ' :: value.layout ink indent depth)
        :: entryLayouts ink indent depth rest
end

/-- The argument layouts are those of the arguments that remain after splicing. -/
theorem argLayouts_eq (ink : Ink) (indent depth : Nat) (args : List Expr) :
    argLayouts ink indent depth args = (splice args).map (layout ink indent depth) := by
  induction args using argsInduction with
  | nil => simp [argLayouts]
  | group items rest ihitems ihrest => simp [argLayouts, ihitems, ihrest]
  | cons e rest he ih =>
      rw [splice_cons he, argLayouts.eq_3 ink indent depth e rest he, ih, List.map_cons]

/-- The item layouts are those of the items. -/
theorem itemLayouts_eq (ink : Ink) (indent depth : Nat) (items : List Expr) :
    itemLayouts ink indent depth items = items.map (layout ink indent depth) := by
  induction items with
  | nil => rfl
  | cons e rest ih => simp [itemLayouts, ih]

/-- The entry layouts put a colon between the layouts of the two sides. -/
theorem entryLayouts_eq (ink : Ink) (indent depth : Nat) (entries : List (Expr × Expr)) :
    entryLayouts ink indent depth entries = entries.map fun entry =>
      entry.1.layout ink indent depth ++ ':' :: ' ' :: entry.2.layout ink indent depth := by
  induction entries with
  | nil => rfl
  | cons entry rest ih => simp [entryLayouts, ih]

/-- Arguments are printed one by one after splicing. -/
theorem printArgs_eq (indent depth : Nat) (args : List Expr) :
    printArgs indent depth args = (splice args).mapM (print indent depth) := by
  induction args using argsInduction with
  | nil => simp [printArgs, pure, Except.pure]
  | group items rest ihitems ihrest => simp [printArgs, ihitems, ihrest]
  | cons e rest he ih => simp [splice_cons he, printArgs.eq_3 indent depth e rest he, ih]

/-- Items are printed one by one. -/
theorem printItems_eq (indent depth : Nat) (items : List Expr) :
    printItems indent depth items = items.mapM (print indent depth) := by
  induction items with
  | nil => simp [printItems, pure, Except.pure]
  | cons e rest ih => simp [printItems, ih]

/-- Entries are printed one by one. -/
theorem printEntries_eq (indent depth : Nat) (entries : List (Expr × Expr)) :
    printEntries indent depth entries = entries.mapM fun entry => do
      let key ← entry.1.print indent depth
      let value ← entry.2.print indent depth
      return key ++ ':' :: ' ' :: value := by
  induction entries with
  | nil => simp [printEntries, pure, Except.pure]
  | cons entry rest ih => simp [printEntries, ih]

/-- An expression is printed exactly if it is well-formed, at every place. -/
theorem print_eq_ok_iff (e : Expr) (indent depth : Nat) (text : List Char) :
    e.print indent depth = .ok text ↔
      e.wellFormed = true ∧ e.layout .source indent depth = text := by
  induction e using spliceInduction generalizing indent depth text with
  | call name args ih =>
      have hargs := fun i d => mapM_eq_ok_iff fun a ha => ih a ha i d
      simp only [print, bind_eq_ok_iff, pure_eq_ok_iff, printName_eq_ok_iff, printArgs_eq, hargs,
        wellFormed, argsWellFormed_eq, layout, argLayouts_eq, Bool.and_eq_true]
      simp [and_assoc]
  | packageCall package name args ih =>
      have hargs := fun i d => mapM_eq_ok_iff fun a ha => ih a ha i d
      simp only [print, bind_eq_ok_iff, pure_eq_ok_iff, printName_eq_ok_iff, printArgs_eq, hargs,
        wellFormed, argsWellFormed_eq, layout, argLayouts_eq, Bool.and_eq_true]
      simp [and_assoc]
  | methodCall receiver name args ihreceiver ih =>
      have hargs := fun i d => mapM_eq_ok_iff fun a ha => ih a ha i d
      -- The name is checked before the receiver is printed unless the receiver is a call.
      cases hcall : receiver.isCall with
      | true =>
          simp only [print, hcall, if_true, bind_eq_ok_iff, pure_eq_ok_iff, printName_eq_ok_iff,
            ihreceiver, printArgs_eq, hargs, wellFormed, argsWellFormed_eq, layout, argLayouts_eq,
            Bool.and_eq_true]
          simp [and_assoc]
      | false =>
          simp only [print, hcall, Bool.false_eq_true, if_false, bind_eq_ok_iff, pure_eq_ok_iff,
            printName_eq_ok_iff, ihreceiver, printArgs_eq, hargs, wellFormed, argsWellFormed_eq,
            layout, argLayouts_eq, Bool.and_eq_true]
          simp [and_assoc, and_left_comm]
  | ident name => simpa only [print, wellFormed, layout] using printName_eq_ok_iff
  | qualified package name =>
      simp only [print, bind_eq_ok_iff, pure_eq_ok_iff, printName_eq_ok_iff, wellFormed, layout]
      simp
  | literal value => simpa only [print, wellFormed, layout] using value.print_eq_ok_iff text
  | list element items ih =>
      have hitems := mapM_eq_ok_iff fun a ha => ih a ha indent (depth + 1)
      simp only [print, bind_eq_ok_iff, pure_eq_ok_iff, TypeExpr.print_eq_ok_iff, printItems_eq,
        hitems, wellFormed, itemsWellFormed_eq, layout, itemLayouts_eq, Bool.and_eq_true]
      simp [and_assoc]
  | map key value entries ih =>
      have hentry : ∀ entry ∈ entries, ∀ text, (do
            let key ← entry.1.print indent (depth + 1)
            let value ← entry.2.print indent (depth + 1)
            return key ++ ':' :: ' ' :: value : Printed) = .ok text ↔
          (entry.1.wellFormed && entry.2.wellFormed) = true ∧
            entry.1.layout .source indent (depth + 1) ++
              ':' :: ' ' :: entry.2.layout .source indent (depth + 1) = text := by
        intro entry he text
        simp only [bind_eq_ok_iff, pure_eq_ok_iff, (ih entry he).1, (ih entry he).2,
          Bool.and_eq_true]
        simp [and_assoc]
      have hentries := mapM_eq_ok_iff hentry
      simp only [print, bind_eq_ok_iff, pure_eq_ok_iff, TypeExpr.print_eq_ok_iff, printEntries_eq,
        hentries, wellFormed, entriesWellFormed_eq, layout, TypeExpr.layout, entryLayouts_eq,
        Bool.and_eq_true]
      simp [and_assoc]
  | group items => simp [print, wellFormed]
  | type value => simpa only [print, wellFormed, layout] using value.print_eq_ok_iff text
  | unary op operand ih =>
      simp only [print, bind_eq_ok_iff, pure_eq_ok_iff, ih, wellFormed, layout]
      simp
  | binary op left right ihleft ihright =>
      simp only [print, bind_eq_ok_iff, pure_eq_ok_iff, ihleft, ihright, wellFormed, layout,
        Bool.and_eq_true]
      simp [and_assoc]

end Expr

/-! ## Statements -/

namespace Stmt

/-- Induction over statements, with the parts of a statement taken as members. -/
@[elab_as_elim]
theorem bodyInduction {P : Stmt → Prop}
    (expr : ∀ value, P (.expr value))
    (define : ∀ names value, P (.define names value))
    (result : ∀ value, P (.return value))
    (branch : ∀ init condition body, (∀ s ∈ init, P s) → (∀ s ∈ body, P s) →
      P (.if init condition body))
    (go : ∀ body, (∀ s ∈ body, P s) → P (.go body))
    (defer : ∀ body, (∀ s ∈ body, P s) → P (.defer body))
    (deferCall : ∀ call, P (.deferCall call))
    (blank : P .blank)
    (s : Stmt) : P s := by
  refine @Stmt.rec P (fun o => ∀ s ∈ o, P s) (fun l => ∀ s ∈ l, P s) expr define result branch go
    defer deferCall blank ?_ ?_ ?_ ?_ s
  · simp
  · intro s hs
    simpa using hs
  · simp
  · intro head tail ihhead ihtail
    exact List.forall_mem_cons.2 ⟨ihhead, ihtail⟩

mutual
/-- Whether a statement can be printed. -/
def wellFormed : Stmt → Bool
  | .expr value => value.wellFormed
  | .define names value => names.all (isIdentifier ·.toList) && value.wellFormed
  | .return value => value.all Expr.wellFormed
  | .if init condition body => initWellFormed init && condition.wellFormed && bodyWellFormed body
  | .go body => bodyWellFormed body
  | .defer body => bodyWellFormed body
  | .deferCall call => call.wellFormed
  | .blank => true

/-- Whether the statement in front of a condition can be printed. -/
def initWellFormed : Option Stmt → Bool
  | none => true
  | some s => s.wellFormed

/-- Whether the statements of a block can be printed. -/
def bodyWellFormed : List Stmt → Bool
  | [] => true
  | s :: rest => s.wellFormed && bodyWellFormed rest
end

/-- The statements of a block can be printed if each of them can. -/
theorem bodyWellFormed_eq (body : List Stmt) : bodyWellFormed body = body.all wellFormed := by
  induction body with
  | nil => rfl
  | cons s rest ih => simp [bodyWellFormed, ih]

mutual
/-- The layout of a statement on a line with the given indentation. -/
def layout (ink : Ink) (indent : Nat) : Stmt → List Char
  | .expr value => value.layout ink indent 0
  | .define names value =>
      commaSeparated (names.map String.toList) ++ [' ', ':', '=', ' '] ++ value.layout ink indent 0
  | .return none => ['r', 'e', 't', 'u', 'r', 'n']
  | .return (some value) => ['r', 'e', 't', 'u', 'r', 'n', ' '] ++ value.layout ink indent 0
  | .if init condition body =>
      ['i', 'f', ' '] ++ initLayout ink indent init ++ condition.layout ink indent 0
        ++ layoutBlock indent (bodyLayout ink (indent + 1) body)
  | .go body =>
      ['g', 'o', ' ', 'f', 'u', 'n', 'c', '(', ')']
        ++ layoutBlock indent (bodyLayout ink (indent + 1) body) ++ ['(', ')']
  | .defer body =>
      ['d', 'e', 'f', 'e', 'r', ' ', 'f', 'u', 'n', 'c', '(', ')']
        ++ layoutBlock indent (bodyLayout ink (indent + 1) body) ++ ['(', ')']
  | .deferCall call => ['d', 'e', 'f', 'e', 'r', ' '] ++ call.layout ink indent 0
  | .blank => []

/-- The layout of the statement in front of a condition. -/
def initLayout (ink : Ink) (indent : Nat) : Option Stmt → List Char
  | none => []
  | some s => s.layout ink indent ++ [';', ' ']

/-- The layout of the statements of a block, each on a line of its own. -/
def bodyLayout (ink : Ink) (indent : Nat) : List Stmt → List Char
  | [] => []
  | .blank :: rest => '\n' :: bodyLayout ink indent rest
  | s :: rest => newline indent ++ s.layout ink indent ++ bodyLayout ink indent rest
end

/-- The line of a statement in a block. -/
def lineLayout (ink : Ink) (indent : Nat) : Stmt → List Char
  | .blank => ['\n']
  | s => newline indent ++ s.layout ink indent

/-- A block is laid out line by line. -/
theorem bodyLayout_eq (ink : Ink) (indent : Nat) (body : List Stmt) :
    bodyLayout ink indent body = body.flatMap (lineLayout ink indent) := by
  induction body with
  | nil => rfl
  | cons s rest ih => cases s <;> simp [bodyLayout, lineLayout, ih]

/-- Names are printed exactly if all of them are identifiers. -/
theorem printNames_eq_ok_iff (names : List String) (texts : List (List Char)) :
    printNames names = .ok texts ↔
      names.all (isIdentifier ·.toList) = true ∧ names.map String.toList = texts := by
  have hmap : printNames names = names.mapM printName := by
    induction names with
    | nil => simp [printNames, pure, Except.pure]
    | cons name rest ih => simp [printNames, ih]
  rw [hmap]
  exact mapM_eq_ok_iff (fun _ _ _ => printName_eq_ok_iff) texts

/-- The statements of a block are printed exactly if each of them is. -/
theorem printBody_eq_ok_iff {body : List Stmt}
    (h : ∀ s ∈ body, ∀ indent text, s.print indent = .ok text ↔
      s.wellFormed = true ∧ s.layout .source indent = text) (indent : Nat) (text : List Char) :
    printBody indent body = .ok text ↔
      bodyWellFormed body = true ∧ bodyLayout .source indent body = text := by
  induction body generalizing text with
  | nil => simp [printBody, bodyWellFormed, bodyLayout]
  | cons s rest ih =>
      have hs := h s List.mem_cons_self
      have hrest := ih fun s hs => h s (List.mem_cons_of_mem _ hs)
      by_cases hblank : s = .blank
      · subst hblank
        simp only [printBody, bind_eq_ok_iff, pure_eq_ok_iff, hrest, bodyWellFormed, wellFormed,
          bodyLayout]
        simp
      · simp only [printBody.eq_3 indent s rest hblank, bind_eq_ok_iff, pure_eq_ok_iff, hs, hrest,
          bodyWellFormed, bodyLayout.eq_3 .source indent s rest hblank, Bool.and_eq_true]
        simp [and_assoc]

/-- A statement is printed exactly if it is well-formed, at every indentation. -/
theorem print_eq_ok_iff (s : Stmt) (indent : Nat) (text : List Char) :
    s.print indent = .ok text ↔ s.wellFormed = true ∧ s.layout .source indent = text := by
  induction s using bodyInduction generalizing indent text with
  | expr value => simpa only [print, wellFormed, layout] using value.print_eq_ok_iff indent 0 text
  | define names value =>
      simp only [print, bind_eq_ok_iff, pure_eq_ok_iff, printNames_eq_ok_iff, Expr.print_eq_ok_iff,
        wellFormed, layout, Bool.and_eq_true]
      simp [and_assoc]
  | result value =>
      cases value with
      | none => simp [print, wellFormed, layout]
      | some value =>
          simp only [print, bind_eq_ok_iff, pure_eq_ok_iff, Expr.print_eq_ok_iff, wellFormed,
            layout]
          simp
  | branch init condition body ihinit ihbody =>
      have hinit : ∀ text, printInit indent init = .ok text ↔
          initWellFormed init = true ∧ initLayout .source indent init = text := by
        intro text
        cases init with
        | none => simp [printInit, initWellFormed, initLayout]
        | some s =>
            simp only [printInit, bind_eq_ok_iff, pure_eq_ok_iff, ihinit s rfl, initWellFormed,
              initLayout]
            simp
      simp only [print, bind_eq_ok_iff, pure_eq_ok_iff, hinit, Expr.print_eq_ok_iff,
        printBody_eq_ok_iff ihbody, wellFormed, layout, Bool.and_eq_true]
      simp [and_assoc]
  | go body ih | defer body ih =>
      simp only [print, bind_eq_ok_iff, pure_eq_ok_iff, printBody_eq_ok_iff ih, wellFormed, layout]
      simp
  | deferCall call =>
      simp only [print, bind_eq_ok_iff, pure_eq_ok_iff, Expr.print_eq_ok_iff, wellFormed, layout]
      simp
  | blank => simp [print, wellFormed, layout]

end Stmt

/-! ## Functions and files -/

/-- Whether a function can be printed. -/
def Func.wellFormed (f : Func) : Bool :=
  isIdentifier f.name.toList && f.results.all TypeExpr.wellFormed && f.body.all Stmt.wellFormed

/-- The line that opens a function, up to its block. -/
def Func.signature (f : Func) : List Char :=
  ['f', 'u', 'n', 'c', ' '] ++ f.name.toList ++ ['(', ')']
    ++ layoutResults (f.results.map TypeExpr.layout)

/-- The layout of a function. -/
def Func.layout (ink : Ink) (f : Func) : List Char :=
  f.doc.flatMap ink.comment ++ f.signature
    ++ layoutBlock 0 (f.body.flatMap (Stmt.lineLayout ink 1)) ++ ['\n']

/-- Types are printed exactly if all of them are well-formed. -/
theorem printTypes_eq_ok_iff (types : List TypeExpr) (texts : List (List Char)) :
    printTypes types = .ok texts ↔
      types.all TypeExpr.wellFormed = true ∧ types.map TypeExpr.layout = texts := by
  have hmap : printTypes types = types.mapM TypeExpr.print := by
    induction types with
    | nil => simp [printTypes, pure, Except.pure]
    | cons t rest ih => simp [printTypes, ih]
  rw [hmap]
  exact mapM_eq_ok_iff (fun t _ text => t.print_eq_ok_iff text) texts

/-- A function is printed exactly if it is well-formed. -/
theorem Func.print_eq_ok_iff (f : Func) (text : List Char) :
    f.print = .ok text ↔ f.wellFormed = true ∧ f.layout .source = text := by
  simp only [print, bind_eq_ok_iff, pure_eq_ok_iff, printName_eq_ok_iff, printTypes_eq_ok_iff,
    Stmt.printBody_eq_ok_iff (fun s _ => s.print_eq_ok_iff), Stmt.bodyWellFormed_eq,
    Stmt.bodyLayout_eq, wellFormed, layout, signature, Bool.and_eq_true]
  simp [and_assoc, Ink.source]

/-- The layout of functions, each after an empty line. -/
def funcsLayout (ink : Ink) (funcs : List Func) : List Char :=
  funcs.flatMap fun f => '\n' :: f.layout ink

/-- Functions are printed exactly if all of them are well-formed. -/
theorem printFuncs_eq_ok_iff (funcs : List Func) (text : List Char) :
    printFuncs funcs = .ok text ↔
      funcs.all Func.wellFormed = true ∧ funcsLayout .source funcs = text := by
  induction funcs generalizing text with
  | nil => simp [printFuncs, funcsLayout]
  | cons f rest ih =>
      simp only [printFuncs, bind_eq_ok_iff, pure_eq_ok_iff, Func.print_eq_ok_iff, ih,
        List.all_cons, Bool.and_eq_true, funcsLayout, List.flatMap_cons]
      simp [and_assoc]

/-- The layout of the comment at the top of a file. -/
def headerLayout (ink : Ink) (lines : List String) : List Char :=
  if lines.isEmpty then [] else lines.flatMap ink.comment ++ ['\n']

/-- The layout of the line of an import. -/
def importLayout (ink : Ink) (path : String) : List Char :=
  '\t' :: ink.string path.toList ++ ['\n']

/-- The layout of the import block of a file; without imports there is none. -/
def importsLayout (ink : Ink) (groups : List (List String)) : List Char :=
  if groups.isEmpty then []
  else
    ['\n', 'i', 'm', 'p', 'o', 'r', 't', ' ', '(', '\n']
      ++ ['\n'].intercalate (groups.map fun paths => paths.flatMap (importLayout ink))
      ++ [')', '\n']

namespace File

/-- Whether a file can be printed. -/
def wellFormed (f : File) : Bool :=
  isIdentifier f.package.toList && f.funcs.all Func.wellFormed

/-- The layout of the top of a file: its comment and its package clause. -/
def frontLayout (ink : Ink) (f : File) : List Char :=
  headerLayout ink f.header ++ ['p', 'a', 'c', 'k', 'a', 'g', 'e', ' '] ++ f.package.toList
    ++ ['\n']

/-- The layout of a file. -/
def layout (ink : Ink) (root : String) (f : File) : List Char :=
  f.frontLayout ink ++ importsLayout ink (importGroups root f.packages) ++ funcsLayout ink f.funcs

/-- A file is printed exactly if it is well-formed, and its text is its layout. -/
theorem print_eq_ok_iff (root : String) (f : File) (text : List Char) :
    f.print root = .ok text ↔ f.wellFormed = true ∧ f.layout .source root = text := by
  have himports : ∀ groups, printImports groups = importsLayout .source groups := by
    intro groups
    simp only [printImports, importsLayout]
    rfl
  have hheader : printHeader f.header = headerLayout .source f.header := rfl
  simp only [print, bind_eq_ok_iff, pure_eq_ok_iff, printName_eq_ok_iff, printFuncs_eq_ok_iff,
    himports, hheader, wellFormed, layout, frontLayout, Bool.and_eq_true]
  simp [and_assoc]

end File
end Program
end Stackwright
