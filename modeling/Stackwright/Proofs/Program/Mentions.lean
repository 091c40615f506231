import Stackwright.Proofs.Program.Blanking
import Stackwright.Proofs.Program.ImportPath
import Stackwright.Proofs.Program.Qualifiers

/-!
# The packages that code mentions

The packages of a tree are collected from its nodes, and the qualifiers of its
code are read off its text.  Both agree: every package of the tree is a qualifier
in the code, and a qualifier that is the name of a package belongs to a package
of the tree, unless the tree has that name for something of its own.

Main results:

- Theorem `Expr.mentions_layout`: the packages that an expression mentions.
- Theorem `mentions_funcsLayout`: the packages that functions mention.
-/

namespace Stackwright
namespace Program

open Cursor

/-! ## Names on their own -/

/-- The names in a type that stand on their own. -/
def TypeExpr.bareNames : TypeExpr → List String
  | .named name => [name]
  | .qualified _ _ => []
  | .pointer target => target.bareNames
  | .slice element => element.bareNames
  | .map key value => key.bareNames ++ value.bareNames
  | .chan element => element.bareNames

namespace Expr

mutual
/-- The names in an expression that stand on their own, as a value or as a type. -/
def bareNames : Expr → List String
  | .call _ args => bareNamesOf args
  | .packageCall _ _ args => bareNamesOf args
  | .methodCall receiver _ args => receiver.bareNames ++ bareNamesOf args
  | .ident name => [name]
  | .qualified _ _ => []
  | .literal _ => []
  | .list element items => element.bareNames ++ bareNamesOf items
  | .map key value entries => key.bareNames ++ value.bareNames ++ entryBareNames entries
  | .group items => bareNamesOf items
  | .type value => value.bareNames
  | .unary _ operand => operand.bareNames
  | .binary _ left right => left.bareNames ++ right.bareNames

/-- The names in a list of expressions that stand on their own. -/
def bareNamesOf : List Expr → List String
  | [] => []
  | e :: rest => e.bareNames ++ bareNamesOf rest

/-- The names in the entries of a map that stand on their own. -/
def entryBareNames : List (Expr × Expr) → List String
  | [] => []
  | (key, value) :: rest => key.bareNames ++ value.bareNames ++ entryBareNames rest
end

theorem packagesOf_eq (items : List Expr) : packagesOf items = items.flatMap packages := by
  induction items with
  | nil => rfl
  | cons e rest ih => rw [packagesOf, ih, List.flatMap_cons]

theorem bareNamesOf_eq (items : List Expr) : bareNamesOf items = items.flatMap bareNames := by
  induction items with
  | nil => rfl
  | cons e rest ih => rw [bareNamesOf, ih, List.flatMap_cons]

/-- Splicing keeps the packages of arguments. -/
theorem packagesOf_splice (args : List Expr) :
    packagesOf args = (splice args).flatMap packages := by
  induction args using argsInduction with
  | nil => rfl
  | group items rest ihitems ihrest =>
      rw [packagesOf, packages, ihitems, ihrest, splice_group_cons, List.flatMap_append]
  | cons e rest he ih => rw [packagesOf, ih, splice_cons he, List.flatMap_cons]

/-- Splicing keeps the names in arguments that stand on their own. -/
theorem bareNamesOf_splice (args : List Expr) :
    bareNamesOf args = (splice args).flatMap bareNames := by
  induction args using argsInduction with
  | nil => rfl
  | group items rest ihitems ihrest =>
      rw [bareNamesOf, bareNames, ihitems, ihrest, splice_group_cons, List.flatMap_append]
  | cons e rest he ih => rw [bareNamesOf, ih, splice_cons he, List.flatMap_cons]

theorem entryPackages_eq (entries : List (Expr × Expr)) :
    entryPackages entries = entries.flatMap fun entry => entry.1.packages ++ entry.2.packages := by
  induction entries with
  | nil => rfl
  | cons entry rest ih => rw [entryPackages, ih, List.flatMap_cons]

theorem entryBareNames_eq (entries : List (Expr × Expr)) :
    entryBareNames entries
      = entries.flatMap fun entry => entry.1.bareNames ++ entry.2.bareNames := by
  induction entries with
  | nil => rfl
  | cons entry rest ih => rw [entryBareNames, ih, List.flatMap_cons]

end Expr

namespace Stmt

mutual
/-- The names in the expressions of a statement that stand on their own. -/
def bareNames : Stmt → List String
  | .expr value => value.bareNames
  | .define _ value => value.bareNames
  | .return value => (value.map Expr.bareNames).getD []
  | .if init condition body => initBareNames init ++ condition.bareNames ++ bareNamesOf body
  | .go body => bareNamesOf body
  | .defer body => bareNamesOf body
  | .deferCall call => call.bareNames
  | .blank => []

/-- The names in an optional statement that stand on their own. -/
def initBareNames : Option Stmt → List String
  | none => []
  | some s => s.bareNames

/-- The names in a list of statements that stand on their own. -/
def bareNamesOf : List Stmt → List String
  | [] => []
  | s :: rest => s.bareNames ++ bareNamesOf rest
end

theorem packagesOf_eq (body : List Stmt) : packagesOf body = body.flatMap packages := by
  induction body with
  | nil => rfl
  | cons s rest ih => rw [packagesOf, ih, List.flatMap_cons]

theorem bareNamesOf_eq (body : List Stmt) : bareNamesOf body = body.flatMap bareNames := by
  induction body with
  | nil => rfl
  | cons s rest ih => rw [bareNamesOf, ih, List.flatMap_cons]

end Stmt

/-- The names in a function that stand on their own. -/
def Func.bareNames (f : Func) : List String :=
  f.results.flatMap TypeExpr.bareNames ++ Stmt.bareNamesOf f.body

/-- The names in a file that stand on their own, as a value or as a type. -/
def File.bareNames (f : File) : List String :=
  f.funcs.flatMap Func.bareNames

/-! ## Texts -/

/-- A text mentions packages: they are qualifiers in it, and no other package is, except by a
name that stands on its own. -/
structure Mentions (text : List Char) (used : List Package) (bare : List String) : Prop where
  complete : ∀ p ∈ used, p.name.toList ∈ fresh.names text
  sound : ∀ p : Package, p.name.toList ∈ fresh.names text → p ∈ used ∨ p.name ∈ bare
  /-- A name that is not yet ended may become a qualifier. -/
  last : ∀ p : Package, fresh.after text = .word p.name.toList → p.name ∈ bare

/-- Whether a text starts with a character that ends a name. -/
def startsWithBreak (text : List Char) : Bool :=
  text.head?.any isBreak

theorem startsWithBreak_append {a : List Char} (h : startsWithBreak a = true) (b : List Char) :
    startsWithBreak (a ++ b) = true := by
  cases a with
  | nil => cases h
  | cons c rest => exact h

/-- Breaks leave no name open. -/
theorem after_replicate {c : Char} (hc : isBreak c = true) (n : Nat) :
    fresh.after (List.replicate n c) = .fresh := by
  induction n with
  | zero => rfl
  | succ n ih => rw [List.replicate_succ, after_cons, next_of_isBreak hc, ih]

theorem after_newline (indent : Nat) : fresh.after (newline indent) = .fresh := by
  rw [newline, after_cons, next_of_isBreak (by decide), after_replicate (by decide)]

namespace Mentions

variable {a b : List Char} {used used' : List Package} {bare bare' : List String}

theorem nil : Mentions [] [] [] where
  complete := by simp
  sound := by simp [names]
  last := by simp

/-- A text without a dot after which nothing is left open. -/
theorem quiet (hdot : '.' ∉ a) (hafter : fresh.after a = .fresh) : Mentions a [] [] where
  complete := by simp
  sound := by simp [names_of_notMem hdot]
  last := by simp [hafter]

/-- Texts that are read independently of each other. -/
theorem join (ha : Mentions a used bare) (hb : Mentions b used' bare')
    (hnames : fresh.names (a ++ b) = fresh.names a ++ fresh.names b)
    (hafter : fresh.after (a ++ b) = fresh.after b) :
    Mentions (a ++ b) (used ++ used') (bare ++ bare') where
  complete p hp := by
    rw [hnames, List.mem_append]
    exact (List.mem_append.1 hp).imp (ha.complete p) (hb.complete p)
  sound p hp := by
    rw [hnames, List.mem_append] at hp
    rw [List.mem_append, List.mem_append]
    rcases hp with hp | hp
    · exact (ha.sound p hp).imp .inl .inl
    · exact (hb.sound p hp).imp .inr .inr
  last p hp := List.mem_append_right _ (hb.last p (hafter ▸ hp))

/-- Texts of which the first leaves no name open. -/
theorem appendAfter (ha : Mentions a used bare) (hafter : fresh.after a = .fresh)
    (hb : Mentions b used' bare') : Mentions (a ++ b) (used ++ used') (bare ++ bare') :=
  join ha hb (by rw [names_append, hafter]) (by rw [after_append, hafter])

/-- Texts of which the second ends the name that the first leaves open. -/
theorem append (ha : Mentions a used bare) (hb : Mentions b used' bare')
    (hbreak : startsWithBreak b = true) :
    Mentions (a ++ b) (used ++ used') (bare ++ bare') := by
  cases b with
  | nil => cases hbreak
  | cons c rest =>
      have hc : isBreak c = true := hbreak
      refine join ha hb ?_ ?_
      · rw [names_append_break hc, names_cons_of_isBreak hc]
      · rw [after_append_break hc, after_cons, next_of_isBreak hc]

/-- A break in front of a text. -/
theorem cons {c : Char} (hc : isBreak c = true) (hb : Mentions b used bare) :
    Mentions (c :: b) used bare where
  complete p hp := by
    rw [names_cons_of_isBreak hc]
    exact hb.complete p hp
  sound p hp := by
    rw [names_cons_of_isBreak hc] at hp
    exact hb.sound p hp
  last p hp := by
    rw [after_cons, next_of_isBreak hc] at hp
    exact hb.last p hp

/-- A break behind a text. -/
theorem concat (ha : Mentions a used bare) {c : Char} (hc : isBreak c = true) :
    Mentions (a ++ [c]) used bare := by
  simpa using ha.append (nil.cons hc) hc

/-- A text without a dot in front of a break is passed over. -/
theorem skip (hdot : '.' ∉ a) (hb : Mentions b used bare) (hbreak : startsWithBreak b = true) :
    Mentions (a ++ b) used bare := by
  cases b with
  | nil => cases hbreak
  | cons c rest =>
      have hc : isBreak c = true := hbreak
      have hnames : fresh.names (a ++ c :: rest) = fresh.names (c :: rest) := by
        rw [names_append_break hc, names_of_notMem hdot, names_cons_of_isBreak hc]
        rfl
      constructor
      · intro p hp
        rw [hnames]
        exact hb.complete p hp
      · intro p hp
        rw [hnames] at hp
        exact hb.sound p hp
      · intro p hp
        rw [after_append_break hc] at hp
        apply hb.last p
        rw [after_cons, next_of_isBreak hc]
        exact hp

/-- A dot makes a qualifier of a name that stands on its own, and the name after it is none. -/
theorem member (ha : Mentions a used bare) {name : List Char}
    (hname : ∀ c ∈ name, isIdentChar c = true) : Mentions (a ++ '.' :: name) used bare := by
  have hdot : '.' ∉ name := fun h => ne_dot_of_isIdentChar (hname _ h) rfl
  have hnames : fresh.names (a ++ '.' :: name) = fresh.names a ++ (fresh.after a).found '.' := by
    rw [names_append, names, names_of_notMem hdot, List.append_nil]
  constructor
  · intro p hp
    rw [hnames]
    exact List.mem_append_left _ (ha.complete p hp)
  · intro p hp
    rw [hnames, List.mem_append] at hp
    rcases hp with hp | hp
    · exact ha.sound p hp
    · right
      apply ha.last p
      cases hplace : fresh.after a with
      | word name =>
          rw [hplace] at hp
          rw [List.mem_singleton.1 hp]
      | fresh =>
          rw [hplace] at hp
          cases hp
      | stale =>
          rw [hplace] at hp
          cases hp
  · intro p hp
    have hstale : (fresh.after a).next '.' = .stale := rfl
    rw [after_append, after_cons, hstale, after_stale hname] at hp
    cases hp

/-- Lines, each of which starts with a break. -/
theorem flatMap {α : Type} {l : List α} {f : α → List Char} {used : α → List Package}
    {bare : α → List String} (h : ∀ x ∈ l, Mentions (f x) (used x) (bare x))
    (hbreak : ∀ x ∈ l, startsWithBreak (f x) = true) :
    Mentions (l.flatMap f) (l.flatMap used) (l.flatMap bare) := by
  induction l with
  | nil => exact nil
  | cons x rest ih =>
      have hx := h x List.mem_cons_self
      cases rest with
      | nil => simpa using hx
      | cons y rest =>
          have hrest := ih (fun z hz => h z (List.mem_cons_of_mem _ hz))
            fun z hz => hbreak z (List.mem_cons_of_mem _ hz)
          have hstart : startsWithBreak ((y :: rest).flatMap f) = true := by
            rw [List.flatMap_cons]
            exact startsWithBreak_append (hbreak y (List.mem_cons_of_mem _ List.mem_cons_self)) _
          exact hx.append hrest hstart

/-- Texts with commas between them. -/
theorem commaSeparated {α : Type} {l : List α} {f : α → List Char} {used : α → List Package}
    {bare : α → List String} (h : ∀ x ∈ l, Mentions (f x) (used x) (bare x)) :
    Mentions (commaSeparated (l.map f)) (l.flatMap used) (l.flatMap bare) := by
  induction l with
  | nil => exact nil
  | cons x rest ih =>
      have hx := h x List.mem_cons_self
      cases rest with
      | nil => simpa [Program.commaSeparated] using hx
      | cons y rest =>
          have hrest := ih fun z hz => h z (List.mem_cons_of_mem _ hz)
          have htail := hrest.cons (c := ' ') (by decide) |>.cons (c := ',') (by decide)
          exact hx.append htail rfl

theorem newline (indent : Nat) : Mentions (newline indent) [] [] :=
  quiet (by simp [Program.newline]) (after_newline indent)

theorem parenthesize (needed : Bool) (ha : Mentions a used bare) :
    Mentions (parenthesize needed a) used bare := by
  cases needed with
  | false => exact ha
  | true => exact (ha.cons (by decide)).concat (by decide)

/-- A block around the lines of its statements. -/
theorem layoutBlock (indent : Nat) (ha : Mentions a used bare) :
    Mentions (layoutBlock indent a) used bare := by
  have hend := (newline indent).concat (c := '\x7d') (by decide)
  have hbody : Mentions (a ++ (Program.newline indent ++ ['\x7d'])) used bare := by
    simpa using ha.append hend rfl
  have hopen := (hbody.cons (c := '\x7b') (by decide)).cons (c := ' ') (by decide)
  simpa [Program.layoutBlock] using hopen

/-- A block behind a text, called at once. -/
theorem funcLiteral (indent : Nat) {front : List Char} (hfront : Mentions front [] [])
    (ha : Mentions a used bare) :
    Mentions (front ++ Program.layoutBlock indent a ++ ['(', ')']) used bare := by
  have hcall : Mentions ['(', ')'] [] [] := .quiet (by decide) (by decide)
  simpa using (hfront.append (ha.layoutBlock indent) rfl).append hcall rfl

/-- The arguments of a call, on one line or on a line each. -/
theorem layoutArgs {α : Type} {l : List α} {f : α → List Char} {used : α → List Package}
    {bare : α → List String} (indent : Nat) (broken : Bool)
    (h : ∀ x ∈ l, Mentions (f x) (used x) (bare x)) :
    Mentions (layoutArgs indent broken (l.map f)) (l.flatMap used) (l.flatMap bare) := by
  cases broken with
  | false => exact ((commaSeparated h).cons (by decide)).concat (by decide)
  | true =>
      have hlines : Mentions (l.flatMap fun x => Program.newline (indent + 1) ++ f x ++ [','])
          (l.flatMap used) (l.flatMap bare) := by
        refine flatMap (fun x hx => ?_) fun x _ => rfl
        exact ((newline (indent + 1)).appendAfter (after_newline _) (h x hx)).concat (by decide)
      have hend := (newline indent).concat (c := ')') (by decide)
      have hbody := (hlines.append hend rfl).cons (c := '(') (by decide)
      simpa [Program.layoutArgs, List.flatMap_map] using hbody

end Mentions

theorem startsWithBreak_layoutArgs (indent : Nat) (broken : Bool) (args : List (List Char)) :
    startsWithBreak (layoutArgs indent broken args) = true := by
  cases broken <;> rfl

/-! ## Names and literals -/

namespace Package

theorem name_ne_nil (p : Package) : p.name.toList ≠ [] := by
  cases p <;> decide

theorem isIdentChar_of_mem_name (p : Package) : ∀ c ∈ p.name.toList, isIdentChar c = true := by
  rw [← List.all_eq_true]
  cases p <;> decide

end Package

theorem dot_notMem_of_isIdentifier {name : List Char} (h : isIdentifier name = true) :
    '.' ∉ name :=
  fun hmem => ne_dot_of_isIdentChar (isIdentChar_of_mem h hmem) rfl

/-- A name that stands on its own. -/
theorem mentions_name {name : String} (h : isIdentifier name.toList = true) :
    Mentions name.toList [] [name] := by
  constructor
  · simp
  · simp [names_of_notMem (dot_notMem_of_isIdentifier h)]
  · intro p hp
    have hne : name.toList ≠ [] := by
      intro hnil
      rw [hnil] at h
      cases h
    rw [after_name hne fun c hc => isIdentChar_of_mem h hc, word.injEq, String.toList_inj] at hp
    exact List.mem_singleton.2 hp.symm

/-- A word of the language mentions nothing. -/
theorem mentions_keyword {text : List Char} (hdot : '.' ∉ text)
    (h : ∀ p ∈ Package.all, fresh.after text ≠ .word p.name.toList) : Mentions text [] [] where
  complete := by simp
  sound := by simp [names_of_notMem hdot]
  last p hp := absurd hp (h p p.mem_all)

/-- A name of a package. -/
theorem mentions_qualified (package : Package) {name : List Char}
    (h : ∀ c ∈ name, isIdentChar c = true) : Mentions (qualifier package ++ name) [package] [] := by
  have hdot : ∀ {word : List Char}, (∀ c ∈ word, isIdentChar c = true) → '.' ∉ word :=
    fun hword hmem => ne_dot_of_isIdentChar (hword _ hmem) rfl
  have hafter := after_name package.name_ne_nil package.isIdentChar_of_mem_name
  have htext : qualifier package ++ name = package.name.toList ++ '.' :: name := by
    rw [qualifier, List.append_assoc, List.singleton_append]
  have hnames : fresh.names (qualifier package ++ name) = [package.name.toList] := by
    rw [htext, names_append, hafter, names_of_notMem (hdot package.isIdentChar_of_mem_name), names,
      names_of_notMem (hdot h)]
    rfl
  constructor
  · intro p hp
    rw [hnames, List.mem_singleton.1 hp]
    exact List.mem_singleton_self _
  · intro p hp
    rw [hnames, List.mem_singleton] at hp
    exact .inl (List.mem_singleton.2 (Package.name_injective hp))
  · intro p hp
    have hstale : (word package.name.toList).next '.' = .stale := rfl
    rw [htext, after_append, hafter, after_cons, hstale, after_stale h] at hp
    cases hp

/-- A number mentions nothing. -/
theorem mentions_number {text : List Char} (h : IsNumber text) : Mentions text [] [] := by
  -- No package has a name of which a number could be made.
  have hname : ∀ p : Package, ¬ ∀ c ∈ p.name.toList, isNumberChar c = true := by
    intro p
    rw [← List.all_eq_true]
    cases p <;> decide
  have hfresh : fresh.Within isNumberChar := trivial
  constructor
  · simp
  · intro p hp
    exact absurd (hfresh.names h.chars hp) (hname p)
  · intro p hp
    have hwithin := hfresh.after h.chars
    rw [hp] at hwithin
    exact absurd hwithin (hname p)

/-- A type mentions its packages. -/
theorem TypeExpr.mentions_layout {t : TypeExpr} (h : t.wellFormed = true) :
    Mentions t.layout t.packages t.bareNames := by
  induction t with
  | named name => exact mentions_name h
  | qualified package name =>
      exact mentions_qualified package fun c hc => isIdentChar_of_mem h hc
  | pointer target ih => exact (ih h).cons (by decide)
  | slice element ih => exact ((ih h).cons (by decide)).cons (by decide)
  | map key value ihkey ihvalue =>
      rw [wellFormed, Bool.and_eq_true] at h
      have hword : Mentions ['m', 'a', 'p', '['] [] [] := .quiet (by decide) (by decide)
      exact (hword.appendAfter (by decide) (ihkey h.1)).append ((ihvalue h.2).cons (by decide)) rfl
  | chan element ih =>
      have hword : Mentions ['c', 'h', 'a', 'n', ' '] [] [] := .quiet (by decide) (by decide)
      exact hword.appendAfter (by decide) (ih h)

/-- A duration mentions the package of time units if it is not zero. -/
theorem mentions_printDuration (d : Duration) :
    Mentions (printDuration d) (if d.isZero then [] else [.time]) [] := by
  cases hzero : d.isZero with
  | true =>
      rw [printDuration_of_isZero hzero]
      exact mentions_keyword (by decide) (by decide)
  | false =>
      have hunits : ∀ unit ∈ timeUnitNames, ∀ c ∈ unit.toList, isIdentChar c = true := by
        simp only [← List.all_eq_true]
        decide
      obtain ⟨unit, hunit, hone | ⟨n, hmany⟩⟩ := printDuration_cases hzero
      · rw [hone]
        exact mentions_qualified .time (hunits unit hunit)
      · have hnumber := mentions_number (isNumber_decimal n)
        have htimes : Mentions [' ', '*', ' '] [] [] := .quiet (by decide) (by decide)
        have hunit := htimes.appendAfter (by decide) (mentions_qualified .time (hunits unit hunit))
        rw [hmany, List.append_assoc, List.append_assoc]
        exact hnumber.append hunit rfl

/-- A literal mentions its packages. -/
theorem Literal.mentions_layout (l : Literal) : Mentions (l.layout .blank) l.packages [] := by
  cases l with
  | string value => exact .quiet (by simp [layout, Ink.blank]) (after_replicate (by decide) _)
  | int value => exact mentions_number (isNumber_decimalInt value)
  | uint value => exact mentions_number (isNumber_decimal value)
  | float value => exact mentions_number (isNumber_float value)
  | bool value => cases value <;> exact mentions_keyword (by decide) (by decide)
  | fileMode value => exact mentions_number (isNumber_printFileMode value)
  | duration value => exact mentions_printDuration value
  | nil => exact mentions_keyword (by decide) (by decide)

/-! ## Expressions -/

namespace Expr

/-- An expression mentions its packages. -/
theorem mentions_layout {e : Expr} (h : e.wellFormed = true) (indent depth : Nat) :
    Mentions (e.layout .blank indent depth) e.packages e.bareNames := by
  induction e using spliceInduction generalizing indent depth with
  | call name args ih =>
      simp only [wellFormed, argsWellFormed_eq, Bool.and_eq_true, List.all_eq_true] at h
      simp only [layout, argLayouts_eq, packages, packagesOf_splice, bareNames,
        bareNamesOf_splice]
      exact .skip (dot_notMem_of_isIdentifier h.1)
        (.layoutArgs _ _ fun a ha => ih a ha (h.2 a ha) _ _) (startsWithBreak_layoutArgs _ _ _)
  | packageCall package name args ih =>
      simp only [wellFormed, argsWellFormed_eq, Bool.and_eq_true, List.all_eq_true] at h
      simp only [layout, argLayouts_eq, packages, packagesOf_splice, bareNames,
        bareNamesOf_splice]
      have hname := mentions_qualified package fun c hc => isIdentChar_of_mem h.1 hc
      exact hname.append (.layoutArgs _ _ fun a ha => ih a ha (h.2 a ha) _ _)
        (startsWithBreak_layoutArgs _ _ _)
  | methodCall receiver name args ihreceiver ih =>
      simp only [wellFormed, argsWellFormed_eq, Bool.and_eq_true, List.all_eq_true] at h
      obtain ⟨⟨hreceiver, hname⟩, hargs⟩ := h
      have hhead := ihreceiver hreceiver indent depth
      simp only [layout, argLayouts_eq, packages, packagesOf_splice, bareNames,
        bareNamesOf_splice]
      split
      · -- The dot ends a line, and the name is the first word of the next one.
        have hend : Mentions (receiver.layout .blank indent depth ++ ['.']) receiver.packages
            receiver.bareNames := hhead.member (by simp)
        rw [List.append_cons, List.append_assoc, List.append_assoc]
        refine hend.append ?_ rfl
        refine (Mentions.newline _).appendAfter (after_newline _) ?_
        exact .skip (dot_notMem_of_isIdentifier hname)
          (.layoutArgs _ _ fun a ha => ih a ha (hargs a ha) _ _) (startsWithBreak_layoutArgs _ _ _)
      · have hmember := hhead.member fun c hc => isIdentChar_of_mem hname hc
        exact hmember.append (.layoutArgs _ _ fun a ha => ih a ha (hargs a ha) _ _)
          (startsWithBreak_layoutArgs _ _ _)
  | ident name => exact mentions_name h
  | qualified package name =>
      exact mentions_qualified package fun c hc => isIdentChar_of_mem h hc
  | literal value => exact value.mentions_layout
  | list element items ih =>
      simp only [wellFormed, itemsWellFormed_eq, Bool.and_eq_true, List.all_eq_true] at h
      have hitems := Mentions.commaSeparated fun a ha => ih a ha (h.2 a ha) indent (depth + 1)
      have hslice := TypeExpr.mentions_layout (t := .slice element) h.1
      simp only [layout, itemLayouts_eq, packages, packagesOf_eq, bareNames, bareNamesOf_eq]
      exact (hslice.append (hitems.cons (by decide)) rfl).concat (by decide)
  | map key value entries ih =>
      simp only [wellFormed, entriesWellFormed_eq, Bool.and_eq_true, List.all_eq_true] at h
      have htype := TypeExpr.mentions_layout (t := .map key value) (by
        rw [TypeExpr.wellFormed, Bool.and_eq_true]
        exact h.1)
      have hentry : ∀ entry ∈ entries, Mentions
          (entry.1.layout .blank indent (depth + 1) ++ ':' :: ' '
            :: entry.2.layout .blank indent (depth + 1))
          (entry.1.packages ++ entry.2.packages) (entry.1.bareNames ++ entry.2.bareNames) := by
        intro entry he
        have hkey := (ih entry he).1 (h.2 entry he).1 indent (depth + 1)
        have hvalue := (ih entry he).2 (h.2 entry he).2 indent (depth + 1)
        exact hkey.append ((hvalue.cons (by decide)).cons (by decide)) rfl
      simp only [layout, entryLayouts_eq, packages, entryPackages_eq, bareNames,
        entryBareNames_eq]
      exact (htype.append ((Mentions.commaSeparated hentry).cons (by decide)) rfl).concat
        (by decide)
  | group items => simp [wellFormed] at h
  | type value => exact value.mentions_layout h
  | unary op operand ih =>
      have hoperand := (ih h indent depth).parenthesize operand.isBinary
      simp only [layout, packages, bareNames]
      cases op with
      | not => exact hoperand.cons (by decide)
      | receive => exact (hoperand.cons (by decide)).cons (by decide)
  | binary op left right ihleft ihright =>
      rw [wellFormed, Bool.and_eq_true] at h
      have hleft := (ihleft h.1 indent depth).parenthesize (left.bindsBelow op.precedence)
      have hright := (ihright h.2 indent depth).parenthesize (right.bindsBelow op.precedence)
      have hsymbol : Mentions op.symbol [] [] ∧ fresh.after op.symbol = .fresh
          ∧ startsWithBreak op.symbol = true := by
        cases op <;> exact ⟨.quiet (by decide) (by decide), by decide, by decide⟩
      obtain ⟨hquiet, hafter, hbreak⟩ := hsymbol
      simp only [layout, packages, bareNames, List.append_assoc]
      exact hleft.append (hquiet.appendAfter hafter hright) (startsWithBreak_append hbreak _)

end Expr

/-! ## Statements -/

namespace Stmt

/-- The line of a statement mentions its packages if the statement does. -/
theorem mentions_lineLayout {s : Stmt} {indent : Nat}
    (h : Mentions (s.layout .blank indent) s.packages s.bareNames) :
    Mentions (s.lineLayout .blank indent) s.packages s.bareNames := by
  cases s with
  | blank => exact Mentions.nil.cons (by decide)
  | _ => exact (Mentions.newline indent).appendAfter (after_newline indent) h

theorem startsWithBreak_lineLayout (ink : Ink) (indent : Nat) (s : Stmt) :
    startsWithBreak (s.lineLayout ink indent) = true := by
  cases s <;> rfl

/-- The statements of a block mention their packages if each of them does. -/
theorem mentions_bodyLayout {body : List Stmt} {indent : Nat}
    (h : ∀ s ∈ body, Mentions (s.layout .blank indent) s.packages s.bareNames) :
    Mentions (body.flatMap (lineLayout .blank indent)) (body.flatMap packages)
      (body.flatMap bareNames) :=
  .flatMap (fun s hs => mentions_lineLayout (h s hs))
    fun s _ => startsWithBreak_lineLayout .blank indent s

/-- Names with commas between them have no dot. -/
theorem dot_notMem_commaSeparated {names : List String}
    (h : ∀ name ∈ names, isIdentifier name.toList = true) :
    '.' ∉ commaSeparated (names.map String.toList) := by
  refine notMem_commaSeparated (by decide) (by decide) fun part hpart => ?_
  obtain ⟨name, hname, rfl⟩ := List.mem_map.1 hpart
  exact dot_notMem_of_isIdentifier (h name hname)

/-- A statement mentions its packages. -/
theorem mentions_layout {s : Stmt} (h : s.wellFormed = true) (indent : Nat) :
    Mentions (s.layout .blank indent) s.packages s.bareNames := by
  induction s using bodyInduction generalizing indent with
  | expr value => exact Expr.mentions_layout h indent 0
  | define names value =>
      simp only [wellFormed, Bool.and_eq_true, List.all_eq_true] at h
      have hsign : Mentions [' ', ':', '=', ' '] [] [] := .quiet (by decide) (by decide)
      have hvalue := hsign.appendAfter (by decide) (Expr.mentions_layout h.2 indent 0)
      simp only [layout, List.append_assoc]
      exact .skip (dot_notMem_commaSeparated h.1) hvalue rfl
  | result value =>
      cases value with
      | none =>
          have hword : Mentions ['r', 'e', 't', 'u', 'r', 'n'] [] [] :=
            mentions_keyword (by decide) (by decide)
          exact hword
      | some value =>
          have hword : Mentions ['r', 'e', 't', 'u', 'r', 'n', ' '] [] [] :=
            .quiet (by decide) (by decide)
          exact hword.appendAfter (by decide) (Expr.mentions_layout h indent 0)
  | branch init condition body ihinit ihbody =>
      simp only [wellFormed, bodyWellFormed_eq, Bool.and_eq_true, List.all_eq_true] at h
      obtain ⟨⟨hinit, hcondition⟩, hbody⟩ := h
      have hword : Mentions ['i', 'f', ' '] [] [] := .quiet (by decide) (by decide)
      have hfront : Mentions (initLayout .blank indent init) (initPackages init)
          (initBareNames init) ∧ fresh.after (initLayout .blank indent init) = .fresh := by
        cases init with
        | none => exact ⟨.nil, rfl⟩
        | some s =>
            have hs := ihinit s rfl hinit indent
            have hsign : Mentions [';', ' '] [] [] := .quiet (by decide) (by decide)
            constructor
            · simpa [initLayout, initPackages, initBareNames] using hs.append hsign rfl
            · rw [initLayout, after_append_break (by decide)]
              rfl
      obtain ⟨hfront, hafter⟩ := hfront
      have hstart := hword.appendAfter (by decide) hfront
      have hafter : fresh.after (['i', 'f', ' '] ++ initLayout .blank indent init) = .fresh := by
        rw [after_append]
        exact hafter
      simp only [layout, bodyLayout_eq, packages, packagesOf_eq, bareNames, bareNamesOf_eq]
      refine (hstart.appendAfter hafter (Expr.mentions_layout hcondition indent 0)).append ?_ rfl
      exact .layoutBlock indent
        (mentions_bodyLayout fun s hs => ihbody s hs (hbody s hs) (indent + 1))
  | go body ih =>
      simp only [wellFormed, bodyWellFormed_eq, List.all_eq_true] at h
      simp only [layout, bodyLayout_eq, packages, packagesOf_eq, bareNames, bareNamesOf_eq]
      exact .funcLiteral indent (.quiet (by decide) (by decide))
        (mentions_bodyLayout fun s hs => ih s hs (h s hs) (indent + 1))
  | defer body ih =>
      simp only [wellFormed, bodyWellFormed_eq, List.all_eq_true] at h
      simp only [layout, bodyLayout_eq, packages, packagesOf_eq, bareNames, bareNamesOf_eq]
      exact .funcLiteral indent (.quiet (by decide) (by decide))
        (mentions_bodyLayout fun s hs => ih s hs (h s hs) (indent + 1))
  | deferCall call =>
      have hword : Mentions ['d', 'e', 'f', 'e', 'r', ' '] [] [] := .quiet (by decide) (by decide)
      exact hword.appendAfter (by decide) (Expr.mentions_layout h indent 0)
  | blank => exact .nil

end Stmt

/-! ## Functions -/

/-- The result types of a function mention their packages. -/
theorem mentions_layoutResults {results : List TypeExpr}
    (h : results.all TypeExpr.wellFormed = true) :
    Mentions (layoutResults (results.map TypeExpr.layout)) (results.flatMap TypeExpr.packages)
      (results.flatMap TypeExpr.bareNames) := by
  rw [List.all_eq_true] at h
  have htypes : ∀ t ∈ results, Mentions t.layout t.packages t.bareNames :=
    fun t ht => TypeExpr.mentions_layout (h t ht)
  match results, htypes with
  | [], _ => exact .nil
  | [t], htypes =>
      have ht := (htypes t List.mem_cons_self).cons (c := ' ') (by decide)
      simpa [layoutResults] using ht
  | t :: u :: rest, htypes =>
      exact (((Mentions.commaSeparated htypes).cons (by decide)).cons (by decide)).concat
        (by decide)

/-- Blanked comments mention nothing. -/
theorem mentions_comments (lines : List String) :
    Mentions (lines.flatMap Ink.blank.comment) [] [] ∧
      fresh.after (lines.flatMap Ink.blank.comment) = .fresh := by
  induction lines with
  | nil => exact ⟨.nil, rfl⟩
  | cons line rest ih =>
      have hline : Mentions (Ink.blank.comment line) [] [] :=
        Mentions.concat (.quiet (by simp) (after_replicate (by decide) _)) (by decide)
      have hafter : fresh.after (Ink.blank.comment line) = .fresh :=
        after_append_break (by decide) _ _ _
      rw [List.flatMap_cons]
      refine ⟨hline.appendAfter hafter ih.1, ?_⟩
      rw [after_append, hafter]
      exact ih.2

/-- A function mentions its packages. -/
theorem Func.mentions_layout {f : Func} (h : f.wellFormed = true) :
    Mentions (f.layout .blank) f.packages f.bareNames := by
  simp only [wellFormed, Bool.and_eq_true] at h
  obtain ⟨⟨hname, hresults⟩, hbody⟩ := h
  rw [List.all_eq_true] at hbody
  obtain ⟨hdoc, hafter⟩ := mentions_comments f.doc
  have hdot : '.' ∉ ['f', 'u', 'n', 'c', ' '] ++ f.name.toList := by
    rw [List.mem_append]
    exact not_or.2 ⟨by decide, dot_notMem_of_isIdentifier hname⟩
  have hparams : Mentions ['(', ')'] [] [] := .quiet (by decide) (by decide)
  have hsignature : Mentions f.signature (f.results.flatMap TypeExpr.packages)
      (f.results.flatMap TypeExpr.bareNames) := by
    have htypes := hparams.appendAfter (by decide) (mentions_layoutResults hresults)
    rw [signature, List.append_assoc]
    exact .skip hdot htypes rfl
  have hblock := (Stmt.mentions_bodyLayout fun s hs =>
    Stmt.mentions_layout (hbody s hs) 1).layoutBlock 0
  rw [packages, bareNames, Stmt.packagesOf_eq, Stmt.bareNamesOf_eq]
  exact ((hdoc.appendAfter hafter hsignature).append hblock rfl).concat (by decide)

/-- Functions mention their packages. -/
theorem mentions_funcsLayout {funcs : List Func} (h : funcs.all Func.wellFormed = true) :
    Mentions (funcsLayout .blank funcs) (funcs.flatMap Func.packages)
      (funcs.flatMap Func.bareNames) := by
  rw [List.all_eq_true] at h
  exact .flatMap (fun f hf => (Func.mentions_layout (h f hf)).cons (by decide)) fun _ _ => rfl

end Program
end Stackwright
