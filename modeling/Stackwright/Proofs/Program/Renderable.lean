import Mathlib
import Stackwright.Proofs.Program.Layout

/-!
# Which programs can be printed

A program can be printed exactly if every name of it is an identifier, every float of it
is finite and every group of it is spliced into the arguments of a call.

What stands where in a program is said without printing it: a statement has values and
further statements, an expression has parts, and each value and part has a *role* there.
An occurrence of an expression comes with the roles that lead to it, its own role first.

Main results:

- Theorem `Expr.placed_iff`: an expression is at its place exactly if its own names and
  floats are sound, it is spliced there if it is a group, and its parts are at their places.
- Theorem `Stmt.wellFormed_iff`: the same for statements.
- Theorem `File.exists_print_iff`: a file can be printed exactly if all that occurs in it
  is sound.
-/

namespace Stackwright
namespace Program

/-! ## Occurrences -/

/-- The role of an expression in the expression or the statement around it. -/
inductive Role where
  | receiver
  | argument
  | item
  | key
  | value
  /-- An item of a group. -/
  | member
  | operand
  | statement
  | defined
  | returned
  | condition
  | deferred
deriving DecidableEq, Repr

/-- The names of a type. -/
def TypeExpr.names : TypeExpr → List String
  | .named name => [name]
  | .qualified _ name => [name]
  | .pointer target => target.names
  | .slice element => element.names
  | .map key value => key.names ++ value.names
  | .chan element => element.names

namespace Expr

/-- The expressions that an expression is made of, with their roles. -/
def parts : Expr → List (Role × Expr)
  | .call _ args => args.map (.argument, ·)
  | .packageCall _ _ args => args.map (.argument, ·)
  | .methodCall receiver _ args => (.receiver, receiver) :: args.map (.argument, ·)
  | .ident _ => []
  | .qualified _ _ => []
  | .literal _ => []
  | .list _ items => items.map (.item, ·)
  | .map _ _ entries => entries.flatMap fun entry => [(.key, entry.1), (.value, entry.2)]
  | .group items => items.map (.member, ·)
  | .type _ => []
  | .unary _ operand => [(.operand, operand)]
  | .binary _ left right => [(.operand, left), (.operand, right)]

/-- The names of an expression apart from those of its parts. -/
def names : Expr → List String
  | .call name _ => [name]
  | .packageCall _ name _ => [name]
  | .methodCall _ name _ => [name]
  | .ident name => [name]
  | .qualified _ name => [name]
  | .literal _ => []
  | .list element _ => element.names
  | .map key value _ => key.names ++ value.names
  | .group _ => []
  | .type value => value.names
  | .unary _ _ => []
  | .binary _ _ _ => []

end Expr

namespace Stmt

/-- The expressions of a statement, with their roles. -/
def values : Stmt → List (Role × Expr)
  | .expr value => [(.statement, value)]
  | .define _ value => [(.defined, value)]
  | .return value => value.toList.map (.returned, ·)
  | .if _ condition _ => [(.condition, condition)]
  | .go _ => []
  | .defer _ => []
  | .deferCall call => [(.deferred, call)]
  | .blank => []

/-- The statements that a statement is made of. -/
def parts : Stmt → List Stmt
  | .if init _ body => init.toList ++ body
  | .go body => body
  | .defer body => body
  | _ => []

/-- The names that a statement defines. -/
def names : Stmt → List String
  | .define names _ => names
  | _ => []

end Stmt

/-- A statement of a file, at any depth. -/
inductive File.HasStmt (f : File) : Stmt → Prop
  | body {g : Func} {s : Stmt} (hg : g ∈ f.funcs) (hs : s ∈ g.body) : HasStmt f s
  | part {s t : Stmt} (h : HasStmt f s) (ht : t ∈ s.parts) : HasStmt f t

/-- An expression of a file with the roles that lead to it, its own role first. -/
inductive File.Occurs (f : File) : List Role → Expr → Prop
  | value {s : Stmt} {role : Role} {e : Expr} (h : f.HasStmt s) (he : (role, e) ∈ s.values) :
      Occurs f [role] e
  | part {path : List Role} {e part : Expr} {role : Role} (h : Occurs f path e)
      (hpart : (role, part) ∈ e.parts) : Occurs f (role :: path) part

/-- A name of a file. -/
inductive File.HasName (f : File) : String → Prop
  | package : HasName f f.package
  | func {g : Func} (hg : g ∈ f.funcs) : HasName f g.name
  | result {g : Func} {type : TypeExpr} {name : String} (hg : g ∈ f.funcs) (ht : type ∈ g.results)
      (hname : name ∈ type.names) : HasName f name
  | defined {s : Stmt} {name : String} (hs : f.HasStmt s) (hname : name ∈ s.names) : HasName f name
  | expr {path : List Role} {e : Expr} {name : String} (he : f.Occurs path e)
      (hname : name ∈ e.names) : HasName f name

/-- A place in the arguments of a call, or in a group at such a place. -/
inductive Spliced : List Role → Prop
  | argument (path : List Role) : Spliced (.argument :: path)
  | member {path : List Role} (h : Spliced path) : Spliced (.member :: path)

/-! ## Types and expressions -/

theorem TypeExpr.wellFormed_iff (t : TypeExpr) :
    t.wellFormed = true ↔ ∀ name ∈ t.names, isIdentifier name.toList = true := by
  induction t with
  | named name | qualified package name => simp [wellFormed, names]
  | pointer target ih | slice element ih | chan element ih => simpa [wellFormed, names] using ih
  | map key value ihkey ihvalue =>
      rw [wellFormed, Bool.and_eq_true, ihkey, ihvalue, names, List.forall_mem_append]

namespace Expr

theorem sizeOf_lt_of_mem_parts {e part : Expr} {role : Role} (h : (role, part) ∈ e.parts) :
    sizeOf part < sizeOf e := by
  have hmem : ∀ {r : Role} {l : List Expr}, (role, part) ∈ l.map (r, ·) →
      sizeOf part < sizeOf l := by
    intro r l hl
    obtain ⟨x, hx, heq⟩ := List.mem_map.1 hl
    cases heq
    exact List.sizeOf_lt_of_mem hx
  cases e with
  | call name args | packageCall package name args | list element args | group args =>
      have hlt := hmem h
      simp only [call.sizeOf_spec, packageCall.sizeOf_spec, list.sizeOf_spec, group.sizeOf_spec]
      omega
  | methodCall receiver name args =>
      rw [methodCall.sizeOf_spec]
      rcases List.mem_cons.1 h with heq | h
      · cases heq
        omega
      · have hlt := hmem h
        omega
  | map key value entries =>
      rw [map.sizeOf_spec]
      obtain ⟨⟨k, v⟩, hentry, hside⟩ := List.mem_flatMap.1 h
      have hlt := List.sizeOf_lt_of_mem hentry
      rw [Prod.mk.sizeOf_spec] at hlt
      simp only [List.mem_cons, Prod.mk.injEq, List.not_mem_nil, or_false] at hside
      rcases hside with ⟨-, rfl⟩ | ⟨-, rfl⟩ <;> omega
  | unary op operand =>
      cases List.mem_singleton.1 h
      rw [unary.sizeOf_spec]
      omega
  | binary op left right =>
      rw [binary.sizeOf_spec]
      simp only [parts, List.mem_cons, Prod.mk.injEq, List.not_mem_nil, or_false] at h
      rcases h with ⟨-, rfl⟩ | ⟨-, rfl⟩ <;> omega
  | ident name | qualified package name | literal value | type value => cases h

/-- Induction over expressions, with the parts of an expression taken together. -/
@[elab_as_elim]
theorem partsInduction {P : Expr → Prop}
    (step : ∀ e : Expr, (∀ role part, (role, part) ∈ e.parts → P part) → P e) (e : Expr) : P e :=
  step e fun _ part _ => partsInduction step part
termination_by sizeOf e
decreasing_by exact sizeOf_lt_of_mem_parts ‹_›

/-- Whether an expression is a group. -/
def isGroup : Expr → Bool
  | .group _ => true
  | _ => false

/-- An expression that can be printed at its place: a group has to be spliced there. -/
structure Placed (path : List Role) (e : Expr) : Prop where
  printed : argsWellFormed [e] = true
  spliced : e.isGroup = true → Spliced path

/-- The names and floats of an expression itself can be printed. -/
structure Sound (e : Expr) : Prop where
  names : ∀ name ∈ e.names, isIdentifier name.toList = true
  float : ∀ value, e = .literal (.float value) → value.isFinite = true

theorem argsWellFormed_singleton {e : Expr} (he : e.isGroup = false) :
    argsWellFormed [e] = e.wellFormed := by
  cases e <;> simp_all [argsWellFormed, isGroup]

theorem isGroup_eq_false_of_wellFormed {e : Expr} (h : e.wellFormed = true) :
    e.isGroup = false := by
  cases e <;> simp_all [wellFormed, isGroup]

/-- Arguments can be printed if each of them can. -/
theorem argsWellFormed_iff (args : List Expr) :
    argsWellFormed args = true ↔ ∀ e ∈ args, argsWellFormed [e] = true := by
  induction args with
  | nil => simp [argsWellFormed]
  | cons e rest ih =>
      rw [List.forall_mem_cons, ← ih, argsWellFormed_eq, argsWellFormed_eq, argsWellFormed_eq,
        splice, splice, splice, List.append_nil, List.all_append, Bool.and_eq_true]

/-- An expression that is no group is at its place anywhere. -/
theorem placed_iff_of_isGroup_eq_false {e : Expr} (he : e.isGroup = false) (path : List Role) :
    e.Placed path ↔ e.wellFormed = true := by
  rw [← argsWellFormed_singleton he]
  exact ⟨fun h => h.printed, fun h => ⟨h, by simp [he]⟩⟩

/-- Where no groups are spliced, an expression is at its place if it can be printed. -/
theorem placed_iff_wellFormed {path : List Role} (hpath : ¬ Spliced path) (e : Expr) :
    e.Placed path ↔ e.wellFormed = true := by
  refine ⟨fun h => ?_, fun h => ?_⟩
  · have hgroup : e.isGroup = false := by
      rw [← Bool.not_eq_true]
      exact fun hgroup => hpath (h.spliced hgroup)
    exact (placed_iff_of_isGroup_eq_false hgroup path).1 h
  · exact (placed_iff_of_isGroup_eq_false (isGroup_eq_false_of_wellFormed h) path).2 h

/-- Where groups are spliced, an expression is at its place if it can be printed as an argument. -/
theorem placed_iff_argsWellFormed {path : List Role} (hpath : Spliced path) (e : Expr) :
    e.Placed path ↔ argsWellFormed [e] = true :=
  ⟨fun h => h.printed, fun h => ⟨h, fun _ => hpath⟩⟩

/-- Arguments are at their places if the argument list can be printed. -/
theorem forall_placed_argument_iff (args : List Expr) (path : List Role) :
    (∀ e ∈ args, e.Placed (.argument :: path)) ↔ argsWellFormed args = true := by
  rw [argsWellFormed_iff]
  simp only [placed_iff_argsWellFormed (Spliced.argument path)]

/-- The items of a group are at their places if the group is. -/
theorem placed_group_iff (items : List Expr) (path : List Role) :
    Placed path (.group items) ↔ Spliced path ∧ ∀ e ∈ items, e.Placed (.member :: path) := by
  have hprinted : argsWellFormed [.group items] = argsWellFormed items := by
    simp [argsWellFormed]
  constructor
  · rintro ⟨hitems, hspliced⟩
    have hpath := hspliced rfl
    rw [hprinted, argsWellFormed_iff] at hitems
    exact ⟨hpath, fun e he => (placed_iff_argsWellFormed hpath.member e).2 (hitems e he)⟩
  · rintro ⟨hpath, hitems⟩
    rw [placed_iff_argsWellFormed hpath, hprinted, argsWellFormed_iff]
    exact fun e he => (hitems e he).printed

/-- An expression is at its place exactly if its own names and floats are sound, it is spliced there
if it is a group, and its parts are at their places. -/
theorem placed_iff (e : Expr) (path : List Role) :
    e.Placed path ↔ e.Sound ∧ (e.isGroup = true → Spliced path) ∧
      ∀ x ∈ e.parts, x.2.Placed (x.1 :: path) := by
  have hsound : e.Sound ↔ (∀ name ∈ e.names, isIdentifier name.toList = true) ∧
      ∀ value, e = .literal (.float value) → value.isFinite = true :=
    ⟨fun h => ⟨h.names, h.float⟩, fun h => ⟨h.1, h.2⟩⟩
  have hreceiver : ¬ Spliced (.receiver :: path) := nofun
  have hitem : ¬ Spliced (.item :: path) := nofun
  have hkey : ¬ Spliced (.key :: path) := nofun
  have hvalue : ¬ Spliced (.value :: path) := nofun
  have hoperand : ¬ Spliced (.operand :: path) := nofun
  rw [hsound]
  cases e with
  | group items => simp [placed_group_iff, names, isGroup, parts]
  | call name args | packageCall package name args =>
      rw [placed_iff_of_isGroup_eq_false rfl]
      simp [wellFormed, names, isGroup, parts, forall_placed_argument_iff]
  | methodCall receiver name args =>
      rw [placed_iff_of_isGroup_eq_false rfl]
      simp [wellFormed, names, isGroup, parts, forall_placed_argument_iff,
        placed_iff_wellFormed hreceiver, and_assoc, and_left_comm]
  | ident name | qualified package name | type value =>
      rw [placed_iff_of_isGroup_eq_false rfl]
      simp [wellFormed, names, isGroup, parts, TypeExpr.wellFormed_iff]
  | literal value =>
      rw [placed_iff_of_isGroup_eq_false rfl]
      cases value <;> simp [wellFormed, Literal.wellFormed, names, isGroup, parts]
  | list element items =>
      rw [placed_iff_of_isGroup_eq_false rfl]
      simp [wellFormed, itemsWellFormed_eq, names, isGroup, parts, placed_iff_wellFormed hitem,
        TypeExpr.wellFormed_iff]
  | map key value entries =>
      rw [placed_iff_of_isGroup_eq_false rfl]
      simp only [wellFormed, entriesWellFormed_eq, Bool.and_eq_true, TypeExpr.wellFormed_iff, names,
        List.forall_mem_append, parts, List.forall_mem_flatMap, List.forall_mem_cons,
        placed_iff_wellFormed hkey, placed_iff_wellFormed hvalue]
      simp [isGroup]
  | unary op operand =>
      rw [placed_iff_of_isGroup_eq_false rfl]
      simp [wellFormed, names, isGroup, parts, placed_iff_wellFormed hoperand]
  | binary op left right =>
      rw [placed_iff_of_isGroup_eq_false rfl]
      simp [wellFormed, names, isGroup, parts, placed_iff_wellFormed hoperand]

end Expr

/-! ## Statements and files -/

/-- Induction over statements, with the parts of a statement taken together. -/
@[elab_as_elim]
theorem Stmt.partsInduction {P : Stmt → Prop} (step : ∀ s : Stmt, (∀ t ∈ s.parts, P t) → P s)
    (s : Stmt) : P s := by
  induction s using bodyInduction with
  | branch init condition body ihinit ihbody =>
      refine step _ (List.forall_mem_append.2 ⟨fun t ht => ?_, ihbody⟩)
      exact ihinit t (Option.mem_toList.1 ht)
  | go body ih | defer body ih => exact step _ ih
  | expr | define | result | deferCall | blank => exact step _ (by simp [parts])

/-- A statement can be printed exactly if its own names are identifiers, its expressions are at
their places, and its parts can be printed. -/
theorem Stmt.wellFormed_iff (s : Stmt) :
    s.wellFormed = true ↔ (∀ name ∈ s.names, isIdentifier name.toList = true) ∧
      (∀ x ∈ s.values, x.2.Placed [x.1]) ∧ ∀ t ∈ s.parts, t.wellFormed = true := by
  have hplaced : ∀ role ∈ [Role.statement, .defined, .returned, .condition, .deferred],
      ∀ e : Expr, e.Placed [role] ↔ e.wellFormed = true := by
    intro role hrole
    refine Expr.placed_iff_wellFormed fun hspliced => ?_
    cases hspliced <;> simp at hrole
  simp only [List.forall_mem_cons] at hplaced
  obtain ⟨hstatement, hdefined, hreturned, hcondition, hdeferred, -⟩ := hplaced
  cases s with
  | expr value => simp [wellFormed, names, values, parts, hstatement]
  | define names value => simp [wellFormed, Stmt.names, values, parts, hdefined]
  | «return» value => cases value <;> simp [wellFormed, names, values, parts, hreturned]
  | «if» init condition body =>
      cases init <;>
        simp [wellFormed, initWellFormed, bodyWellFormed_eq, names, values, parts, hcondition,
          and_assoc, and_left_comm]
  | go body | defer body => simp [wellFormed, bodyWellFormed_eq, names, values, parts]
  | deferCall call => simp [wellFormed, names, values, parts, hdeferred]
  | blank => simp [wellFormed, names, values, parts]

theorem File.wellFormed_iff (f : File) :
    f.wellFormed = true ↔ isIdentifier f.package.toList = true ∧
      (∀ g ∈ f.funcs, isIdentifier g.name.toList = true) ∧
      (∀ g ∈ f.funcs, ∀ type ∈ g.results, ∀ name ∈ type.names, isIdentifier name.toList = true) ∧
      ∀ g ∈ f.funcs, ∀ s ∈ g.body, s.wellFormed = true := by
  simp only [File.wellFormed, Func.wellFormed, Bool.and_eq_true, List.all_eq_true,
    TypeExpr.wellFormed_iff, forall_and, and_assoc]

/-- Every statement of a file that can be printed can be printed. -/
theorem File.HasStmt.wellFormed {f : File} {s : Stmt} (h : f.HasStmt s)
    (hf : f.wellFormed = true) : s.wellFormed = true := by
  obtain ⟨-, -, -, hbodies⟩ := f.wellFormed_iff.1 hf
  induction h with
  | body hg hs => exact hbodies _ hg _ hs
  | part _ ht ih => exact ((Stmt.wellFormed_iff _).1 ih).2.2 _ ht

/-- Every expression of a file that can be printed is at its place. -/
theorem File.Occurs.placed {f : File} {path : List Role} {e : Expr} (h : f.Occurs path e)
    (hf : f.wellFormed = true) : e.Placed path := by
  induction h with
  | value hs he => exact ((Stmt.wellFormed_iff _).1 (hs.wellFormed hf)).2.1 _ he
  | part _ hpart ih => exact ((Expr.placed_iff _ _).1 ih).2.2 _ hpart

/-- Every name of a file that can be printed is an identifier. -/
theorem File.HasName.isIdentifier {f : File} {name : String} (h : f.HasName name)
    (hf : f.wellFormed = true) : isIdentifier name.toList = true := by
  obtain ⟨hpackage, hfuncs, hresults, -⟩ := f.wellFormed_iff.1 hf
  cases h with
  | package => exact hpackage
  | func hg => exact hfuncs _ hg
  | result hg ht hname => exact hresults _ hg _ ht _ hname
  | defined hs hname => exact ((Stmt.wellFormed_iff _).1 (hs.wellFormed hf)).1 _ hname
  | expr he hname => exact ((Expr.placed_iff _ _).1 (he.placed hf)).1.names _ hname

/-- An expression is at its place if all that occurs in the file is sound. -/
theorem Expr.placed_of_occurs {f : File}
    (hnames : ∀ name, f.HasName name → isIdentifier name.toList = true)
    (hfloats : ∀ path value, f.Occurs path (.literal (.float value)) → value.isFinite = true)
    (hgroups : ∀ path items, f.Occurs path (.group items) → Spliced path) (e : Expr)
    {path : List Role} (he : f.Occurs path e) : e.Placed path := by
  induction e using partsInduction generalizing path with
  | step e ih =>
      refine (placed_iff e path).2 ⟨⟨fun name hname => hnames name (.expr he hname), ?_⟩, ?_,
        fun x hx => ih x.1 x.2 hx (he.part hx)⟩
      · rintro value rfl
        exact hfloats path value he
      · intro hgroup
        cases e with
        | group items => exact hgroups path items he
        | _ => cases hgroup

/-- A statement can be printed if its names are identifiers and its expressions are at their
places. -/
theorem Stmt.wellFormed_of_hasStmt {f : File}
    (hnames : ∀ name, f.HasName name → isIdentifier name.toList = true)
    (hplaced : ∀ path e, f.Occurs path e → e.Placed path) (s : Stmt) (hs : f.HasStmt s) :
    s.wellFormed = true := by
  induction s using partsInduction with
  | step s ih =>
      exact s.wellFormed_iff.2 ⟨fun name hname => hnames name (.defined hs hname),
        fun x hx => hplaced _ x.2 (.value hs hx), fun t ht => ih t ht (hs.part ht)⟩

/-- A file can be printed exactly if every name of it is an identifier, every float of it is finite
and every group of it stands in the arguments of a call or in a group that does. -/
theorem File.exists_print_iff (f : File) (root : String) :
    (∃ text, f.print root = .ok text) ↔
      (∀ name, f.HasName name → isIdentifier name.toList = true) ∧
      (∀ path value, f.Occurs path (.literal (.float value)) → value.isFinite = true) ∧
      ∀ path items, f.Occurs path (.group items) → Spliced path := by
  have hprint : (∃ text, f.print root = .ok text) ↔ f.wellFormed = true :=
    ⟨fun ⟨text, htext⟩ => ((f.print_eq_ok_iff root text).1 htext).1,
      fun h => ⟨_, (f.print_eq_ok_iff root _).2 ⟨h, rfl⟩⟩⟩
  rw [hprint]
  constructor
  · intro hf
    refine ⟨fun name hname => hname.isIdentifier hf, fun path value hvalue => ?_,
      fun path items hitems => (hitems.placed hf).spliced rfl⟩
    exact ((Expr.placed_iff _ _).1 (hvalue.placed hf)).1.float _ rfl
  · rintro ⟨hnames, hfloats, hgroups⟩
    have hstmt := Stmt.wellFormed_of_hasStmt hnames fun path e he =>
      Expr.placed_of_occurs hnames hfloats hgroups e he
    exact f.wellFormed_iff.2 ⟨hnames _ .package, fun g hg => hnames _ (.func hg),
      fun g hg t ht name hname => hnames _ (.result hg ht hname),
      fun g hg s hs => hstmt s (.body hg hs)⟩

end Program
end Stackwright
