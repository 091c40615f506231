import Stackwright.Proofs.Program.Mentions

/-!
# Programs that differ in their strings

What a string contains never shows in the code around it.  Two files that are the
same once their strings are emptied (`File.masked`) are printed both or neither,
and the codes of the two texts, as `blank` leaves them, differ in the lengths of
runs of spaces only: the lines, the brackets and all other code are the same.

Main results:

- Theorem `Expr.wellFormed_masked`: whether an expression can be printed does not
  depend on its strings.
- Theorem `Expr.sameCode_masked`: emptying the strings of an expression keeps its
  code.
- Theorem `File.code_eq_of_masked_eq`: the statement about two files.
-/

namespace Stackwright
namespace Program

/-! ## Spaces in runs -/

/-- Puts a character in front of a text, unless both are spaces. -/
def squeezeStep (c : Char) (text : List Char) : List Char :=
  if c = ' ' ∧ text.head? = some ' ' then text else c :: text

/-- A text in which every run of spaces is one space. -/
def squeeze (text : List Char) : List Char :=
  text.foldr squeezeStep []

/-- Squeezing keeps the first character. -/
theorem head?_squeezeStep (c : Char) (text : List Char) :
    (squeezeStep c text).head? = some c := by
  unfold squeezeStep
  split
  · simp_all
  · rfl

/-- Squeezing a text before it is put in front of another changes nothing. -/
theorem foldr_squeezeStep_squeeze (text rest : List Char) :
    (squeeze text).foldr squeezeStep rest = text.foldr squeezeStep rest := by
  induction text with
  | nil => rfl
  | cons c more ih =>
      have hcons : squeeze (c :: more) = squeezeStep c (squeeze more) := rfl
      rw [hcons, List.foldr_cons, ← ih, squeezeStep]
      split
      · -- The space in front is lost to the space that `more` starts with.
        rename_i hspace
        obtain ⟨tail, htail⟩ := List.head?_eq_some_iff.1 hspace.2
        rw [htail, List.foldr_cons, squeezeStep.eq_1 c, if_pos]
        exact ⟨hspace.1, head?_squeezeStep ' ' _⟩
      · rfl

/-- The squeezed form of two texts put together follows from their squeezed forms. -/
theorem squeeze_append (a b : List Char) :
    squeeze (a ++ b) = (squeeze a).foldr squeezeStep (squeeze b) := by
  rw [foldr_squeezeStep_squeeze, squeeze, List.foldr_append]
  rfl

/-! ## Texts with the same code -/

/-- Two texts that differ in the lengths of runs of spaces only. -/
def SameCode (a b : List Char) : Prop :=
  squeeze a = squeeze b

namespace SameCode

theorem refl (text : List Char) : SameCode text text :=
  rfl

/-- Texts with the same code can be put one behind the other. -/
theorem append {a b a' b' : List Char} (ha : SameCode a a') (hb : SameCode b b') :
    SameCode (a ++ b) (a' ++ b') := by
  unfold SameCode at *
  rw [squeeze_append, squeeze_append, ha, hb]

theorem cons {a b : List Char} (c : Char) (h : SameCode a b) : SameCode (c :: a) (c :: b) :=
  append (refl [c]) h

theorem concat {a b : List Char} (h : SameCode a b) (text : List Char) :
    SameCode (a ++ text) (b ++ text) :=
  append h (refl text)

/-- Runs of spaces have the same code, whatever their lengths. -/
theorem spaces (m n : Nat) :
    SameCode (List.replicate (m + 1) ' ') (List.replicate (n + 1) ' ') := by
  have hone : ∀ k, squeeze (List.replicate (k + 1) ' ') = [' '] := by
    intro k
    induction k with
    | zero => rfl
    | succ k ih =>
        have hstep : squeeze (List.replicate (k + 2) ' ')
            = squeezeStep ' ' (squeeze (List.replicate (k + 1) ' ')) := rfl
        rw [hstep, ih]
        rfl
  exact (hone m).trans (hone n).symm

section Members

variable {α : Type} {l : List α} {f g : α → List Char}

/-- Texts with the same code can be put one behind the other for each member of a list. -/
theorem flatMap (h : ∀ a ∈ l, SameCode (f a) (g a)) : SameCode (l.flatMap f) (l.flatMap g) := by
  induction l with
  | nil => exact refl []
  | cons a rest ih =>
      rw [List.flatMap_cons, List.flatMap_cons]
      exact append (h a List.mem_cons_self) (ih fun x hx => h x (List.mem_cons_of_mem a hx))

/-- Lists with the same code in their members have the same code. -/
theorem commaSeparated (h : ∀ a ∈ l, SameCode (f a) (g a)) :
    SameCode (Program.commaSeparated (l.map f)) (Program.commaSeparated (l.map g)) := by
  unfold Program.commaSeparated
  induction l with
  | nil => exact refl []
  | cons a rest ih =>
      have hrest := ih fun x hx => h x (List.mem_cons_of_mem a hx)
      have ha := h a List.mem_cons_self
      cases rest with
      | nil => simpa using ha
      | cons b more => simpa using append ha (append (refl [',', ' ']) hrest)

/-- Arguments with the same code are laid out with the same code. -/
theorem layoutArgs (indent : Nat) (broken : Bool) (h : ∀ a ∈ l, SameCode (f a) (g a)) :
    SameCode (Program.layoutArgs indent broken (l.map f))
      (Program.layoutArgs indent broken (l.map g)) := by
  cases broken with
  | false => exact cons '(' (concat (commaSeparated h) [')'])
  | true =>
      simp only [Program.layoutArgs, if_true, List.flatMap_map]
      refine concat (cons '(' (concat (flatMap fun a ha => ?_) _)) [')']
      exact concat (append (refl _) (h a ha)) [',']

end Members

theorem parenthesize {a b : List Char} (needed : Bool) (h : SameCode a b) :
    SameCode (Program.parenthesize needed a) (Program.parenthesize needed b) := by
  cases needed with
  | false => exact h
  | true => exact concat (cons '(' h) [')']

theorem layoutBlock {a b : List Char} (indent : Nat) (h : SameCode a b) :
    SameCode (Program.layoutBlock indent a) (Program.layoutBlock indent b) :=
  cons ' ' (cons '\x7b' (concat (concat h _) _))

end SameCode

/-! ## Trees without the contents of their strings -/

/-- A literal with the contents of a string taken out. -/
def Literal.masked : Literal → Literal
  | .string _ => .string ""
  | l => l

/-- Emptying a string keeps its code, as a literal is never empty. -/
theorem Literal.sameCode_masked (l : Literal) :
    SameCode (l.layout .blank) (l.masked.layout .blank) := by
  cases l with
  | string value => exact .spaces _ _
  | _ => exact .refl _

/-- A test gives the same of all members if it gives the same of each. -/
theorem all_congr_of_mem {α : Type} {l : List α} {p q : α → Bool} (h : ∀ a ∈ l, p a = q a) :
    l.all p = l.all q := by
  rw [Bool.eq_iff_iff, List.all_eq_true, List.all_eq_true]
  exact forall₂_congr fun a ha => by rw [h a ha]

namespace Expr

mutual
/-- An expression with the contents of its strings taken out. -/
def masked : Expr → Expr
  | .call name args => .call name (maskedItems args)
  | .packageCall package name args => .packageCall package name (maskedItems args)
  | .methodCall receiver name args => .methodCall receiver.masked name (maskedItems args)
  | .ident name => .ident name
  | .qualified package name => .qualified package name
  | .literal value => .literal value.masked
  | .list element items => .list element (maskedItems items)
  | .map key value entries => .map key value (maskedEntries entries)
  | .group items => .group (maskedItems items)
  | .type value => .type value
  | .unary op operand => .unary op operand.masked
  | .binary op left right => .binary op left.masked right.masked

/-- Expressions with the contents of their strings taken out. -/
def maskedItems : List Expr → List Expr
  | [] => []
  | e :: rest => e.masked :: maskedItems rest

/-- Entries of a map with the contents of their strings taken out. -/
def maskedEntries : List (Expr × Expr) → List (Expr × Expr)
  | [] => []
  | (key, value) :: rest => (key.masked, value.masked) :: maskedEntries rest
end

theorem maskedItems_eq (items : List Expr) : maskedItems items = items.map masked := by
  induction items with
  | nil => rfl
  | cons e rest ih => rw [maskedItems, ih, List.map_cons]

theorem maskedEntries_eq (entries : List (Expr × Expr)) :
    maskedEntries entries = entries.map fun entry => (entry.1.masked, entry.2.masked) := by
  induction entries with
  | nil => rfl
  | cons entry rest ih => rw [maskedEntries, ih, List.map_cons]

/-- Groups are spliced in the same places. -/
theorem splice_maskedItems (args : List Expr) :
    splice (maskedItems args) = (splice args).map masked := by
  induction args using argsInduction with
  | nil => rfl
  | group items rest ihitems ihrest =>
      rw [maskedItems, masked, splice_group_cons, splice_group_cons, ihitems, ihrest,
        List.map_append]
  | cons e rest he ih =>
      have hmasked : ∀ items, e.masked ≠ .group items := by
        intro items
        cases e with
        | group inner => exact absurd rfl (he inner)
        | _ => simp [masked]
      rw [maskedItems, splice_cons hmasked, splice_cons he, ih, List.map_cons]

/-- Calls stay calls. -/
@[simp]
theorem isCall_masked (e : Expr) : e.masked.isCall = e.isCall := by
  cases e <;> rfl

@[simp]
theorem isBinary_masked (e : Expr) : e.masked.isBinary = e.isBinary := by
  cases e <;> rfl

/-- Operators stay operators, with the same strength. -/
@[simp]
theorem bindsBelow_masked (strength : Nat) (e : Expr) :
    e.masked.bindsBelow strength = e.bindsBelow strength := by
  cases e <;> rfl

theorem isComposite_masked (e : Expr) : e.masked.isComposite = e.isComposite := by
  cases e <;> rfl

/-- Lines are broken in the same places. -/
@[simp]
theorem breaksLines_maskedItems (package : Option Package) (name : String) (args : List Expr)
    (depth : Nat) :
    breaksLines package name (maskedItems args) depth = breaksLines package name args depth := by
  simp [breaksLines, splice_maskedItems, Function.comp_def, isComposite_masked]

/-- Whether an expression can be printed does not depend on its strings. -/
theorem wellFormed_masked (e : Expr) : e.masked.wellFormed = e.wellFormed := by
  induction e using spliceInduction with
  | call name args ih | packageCall package name args ih =>
      simp [masked, wellFormed, argsWellFormed_eq, splice_maskedItems, Function.comp_def,
        all_congr_of_mem ih]
  | methodCall receiver name args ihreceiver ih =>
      simp [masked, wellFormed, argsWellFormed_eq, splice_maskedItems, Function.comp_def,
        ihreceiver, all_congr_of_mem ih]
  | ident name => rfl
  | qualified package name => rfl
  | literal value => cases value <;> rfl
  | list element items ih =>
      simp [masked, wellFormed, itemsWellFormed_eq, maskedItems_eq, Function.comp_def,
        all_congr_of_mem ih]
  | map key value entries ih =>
      have hentries : ∀ entry ∈ entries, (entry.1.masked.wellFormed && entry.2.masked.wellFormed)
          = (entry.1.wellFormed && entry.2.wellFormed) := by
        intro entry he
        rw [(ih entry he).1, (ih entry he).2]
      simp [masked, wellFormed, entriesWellFormed_eq, maskedEntries_eq, Function.comp_def,
        all_congr_of_mem hentries]
  | group items => rfl
  | type value => rfl
  | unary op operand ih => exact ih
  | binary op left right ihleft ihright => simp [masked, wellFormed, ihleft, ihright]

/-- The packages of an expression that can be printed do not depend on its strings. -/
theorem packages_masked {e : Expr} (h : e.wellFormed = true) : e.masked.packages = e.packages := by
  induction e using spliceInduction with
  | call name args ih | packageCall package name args ih =>
      simp only [wellFormed, argsWellFormed_eq, Bool.and_eq_true, List.all_eq_true] at h
      have hargs := List.flatMap_congr fun a ha => ih a ha (h.2 a ha)
      simp [masked, packages, packagesOf_splice, splice_maskedItems, List.flatMap_map, hargs]
  | methodCall receiver name args ihreceiver ih =>
      simp only [wellFormed, argsWellFormed_eq, Bool.and_eq_true, List.all_eq_true] at h
      have hargs := List.flatMap_congr fun a ha => ih a ha (h.2 a ha)
      simp [masked, packages, packagesOf_splice, splice_maskedItems, List.flatMap_map,
        ihreceiver h.1.1, hargs]
  | ident name => rfl
  | qualified package name => rfl
  | literal value => cases value <;> rfl
  | list element items ih =>
      simp only [wellFormed, itemsWellFormed_eq, Bool.and_eq_true, List.all_eq_true] at h
      have hitems := List.flatMap_congr fun a ha => ih a ha (h.2 a ha)
      simp [masked, packages, packagesOf_eq, maskedItems_eq, List.flatMap_map, hitems]
  | map key value entries ih =>
      simp only [wellFormed, entriesWellFormed_eq, Bool.and_eq_true, List.all_eq_true] at h
      have hentries : ∀ entry ∈ entries, entry.1.masked.packages ++ entry.2.masked.packages
          = entry.1.packages ++ entry.2.packages := by
        intro entry he
        rw [(ih entry he).1 (h.2 entry he).1, (ih entry he).2 (h.2 entry he).2]
      simp [masked, packages, entryPackages_eq, maskedEntries_eq, List.flatMap_map,
        List.flatMap_congr hentries]
  | group items => simp [wellFormed] at h
  | type value => rfl
  | unary op operand ih => exact ih h
  | binary op left right ihleft ihright =>
      rw [wellFormed, Bool.and_eq_true] at h
      simp [masked, packages, ihleft h.1, ihright h.2]

/-- Emptying the strings of an expression keeps its code. -/
theorem sameCode_masked (e : Expr) (indent depth : Nat) :
    SameCode (e.layout .blank indent depth) (e.masked.layout .blank indent depth) := by
  induction e using spliceInduction generalizing indent depth with
  | call name args ih =>
      simp only [masked, layout, argLayouts_eq, splice_maskedItems, breaksLines_maskedItems,
        List.map_map]
      exact .append (.refl _) (.layoutArgs _ _ fun a ha => ih a ha _ _)
  | packageCall package name args ih =>
      simp only [masked, layout, argLayouts_eq, splice_maskedItems, breaksLines_maskedItems,
        List.map_map]
      exact .append (.refl _) (.layoutArgs _ _ fun a ha => ih a ha _ _)
  | methodCall receiver name args ihreceiver ih =>
      simp only [masked, layout, argLayouts_eq, splice_maskedItems, breaksLines_maskedItems,
        List.map_map, isCall_masked]
      split
      · exact .append (.concat (.concat (ihreceiver indent depth) _) _)
          (.layoutArgs _ _ fun a ha => ih a ha _ _)
      · exact .append (.concat (ihreceiver indent depth) _)
          (.layoutArgs _ _ fun a ha => ih a ha _ _)
  | ident name => exact .refl _
  | qualified package name => exact .refl _
  | literal value => exact value.sameCode_masked
  | list element items ih =>
      simp only [masked, layout, itemLayouts_eq, maskedItems_eq, List.map_map]
      refine .concat (.append (.refl _) (.cons _ (.commaSeparated fun a ha => ?_))) _
      exact ih a ha _ _
  | map key value entries ih =>
      simp only [masked, layout, entryLayouts_eq, maskedEntries_eq, List.map_map]
      refine .concat (.append (.refl _) (.cons _ (.commaSeparated fun entry he => ?_))) _
      exact .append ((ih entry he).1 _ _) (.cons ':' (.cons ' ' ((ih entry he).2 _ _)))
  | group items => exact .refl _
  | type value => exact .refl _
  | unary op operand ih =>
      simp only [masked, layout, isBinary_masked]
      exact .append (.refl _) (.parenthesize _ (ih indent depth))
  | binary op left right ihleft ihright =>
      simp only [masked, layout, bindsBelow_masked]
      exact .append (.concat (.parenthesize _ (ihleft indent depth)) _)
        (.parenthesize _ (ihright indent depth))

end Expr

namespace Stmt

mutual
/-- A statement with the contents of its strings taken out. -/
def masked : Stmt → Stmt
  | .expr value => .expr value.masked
  | .define names value => .define names value.masked
  | .return value => .return (value.map Expr.masked)
  | .if init condition body => .if (maskedInit init) condition.masked (maskedBody body)
  | .go body => .go (maskedBody body)
  | .defer body => .defer (maskedBody body)
  | .deferCall call => .deferCall call.masked
  | .blank => .blank

/-- An optional statement with the contents of its strings taken out. -/
def maskedInit : Option Stmt → Option Stmt
  | none => none
  | some s => some s.masked

/-- Statements with the contents of their strings taken out. -/
def maskedBody : List Stmt → List Stmt
  | [] => []
  | s :: rest => s.masked :: maskedBody rest
end

theorem maskedBody_eq (body : List Stmt) : maskedBody body = body.map masked := by
  induction body with
  | nil => rfl
  | cons s rest ih => rw [maskedBody, ih, List.map_cons]

/-- Whether a statement can be printed does not depend on its strings. -/
theorem wellFormed_masked (s : Stmt) : s.masked.wellFormed = s.wellFormed := by
  induction s using bodyInduction with
  | expr value => exact value.wellFormed_masked
  | define names value => simp [masked, wellFormed, Expr.wellFormed_masked]
  | result value => cases value <;> simp [masked, wellFormed, Expr.wellFormed_masked]
  | branch init condition body ihinit ihbody =>
      have hinit : initWellFormed (maskedInit init) = initWellFormed init := by
        cases init with
        | none => rfl
        | some s => exact ihinit s rfl
      simp [masked, wellFormed, hinit, Expr.wellFormed_masked, bodyWellFormed_eq, maskedBody_eq,
        Function.comp_def, all_congr_of_mem ihbody]
  | go body ih | defer body ih =>
      simp [masked, wellFormed, bodyWellFormed_eq, maskedBody_eq, Function.comp_def,
        all_congr_of_mem ih]
  | deferCall call => exact call.wellFormed_masked
  | blank => rfl

/-- The packages of a statement that can be printed do not depend on its strings. -/
theorem packages_masked {s : Stmt} (h : s.wellFormed = true) : s.masked.packages = s.packages := by
  induction s using bodyInduction with
  | expr value => exact Expr.packages_masked h
  | define names value =>
      rw [wellFormed, Bool.and_eq_true] at h
      exact Expr.packages_masked h.2
  | result value =>
      cases value with
      | none => rfl
      | some value => exact Expr.packages_masked h
  | branch init condition body ihinit ihbody =>
      simp only [wellFormed, bodyWellFormed_eq, Bool.and_eq_true, List.all_eq_true] at h
      obtain ⟨⟨hinit, hcondition⟩, hbody⟩ := h
      have hfront : initPackages (maskedInit init) = initPackages init := by
        cases init with
        | none => rfl
        | some s => exact ihinit s rfl hinit
      have hmembers := List.flatMap_congr fun s hs => ihbody s hs (hbody s hs)
      simp [masked, packages, hfront, Expr.packages_masked hcondition, packagesOf_eq,
        maskedBody_eq, List.flatMap_map, hmembers]
  | go body ih | defer body ih =>
      simp only [wellFormed, bodyWellFormed_eq, List.all_eq_true] at h
      have hmembers := List.flatMap_congr fun s hs => ih s hs (h s hs)
      simp [masked, packages, packagesOf_eq, maskedBody_eq, List.flatMap_map, hmembers]
  | deferCall call => exact Expr.packages_masked h
  | blank => rfl

/-- Emptying the strings of a statement keeps its line if it keeps its code. -/
theorem sameCode_lineLayout {s : Stmt} {indent : Nat}
    (h : SameCode (s.layout .blank indent) (s.masked.layout .blank indent)) :
    SameCode (s.lineLayout .blank indent) (s.masked.lineLayout .blank indent) := by
  cases s with
  | blank => exact .refl _
  | _ => exact .append (.refl (newline indent)) h

/-- Emptying the strings of a statement keeps its code. -/
theorem sameCode_masked (s : Stmt) (indent : Nat) :
    SameCode (s.layout .blank indent) (s.masked.layout .blank indent) := by
  induction s using bodyInduction generalizing indent with
  | expr value => exact value.sameCode_masked indent 0
  | define names value => exact .append (.refl _) (value.sameCode_masked indent 0)
  | result value =>
      cases value with
      | none => exact .refl _
      | some value => exact .append (.refl _) (value.sameCode_masked indent 0)
  | branch init condition body ihinit ihbody =>
      have hinit : SameCode (initLayout .blank indent init)
          (initLayout .blank indent (maskedInit init)) := by
        cases init with
        | none => exact .refl _
        | some s => exact .concat (ihinit s rfl indent) _
      simp only [masked, layout, bodyLayout_eq, maskedBody_eq, List.flatMap_map]
      exact .append (.append (.append (.refl _) hinit) (condition.sameCode_masked indent 0))
        (.layoutBlock indent (.flatMap fun s hs => sameCode_lineLayout (ihbody s hs _)))
  | go body ih | defer body ih =>
      simp only [masked, layout, bodyLayout_eq, maskedBody_eq, List.flatMap_map]
      exact .concat (.append (.refl _)
        (.layoutBlock indent (.flatMap fun s hs => sameCode_lineLayout (ih s hs _)))) _
  | deferCall call => exact .append (.refl _) (call.sameCode_masked indent 0)
  | blank => exact .refl _

end Stmt

/-! ## Functions and files -/

/-- A function with the contents of its strings taken out. -/
def Func.masked (f : Func) : Func :=
  { f with body := f.body.map Stmt.masked }

theorem Func.wellFormed_masked (f : Func) : f.masked.wellFormed = f.wellFormed := by
  simp [masked, wellFormed, Function.comp_def, Stmt.wellFormed_masked]

/-- The texts of a function use no package. -/
theorem Func.packages_masked {f : Func} (h : f.wellFormed = true) :
    f.masked.packages = f.packages := by
  simp only [wellFormed, Bool.and_eq_true, List.all_eq_true] at h
  have hbody := List.flatMap_congr fun s hs => Stmt.packages_masked (h.2 s hs)
  simp [masked, packages, Stmt.packagesOf_eq, List.flatMap_map, hbody]

/-- Emptying the strings of a function keeps its code. -/
theorem Func.sameCode_masked (f : Func) : SameCode (f.layout .blank) (f.masked.layout .blank) := by
  simp only [layout, masked, List.flatMap_map]
  refine .concat (.append (.refl _) (.layoutBlock 0 (.flatMap fun s _ => ?_))) _
  exact Stmt.sameCode_lineLayout (s.sameCode_masked 1)

namespace File

/-- A file with the contents of its strings taken out. -/
def masked (f : File) : File :=
  { f with funcs := f.funcs.map Func.masked }

/-- A file can be printed exactly if it can without its texts. -/
theorem wellFormed_masked (f : File) : f.masked.wellFormed = f.wellFormed := by
  simp [masked, wellFormed, Function.comp_def, Func.wellFormed_masked]

/-- The texts of a file use no package. -/
theorem packages_masked {f : File} (h : f.wellFormed = true) : f.masked.packages = f.packages := by
  simp only [wellFormed, Bool.and_eq_true, List.all_eq_true] at h
  have hfuncs := List.flatMap_congr fun func hfunc => Func.packages_masked (h.2 func hfunc)
  simp [masked, packages, List.flatMap_map, hfuncs]

/-- The comments of a file do not depend on its strings. -/
theorem commentsOnLines_masked (f : File) : f.masked.CommentsOnLines ↔ f.CommentsOnLines := by
  simp [CommentsOnLines, masked, Func.masked]

/-- Emptying the strings of a file that can be printed keeps its code. -/
theorem sameCode_masked {f : File} (h : f.wellFormed = true) (root : String) :
    SameCode (f.layout .blank root) (f.masked.layout .blank root) := by
  have hfuncs : SameCode (funcsLayout .blank f.funcs) (funcsLayout .blank f.masked.funcs) := by
    simp only [funcsLayout, masked, List.flatMap_map]
    exact .flatMap fun func _ => .cons '\n' func.sameCode_masked
  rw [layout, layout, packages_masked h]
  exact .append (.refl _) hfuncs

/-- Two files that are the same but for the contents of their strings are printed both
or neither.  The texts of both have a code, and the two codes are the same once every
run of spaces is one space. -/
theorem code_eq_of_masked_eq {f g : File} (h : f.masked = g.masked)
    (hcomments : f.CommentsOnLines) (root : String) :
    ((∃ text, f.print root = .ok text) ↔ ∃ text, g.print root = .ok text) ∧
      ∀ s t, f.print root = .ok s → g.print root = .ok t →
        ∃ a b, blank s = .ok a ∧ blank t = .ok b ∧ squeeze a = squeeze b := by
  have hwellFormed : f.wellFormed = g.wellFormed := by
    rw [← f.wellFormed_masked, ← g.wellFormed_masked, h]
  have hg : g.CommentsOnLines := by
    rw [← g.commentsOnLines_masked, ← h]
    exact f.commentsOnLines_masked.2 hcomments
  simp only [print_eq_ok_iff]
  refine ⟨by simp [hwellFormed], ?_⟩
  rintro s t ⟨hfprint, rfl⟩ ⟨hgprint, rfl⟩
  refine ⟨_, _, blank_layout hfprint hcomments root, blank_layout hgprint hg root, ?_⟩
  calc squeeze (f.layout .blank root)
      = squeeze (f.masked.layout .blank root) := sameCode_masked hfprint root
    _ = squeeze (g.masked.layout .blank root) := by rw [h]
    _ = squeeze (g.layout .blank root) := (sameCode_masked hgprint root).symm

/-- A file that logs a text. -/
def greeting (text : String) : File where
  header := ["Hello."]
  package := "main"
  funcs :=
    [{ name := "main"
       results := []
       body := [.expr (.packageCall .log "Println" [.string text])] }]

/-- A text that would end the statement and start a comment. -/
def hostileText : String :=
  "\")\n\tos.Exit(1) // \\"

theorem code_eq_of_masked_eq_greeting :
    ∃ s t a b, (greeting "hi").print "example.com/api" = .ok s ∧
      (greeting hostileText).print "example.com/api" = .ok t ∧
      blank s = .ok a ∧ blank t = .ok b ∧ squeeze a = squeeze b := by
  have hs := (print_eq_ok_iff "example.com/api" (greeting "hi") _).2 ⟨by decide, rfl⟩
  have ht := (print_eq_ok_iff "example.com/api" (greeting hostileText) _).2 ⟨by decide, rfl⟩
  have hcomments : (greeting "hi").CommentsOnLines := ⟨by decide, by decide⟩
  have hmasked : (greeting "hi").masked = (greeting hostileText).masked := rfl
  obtain ⟨-, hcode⟩ := code_eq_of_masked_eq hmasked hcomments "example.com/api"
  obtain ⟨a, b, ha, hb, hab⟩ := hcode _ _ hs ht
  exact ⟨_, _, a, b, hs, ht, ha, hb, hab⟩

end File
end Program
end Stackwright
