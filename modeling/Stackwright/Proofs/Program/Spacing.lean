import Stackwright.Proofs.Program.Solid

/-!
# Empty lines between statements

A program has empty lines at chosen places only: between two statements of a
function, between functions, and around the import block.  If they stand alone
there and comments do not end with a blank, the printed program is in canonical
form.

Main results:

- Theorem `Stmt.solid_layout`: statements without empty lines in their blocks are
  solid.
- Theorem `File.tidy_layout`: a spaced file is tidy.
- Theorem `File.canonicalize_spaced`: a spaced file is in canonical form.
-/

namespace Stackwright
namespace Program

/-! ## Statements -/

namespace Stmt

mutual
/-- Whether a statement starts with text and has no empty line in its blocks. -/
def isDense : Stmt → Bool
  | .define names _ => !names.isEmpty
  | .if init _ body => initDense init && bodyDense body
  | .go body => bodyDense body
  | .defer body => bodyDense body
  | .blank => false
  | _ => true

/-- Whether the statement in front of a condition has no empty line. -/
def initDense : Option Stmt → Bool
  | none => true
  | some s => s.isDense

/-- Whether the statements of a block have no empty line. -/
def bodyDense : List Stmt → Bool
  | [] => true
  | s :: rest => s.isDense && bodyDense rest
end

theorem bodyDense_eq (body : List Stmt) : bodyDense body = body.all isDense := by
  induction body with
  | nil => rfl
  | cons s rest ih => simp [bodyDense, ih]

/-- The line of a dense statement. -/
theorem lineLayout_of_isDense {s : Stmt} (h : s.isDense = true) (ink : Ink) (indent : Nat) :
    s.lineLayout ink indent = newline indent ++ s.layout ink indent := by
  cases s with
  | blank => cases h
  | _ => rfl

/-- The lines of a block whose statements are solid. -/
theorem tail_block {body : List Stmt} {indent : Nat}
    (h : ∀ s ∈ body, s.isDense = true ∧ Solid (s.layout .source (indent + 1))) :
    Tail (layoutBlock indent (body.flatMap (lineLayout .source (indent + 1)))) := by
  refine .layoutBlock indent (.flatMap fun s hs => ?_)
  rw [lineLayout_of_isDense (h s hs).1]
  exact (h s hs).2.newline (indent + 1)

/-- A call of a function literal whose statements are solid, after a keyword. -/
theorem solid_funcLiteral {word : List Char} {body : List Stmt} {indent : Nat}
    (hword : Solid word)
    (h : ∀ s ∈ body, s.isDense = true ∧ Solid (s.layout .source (indent + 1))) :
    Solid (word ++ ['(', ')']
      ++ layoutBlock indent (body.flatMap (lineLayout .source (indent + 1))) ++ ['(', ')']) :=
  ((hword.append .call).append (tail_block h)).append .call

/-- A statement without empty lines in its blocks is solid, at every indentation. -/
theorem solid_layout {s : Stmt} (h : s.wellFormed = true) (hdense : s.isDense = true)
    (indent : Nat) : Solid (s.layout .source indent) := by
  induction s using bodyInduction generalizing indent with
  | expr value =>
      simp only [layout]
      exact Expr.solid_layout h indent 0
  | define names value =>
      simp only [wellFormed, Bool.and_eq_true, List.all_eq_true] at h
      simp only [isDense, Bool.not_eq_true', List.isEmpty_eq_false_iff] at hdense
      simp only [layout, List.append_assoc]
      refine (Solid.commaSeparated hdense fun name hname => solid_name (h.1 name hname)).append ?_
      exact (Expr.solid_layout h.2 indent 0).after (by decide) ' '
  | result value =>
      have hword : Solid ['r', 'e', 't', 'u', 'r', 'n'] := .word (by decide) (by decide)
      cases value with
      | none =>
          simp only [layout]
          exact hword
      | some value =>
          exact hword.append ((Expr.solid_layout h indent 0).after List.not_mem_nil ' ')
  | branch init condition body ihinit ihbody =>
      simp only [wellFormed, bodyWellFormed_eq, Bool.and_eq_true, List.all_eq_true] at h
      simp only [isDense, bodyDense_eq, Bool.and_eq_true, List.all_eq_true] at hdense
      obtain ⟨⟨hinit, hcondition⟩, hbody⟩ := h
      have htest := Expr.solid_layout hcondition indent 0
      have hfront :
          Solid (initLayout .source indent init ++ condition.layout .source indent 0) := by
        cases init with
        | none => exact htest
        | some s =>
            rw [initLayout, List.append_assoc]
            refine (ihinit s rfl hinit hdense.1 indent).append ?_
            exact .cons (by decide) (htest.after List.not_mem_nil ' ') (by simp)
      have hword : Solid ['i', 'f'] := .word (by decide) (by decide)
      have hblock := tail_block fun s hs =>
        ⟨hdense.2 s hs, ihbody s hs (hbody s hs) (hdense.2 s hs) (indent + 1)⟩
      simp only [layout, bodyLayout_eq]
      simpa using (hword.append (hfront.after List.not_mem_nil ' ')).append hblock
  | go body ih =>
      simp only [wellFormed, bodyWellFormed_eq, List.all_eq_true] at h
      simp only [isDense, bodyDense_eq, List.all_eq_true] at hdense
      have hword : Solid ['g', 'o', ' ', 'f', 'u', 'n', 'c'] :=
        .inline (by decide) (by decide) (by decide) rfl (by decide) (by decide)
      simp only [layout, bodyLayout_eq]
      exact solid_funcLiteral hword fun s hs =>
        ⟨hdense s hs, ih s hs (h s hs) (hdense s hs) (indent + 1)⟩
  | defer body ih =>
      simp only [wellFormed, bodyWellFormed_eq, List.all_eq_true] at h
      simp only [isDense, bodyDense_eq, List.all_eq_true] at hdense
      have hword : Solid ['d', 'e', 'f', 'e', 'r', ' ', 'f', 'u', 'n', 'c'] :=
        .inline (by decide) (by decide) (by decide) rfl (by decide) (by decide)
      simp only [layout, bodyLayout_eq]
      exact solid_funcLiteral hword fun s hs =>
        ⟨hdense s hs, ih s hs (h s hs) (hdense s hs) (indent + 1)⟩
  | deferCall call =>
      have hword : Solid ['d', 'e', 'f', 'e', 'r'] := .word (by decide) (by decide)
      simp only [layout]
      exact hword.append ((Expr.solid_layout h indent 0).after List.not_mem_nil ' ')
  | blank => cases hdense

/-- Statements with empty lines only between them, and no two in a row. -/
inductive Spaced : List Stmt → Prop where
  | last {s : Stmt} : s.isDense = true → Spaced [s]
  | next {s : Stmt} {rest : List Stmt} : s.isDense = true → Spaced rest → Spaced (s :: rest)
  | gap {s : Stmt} {rest : List Stmt} :
      s.isDense = true → Spaced rest → Spaced (s :: .blank :: rest)

namespace Spaced

/-- Spaced statements after spaced statements, with an empty line between them. -/
theorem append {a b : List Stmt} (ha : Spaced a) (hb : Spaced b) : Spaced (a ++ .blank :: b) := by
  induction ha with
  | last hs => exact .gap hs hb
  | next hs _ ih => exact .next hs ih
  | gap hs _ ih => exact .gap hs ih

/-- Statements without empty lines between them. -/
theorem dense {body : List Stmt} (hne : body ≠ []) (h : ∀ s ∈ body, s.isDense = true) :
    Spaced body := by
  induction body with
  | nil => exact absurd rfl hne
  | cons s rest ih =>
      have hs := h s List.mem_cons_self
      cases rest with
      | nil => exact .last hs
      | cons t rest =>
          exact .next hs (ih (List.cons_ne_nil _ _) fun u hu => h u (List.mem_cons_of_mem _ hu))

end Spaced

/-- The line of a statement, with the line end after it. -/
def lineText (indent : Nat) : Stmt → List Char
  | .blank => ['\n']
  | s => List.replicate indent '\t' ++ s.layout .source indent ++ ['\n']

theorem lineText_of_isDense {s : Stmt} (h : s.isDense = true) (indent : Nat) :
    s.lineText indent = List.replicate indent '\t' ++ s.layout .source indent ++ ['\n'] := by
  cases s with
  | blank => cases h
  | _ => rfl

/-- Line ends may be counted after the statements instead of before them. -/
theorem flatMap_lineLayout (indent : Nat) (body : List Stmt) (text : List Char) :
    body.flatMap (lineLayout .source indent) ++ '\n' :: text
      = '\n' :: body.flatMap (lineText indent) ++ text := by
  induction body with
  | nil => rfl
  | cons s rest ih =>
      have hline : s.lineLayout .source indent ++ ['\n'] = '\n' :: s.lineText indent := by
        cases s with
        | blank => rfl
        | _ => simp [lineLayout, lineText, newline]
      rw [List.flatMap_cons, List.append_assoc, ih, List.cons_append, List.append_cons, hline]
      simp

/-- Spaced statements are tidy on their lines. -/
theorem Spaced.tidy {body : List Stmt} (h : Spaced body) (hwell : body.all wellFormed = true)
    (indent : Nat) : Tidy (body.flatMap (lineText indent)) := by
  have hstmt : ∀ {s : Stmt}, s.isDense = true → s.wellFormed = true →
      Tidy (s.lineText indent) := by
    intro s hdense hs
    rw [lineText_of_isDense hdense]
    exact (solid_layout hs hdense indent).tidy indent
  induction h with
  | last hdense =>
      rw [List.all_cons, Bool.and_eq_true] at hwell
      simpa using hstmt hdense hwell.1
  | next hdense _ ih =>
      rw [List.all_cons, Bool.and_eq_true] at hwell
      exact (hstmt hdense hwell.1).append (ih hwell.2)
  | gap hdense _ ih =>
      simp only [List.all_cons, Bool.and_eq_true] at hwell
      exact (hstmt hdense hwell.1).gap (ih hwell.2.2)

end Stmt

/-! ## Functions -/

namespace Tidy

/-- A line with text that is no end of an import block. -/
theorem line {line : List Char} (h : IsTrimmed line) (hne : line ≠ [])
    (hcloses : closesImports line = false) (hopens : opensImports line = false) :
    Tidy (line ++ ['\n']) :=
  ⟨[line], by simp [unlines], .singleton h hne hcloses hopens⟩

/-- Tidy texts after a tidy text, each after an empty line. -/
theorem gaps {α : Type} {text : List Char} {l : List α} {f : α → List Char} (h : Tidy text)
    (hl : ∀ x ∈ l, Tidy (f x)) : Tidy (text ++ l.flatMap fun x => '\n' :: f x) := by
  induction l generalizing text with
  | nil => simpa using h
  | cons x rest ih =>
      have hx := h.gap (hl x List.mem_cons_self)
      have hrest := ih hx fun y hy => hl y (List.mem_cons_of_mem _ hy)
      simpa using hrest

end Tidy

/-- A comment that does not end with a blank is tidy. -/
theorem tidy_comment {line : String} (h : IsTrimmed line.toList) : Tidy (printComment line) := by
  have hcomment : ∀ rest, IsTrimmed ('/' :: rest) → Tidy ('/' :: rest ++ ['\n']) := by
    intro rest hrest
    exact .line hrest (List.cons_ne_nil _ _) (closesImports_cons (by decide) (by decide) rest)
      (opensImports_cons (by decide) (by decide) rest)
  rw [printComment]
  split
  · exact hcomment ['/'] (.of_getLast? (by decide) rfl (by decide))
  · next hempty =>
      have hne : line.toList ≠ [] := by simpa using hempty
      refine hcomment ('/' :: ' ' :: line.toList) ⟨?_, ?_⟩
      · simpa using h.newline_notMem
      · intro c hc
        have hfront : '/' :: '/' :: ' ' :: line.toList = ['/', '/', ' '] ++ line.toList := rfl
        rw [hfront, List.getLast?_append_of_ne_nil _ hne] at hc
        exact h.last c hc

/-- The result types of a function can come after its name. -/
theorem tail_layoutResults {results : List TypeExpr}
    (h : results.all TypeExpr.wellFormed = true) :
    Tail (layoutResults (results.map TypeExpr.layout)) := by
  rw [List.all_eq_true] at h
  have htypes : ∀ t ∈ results, Solid t.layout := fun t ht => TypeExpr.solid_layout (h t ht)
  match results, htypes with
  | [], _ => exact .nil
  | [t], htypes => exact (htypes t List.mem_cons_self).after List.not_mem_nil ' '
  | t :: u :: rest, htypes =>
      refine Tail.after List.not_mem_nil (by decide) ?_ ' '
      exact .bracket (by decide) (.commaSeparated htypes) (by decide) (by decide)

namespace Func

theorem solid_signature {f : Func} (hname : isIdentifier f.name.toList = true)
    (hresults : f.results.all TypeExpr.wellFormed = true) : Solid f.signature := by
  have hword : Solid ['f', 'u', 'n', 'c'] := .word (by decide) (by decide)
  exact ((hword.append ((solid_name hname).after List.not_mem_nil ' ')).append .call).append
    (tail_layoutResults hresults)

/-- A function with spaced statements is tidy. -/
theorem tidy_layout {f : Func} (h : f.wellFormed = true)
    (hdoc : ∀ line ∈ f.doc, IsTrimmed line.toList) (hbody : Stmt.Spaced f.body) :
    Tidy (f.layout .source) := by
  simp only [wellFormed, Bool.and_eq_true] at h
  obtain ⟨⟨hname, hresults⟩, hwell⟩ := h
  have hopening : Tidy (f.signature ++ [' ', '\x7b'] ++ ['\n']) := by
    have hbrace : Tail [' ', '\x7b'] :=
      .after List.not_mem_nil (by decide) (.char (by decide) (by decide)) ' '
    exact ((solid_signature hname hresults).append hbrace).tidy 0
  have hclosing : Tidy ['\x7d', '\n'] := by
    have hbrace : Solid ['\x7d'] := .word (by decide) (by decide)
    exact hbrace.tidy 0
  have hcode := (hopening.append (hbody.tidy hwell 1)).append hclosing
  have htext : f.layout .source = f.doc.flatMap printComment
      ++ (f.signature ++ [' ', '\x7b'] ++ ['\n'] ++ f.body.flatMap (Stmt.lineText 1)
        ++ ['\x7d', '\n']) := by
    have hshift := Stmt.flatMap_lineLayout 1 f.body ['\x7d', '\n']
    simp only [layout, layoutBlock, newline, List.replicate_zero, Ink.source, List.append_assoc,
      List.cons_append, List.nil_append] at hshift ⊢
    rw [hshift]
  rw [htext]
  by_cases hne : f.doc = []
  · rw [hne]
    exact hcode
  · exact (Tidy.flatMap hne fun line hline => tidy_comment (hdoc line hline)).append hcode

end Func

/-! ## Files -/

theorem isTrimmed_importLine (path : String) : IsTrimmed (importLine .source path) :=
  .of_getLast? (isLine_importLine_source path).1 (getLast?_importLine path) (by decide)

theorem opensImports_importLine (path : String) :
    opensImports (importLine .source path) = false := by
  rw [opensImports, trim_importLine, beq_eq_false_iff_ne]
  intro heq
  cases heq

/-- The lines of imports are settled. -/
theorem settled_importEntries {groups : List (List String)} (hne : groups ≠ [])
    (h : ∀ paths ∈ groups, paths ≠ []) : Settled (importEntries .source groups) := by
  have hgroup : ∀ paths : List String, paths ≠ [] →
      Settled (paths.map (importLine .source)) := by
    intro paths hpaths
    refine .dense (by simpa using hpaths) (fun line hline => ?_) (fun line hline => ?_)
      fun line hline => ?_
    · obtain ⟨path, -, rfl⟩ := List.mem_map.1 hline
      exact ⟨isTrimmed_importLine path, List.cons_ne_nil _ _⟩
    · obtain ⟨path, -, rfl⟩ := List.mem_map.1 (List.mem_of_head? hline)
      exact closesImports_importLine path
    · obtain ⟨path, -, rfl⟩ := List.mem_map.1 (List.mem_of_getLast? hline)
      exact opensImports_importLine path
  induction groups with
  | nil => exact absurd rfl hne
  | cons paths rest ih =>
      have hpaths := hgroup paths (h paths List.mem_cons_self)
      cases rest with
      | nil =>
          rw [importEntries_singleton]
          exact hpaths
      | cons other rest =>
          rw [importEntries_cons_cons]
          exact hpaths.gap
            (ih (List.cons_ne_nil _ _) fun paths hmem => h paths (List.mem_cons_of_mem _ hmem))

/-- An import block after an empty line, if there is one, leaves a text tidy. -/
theorem Tidy.append_importsLayout {text : List Char} (htext : Tidy text) (root : String)
    (packages : List Package) :
    Tidy (text ++ importsLayout .source (importGroups root packages)) := by
  have hgroups : ∀ paths ∈ importGroups root packages, paths ≠ [] := by
    intro paths hpaths
    have hnonempty := (List.mem_filter.1 hpaths).2
    simpa using hnonempty
  by_cases hne : importGroups root packages = []
  · rw [hne]
    simpa [importsLayout] using htext
  · have hentries := settled_importEntries hne hgroups
    have hclosing : Settled (importEntries .source (importGroups root packages) ++ [[')']]) :=
      hentries.concat (.of_getLast? (by decide) rfl (by decide)) (by decide) (by decide)
    have hblock : Settled (importOpening
        :: (importEntries .source (importGroups root packages) ++ [[')']])) :=
      .cons (.of_getLast? (by decide) rfl (by decide)) (by decide) (by decide) hclosing
    rw [importsLayout_eq .source hne]
    exact htext.gap ⟨_, rfl, hblock⟩

namespace File

/-- A file whose comments do not end with a blank and whose functions have empty lines only
between statements. -/
structure Spaced (f : File) : Prop where
  header : ∀ line ∈ f.header, IsTrimmed line.toList
  doc : ∀ func ∈ f.funcs, ∀ line ∈ func.doc, IsTrimmed line.toList
  body : ∀ func ∈ f.funcs, Stmt.Spaced func.body

theorem Spaced.commentsOnLines {f : File} (h : f.Spaced) : f.CommentsOnLines :=
  ⟨fun line hline => (h.header line hline).newline_notMem,
    fun func hfunc line hline => (h.doc func hfunc line hline).newline_notMem⟩

/-- The text of a spaced file is tidy. -/
theorem tidy_layout {f : File} (h : f.wellFormed = true) (hspaced : f.Spaced) (root : String) :
    Tidy (f.layout .source root) := by
  rw [wellFormed, Bool.and_eq_true, List.all_eq_true] at h
  have hclause : Tidy (f.packageLine ++ ['\n']) := by
    have hword : Solid ['p', 'a', 'c', 'k', 'a', 'g', 'e'] := .word (by decide) (by decide)
    exact (hword.append ((solid_name h.1).after List.not_mem_nil ' ')).tidy 0
  have hfront : Tidy (f.frontLayout .source) := by
    have htext : f.frontLayout .source
        = headerLayout .source f.header ++ (f.packageLine ++ ['\n']) := by
      simp [frontLayout, packageLine]
    rw [htext, headerLayout]
    split
    · exact hclause
    · next hne =>
        have hheader : Tidy (f.header.flatMap printComment) :=
          .flatMap (by simpa using hne) fun line hline => tidy_comment (hspaced.header line hline)
        rw [List.append_assoc]
        exact hheader.gap hclause
  refine (hfront.append_importsLayout root f.packages).gaps fun func hfunc => ?_
  exact Func.tidy_layout (h.2 func hfunc) (hspaced.doc func hfunc) (hspaced.body func hfunc)

/-- The text of a spaced file with imports is in canonical form. -/
theorem canonicalize_spaced {f : File} (h : f.wellFormed = true) (hspaced : f.Spaced)
    (hne : f.packages ≠ []) {root : String} (hroot : ∀ c ∈ root.toList, Text.isBlank c = false) :
    canonicalize (f.layout .source root) = .ok (f.layout .source root) :=
  canonicalize_layout h hspaced.commentsOnLines hne hroot (tidy_layout h hspaced root)

end File
end Program
end Stackwright
