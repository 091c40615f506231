import Stackwright.Proofs.Program.Neutral
import Stackwright.Proofs.Program.StandAlone

/-!
# Indented lines

The text of a block is indented: behind each of its line ends there is a tab or a further line
end.  The texts of expressions and statements inside of a block have that property, and it can be
put together from their pieces, since none of them ends with a line end.

No line of such a text opens an import block either.  A space in front of a parenthesis is
found in string literals, in front of an operand and nowhere else, so that there is always
more on the line.

Main results:

- Theorem `Expr.nested_layout`: the text of an expression on an indented line.
- Theorem `Stmt.nested_layout`: the text of a statement in a block.
- Theorem `Nested.line_spec`: every line of an indented text is empty or starts with a tab.
-/

namespace Stackwright
namespace Program

/-! ## Spaces in front of parentheses -/

/-- A text with a character that is no blank on its first line. -/
def HasMore (text : List Char) : Prop :=
  ∃ mid c rest, text = mid ++ c :: rest ∧ '\n' ∉ mid ∧ Text.isBlank c = false

/-- A text that goes on after each parenthesis behind a space, on the same line. -/
def GoesOn (text : List Char) : Prop :=
  ∀ front back, text = front ++ ' ' :: '(' :: back → HasMore back

/-- A text with more in it has it in front of another text too. -/
theorem HasMore.append {a : List Char} (h : HasMore a) (b : List Char) : HasMore (a ++ b) := by
  obtain ⟨mid, c, rest, rfl, hmid, hc⟩ := h
  exact ⟨mid, c, rest ++ b, by simp, hmid, hc⟩

theorem HasMore.cons {c : Char} (hc : Text.isBlank c = false) (rest : List Char) :
    HasMore (c :: rest) :=
  ⟨[], c, rest, rfl, List.not_mem_nil, hc⟩

namespace GoesOn

variable {a b text : List Char}

/-- The end of a text that goes on goes on. -/
theorem of_append (h : GoesOn (a ++ b)) : GoesOn b := by
  intro front back heq
  exact h (a ++ front) back (by rw [heq, List.append_assoc])

/-- A parenthesis at the start of the second text may come behind a space of the first one. -/
theorem append (ha : GoesOn a) (hb : GoesOn b)
    (hjoint : ∀ back, a.getLast? = some ' ' → b = '(' :: back → HasMore back) :
    GoesOn (a ++ b) := by
  intro front back heq
  rcases List.append_eq_append_iff.1 heq with ⟨more, -, hmore⟩ | ⟨more, hfront, hmore⟩
  · exact hb more back hmore
  · rcases more with _ | ⟨space, _ | ⟨parenthesis, more⟩⟩
    · exact hb [] back hmore.symm
    · cases hmore
      exact hjoint back (by simp [hfront]) rfl
    · cases hmore
      exact (ha front more hfront).append b

/-- A text without parentheses. -/
theorem plain (h : '(' ∉ text) : GoesOn text := by
  rintro front back rfl
  exact absurd (by simp) h

/-- A text on one line that ends neither with a blank nor with a parenthesis. -/
theorem inline (hline : '\n' ∉ text)
    (hlast : ∀ c ∈ text.getLast?, Text.isBlank c = false ∧ c ≠ '(') : GoesOn text := by
  rintro front back rfl
  rcases List.eq_nil_or_concat back with rfl | ⟨mid, c, rfl⟩
  · exact absurd rfl (hlast '(' (by simp)).2
  · rw [List.concat_eq_append] at hline hlast ⊢
    refine ⟨mid, c, [], rfl, fun hmem => hline ?_, (hlast c ?_).1⟩
    · simp [hmem]
    · rw [← List.cons_append, ← List.cons_append, ← List.append_assoc, List.getLast?_concat]
      rfl

/-- A text goes on behind any character but a space. -/
theorem cons {c : Char} (hc : c ≠ ' ') (h : GoesOn text) : GoesOn (c :: text) := by
  intro front back heq
  cases front with
  | nil =>
      rw [List.nil_append, List.cons.injEq] at heq
      exact absurd heq.1 hc
  | cons d front =>
      rw [List.cons_append, List.cons.injEq] at heq
      exact h front back heq.2

end GoesOn

/-! ## Nested texts -/

/-- Two characters that may follow each other in a block: a line is empty or starts with a tab. -/
def Indents (a b : Char) : Prop :=
  a = '\n' → b = '\t' ∨ b = '\n'

/-- A text on indented lines that ends on one of them. -/
structure Indented (text : List Char) : Prop where
  chain : text.IsChain Indents
  last : text.getLast? ≠ some '\n'

/-- A text on indented lines that can stand behind any character. -/
structure Nested (text : List Char) : Prop extends Indented text where
  goesOn : GoesOn (' ' :: text)

namespace Indented

variable {a b text : List Char}

/-- A text within a line needs no indentation. -/
theorem inline (h : '\n' ∉ text) : Indented text where
  chain := by
    induction text with
    | nil => exact .nil
    | cons c rest ih =>
        rw [List.mem_cons, not_or] at h
        rw [List.isChain_cons]
        exact ⟨fun _ _ hc => absurd hc.symm h.1, ih h.2⟩
  last hlast := h (List.mem_of_getLast? hlast)

theorem append (ha : Indented a) (hb : Indented b) : Indented (a ++ b) where
  chain := ha.chain.append hb.chain fun c hc _ _ hline => by
    rw [hline] at hc
    exact absurd hc ha.last
  last := by
    rcases List.eq_nil_or_concat b with rfl | ⟨front, c, rfl⟩
    · simpa using ha.last
    · have hlast := hb.last
      rw [List.concat_eq_append] at hlast ⊢
      simpa using hlast

/-- A text stays indented behind any character but a line end. -/
theorem cons {c : Char} (hc : c ≠ '\n') (h : Indented text) : Indented (c :: text) :=
  append (a := [c]) (inline (by simpa using Ne.symm hc)) h

/-- A line end with the tabs of a line in a block. -/
theorem newline {indent : Nat} (hindent : 0 < indent) : Indented (newline indent) where
  chain := by
    rw [Program.newline, List.isChain_cons]
    refine ⟨fun c hc _ => .inl ?_, (inline (Tail.newline_notMem_replicate indent)).chain⟩
    exact List.eq_of_mem_replicate (List.mem_of_mem_head? hc)
  last := by
    obtain ⟨n, rfl⟩ := Nat.exists_eq_succ_of_ne_zero (Nat.ne_of_gt hindent)
    rw [Program.newline, List.replicate_succ', ← List.cons_append, List.getLast?_concat]
    decide

/-- An empty line in front of a text that starts with a line end. -/
theorem emptyLine (hhead : text.head? = some '\n') (h : Indented text) :
    Indented ('\n' :: text) where
  chain := by
    rw [List.isChain_cons]
    refine ⟨fun c hc _ => .inr ?_, h.chain⟩
    cases hhead.symm.trans hc
    rfl
  last := by
    cases text with
    | nil => cases hhead
    | cons c rest =>
        rw [List.getLast?_cons_cons]
        exact h.last

end Indented

namespace Nested

variable {a b text : List Char} {indent : Nat}

/-- A text on one line without parentheses. -/
theorem plain (hline : '\n' ∉ text) (hopen : '(' ∉ text) : Nested text where
  toIndented := .inline hline
  goesOn := .plain (by simpa using hopen)

theorem nil : Nested [] :=
  plain List.not_mem_nil List.not_mem_nil

/-- A text on one line that ends neither with a blank nor with a parenthesis. -/
theorem inline (hline : '\n' ∉ text)
    (hlast : ∀ c ∈ text.getLast?, Text.isBlank c = false ∧ c ≠ '(') : Nested text where
  toIndented := .inline hline
  goesOn := by
    by_cases hne : text = []
    · exact .plain (by simp [hne])
    · refine .inline (by simpa using hline) fun c hc => hlast c ?_
      rwa [← List.singleton_append, List.getLast?_append_of_ne_nil _ hne] at hc

theorem goesOn_self (h : Nested text) : GoesOn text :=
  GoesOn.of_append (a := [' ']) h.goesOn

/-- Nested texts can be put one behind the other. -/
theorem append (ha : Nested a) (hb : Nested b) : Nested (a ++ b) where
  toIndented := ha.toIndented.append hb.toIndented
  goesOn := by
    rw [← List.cons_append]
    refine ha.goesOn.append hb.goesOn_self fun back _ hback => ?_
    exact hb.goesOn [] back (by rw [hback]; rfl)

/-- A text stays nested behind any character that neither ends a line nor opens a bracket. -/
theorem cons {c : Char} (hline : c ≠ '\n') (hopen : c ≠ '(') (h : Nested text) :
    Nested (c :: text) :=
  append (a := [c]) (plain (by simpa using Ne.symm hline) (by simpa using Ne.symm hopen)) h

/-- A line end with the indentation of a line in a block. -/
theorem newline (hindent : 0 < indent) : Nested (newline indent) where
  toIndented := .newline hindent
  goesOn := by
    refine .plain fun hmem => ?_
    simp only [Program.newline, List.mem_cons, List.mem_replicate] at hmem
    rcases hmem with hmem | hmem | ⟨-, hmem⟩ <;> exact absurd hmem (by decide)

/-- An argument list behind a name. -/
theorem call (ha : Nested a) (hsolid : Solid a) (h : Nested text) :
    Nested (a ++ '(' :: text) where
  toIndented := ha.toIndented.append (.cons (by decide) h.toIndented)
  goesOn := by
    rw [← List.cons_append]
    refine ha.goesOn.append (.cons (by decide) h.goesOn_self) fun back hlast _ => ?_
    -- The last character before the parenthesis is that of the name, which is no space.
    rw [← List.singleton_append, List.getLast?_append_of_ne_nil _ hsolid.ne_nil] at hlast
    exact absurd (hsolid.last ' ' hlast).1 (by decide)

/-- An operand, with or without parentheses. -/
theorem parenthesize (needed : Bool) (h : Nested text) (hsolid : Solid text) :
    Nested (parenthesize needed text) := by
  cases needed with
  | false => exact h
  | true =>
      refine append (a := '(' :: text) ⟨.cons (by decide) h.toIndented, ?_⟩
        (plain (by decide) (by decide))
      refine GoesOn.append (a := [' ']) (.plain (by decide)) (.cons (by decide) h.goesOn_self) ?_
      rintro back - ⟨⟩
      obtain ⟨c, rest, rfl, hc, -⟩ := hsolid.head
      exact .cons hc rest

/-- A text between brackets other than parentheses. -/
theorem bracket {opening closing : Char} (hopen : opening ∉ ['\n', '('])
    (hclose : closing ∉ ['\n', '(']) (h : Nested text) :
    Nested (opening :: text ++ [closing]) := by
  simp only [List.mem_cons, List.not_mem_nil, or_false, not_or] at hopen hclose
  exact append (cons hopen.1 hopen.2 h) (cons hclose.1 hclose.2 nil)

section Lists

variable {α : Type} {l : List α} {f : α → List Char}

/-- Lists of nested texts are nested. -/
theorem commaSeparated (h : ∀ x ∈ l, Nested (f x)) : Nested (commaSeparated (l.map f)) := by
  induction l with
  | nil => exact nil
  | cons x rest ih =>
      obtain ⟨hx, hrest⟩ := List.forall_mem_cons.1 h
      cases rest with
      | nil => simpa [Program.commaSeparated] using hx
      | cons y rest =>
          exact append hx (cons (by decide) (by decide) (cons (by decide) (by decide) (ih hrest)))

theorem flatMap (h : ∀ x ∈ l, Nested (f x)) : Nested (l.flatMap f) := by
  induction l with
  | nil => exact nil
  | cons x rest ih =>
      obtain ⟨hx, hrest⟩ := List.forall_mem_cons.1 h
      exact append hx (ih hrest)

/-- A name with its argument list. -/
theorem layoutArgs (hindent : 0 < indent) (broken : Bool) (ha : Nested a) (hsolid : Solid a)
    (h : ∀ x ∈ l, Nested (f x)) : Nested (a ++ layoutArgs indent broken (l.map f)) := by
  cases broken with
  | false =>
      exact ha.call hsolid ((commaSeparated h).append (plain (by decide) (by decide)))
  | true =>
      rw [Program.layoutArgs, if_pos rfl, List.cons_append, List.cons_append, List.flatMap_map]
      refine ha.call hsolid (append (append (flatMap fun x hx => ?_) (newline hindent)) ?_)
      · exact append (append (newline (Nat.succ_pos indent)) (h x hx))
          (plain (by decide) (by decide))
      · exact plain (by decide) (by decide)

end Lists
end Nested

/-! ## Expressions -/

theorem Nested.name {name : List Char} (h : isIdentifier name = true) : Nested name :=
  .inline (newline_notMem_of_tight (tight_name h)) (solid_name h).last

theorem Nested.qualifier (package : Package) : Nested (qualifier package) :=
  .inline (newline_notMem_of_tight (tight_qualifier package)) (solid_qualifier package).last

/-- Every type that can be printed is nested. -/
theorem TypeExpr.nested_layout {t : TypeExpr} (h : t.wellFormed = true) : Nested t.layout :=
  .inline (newline_notMem_of_tight (tight_layout h)) (solid_layout h).last

/-- Every literal is nested, also if it is a text with line ends. -/
theorem Literal.nested_layout (l : Literal) : Nested (l.layout .source) := by
  refine .inline ?_ l.solid_layout.last
  rcases l.layout_cases with ⟨s, hquote⟩ | htight
  · rw [hquote]
    exact newline_notMem_quote s
  · exact newline_notMem_of_tight htight

namespace Expr

/-- The text of an expression on an indented line can stand in a block. -/
theorem nested_layout {e : Expr} (h : e.wellFormed = true) {indent : Nat} (hindent : 0 < indent)
    (depth : Nat) : Nested (e.layout .source indent depth) := by
  have hargs : ∀ {k : Nat}, 0 < k → ∀ broken, 0 < argIndent k broken := by
    intro k hk broken
    cases broken with
    | false => exact hk
    | true => exact Nat.succ_pos k
  induction e using spliceInduction generalizing indent depth with
  | call name args ih =>
      simp only [wellFormed, argsWellFormed_eq, Bool.and_eq_true, List.all_eq_true] at h
      simp only [layout, argLayouts_eq]
      exact .layoutArgs hindent _ (.name h.1) (solid_name h.1)
        fun a ha => ih a ha (h.2 a ha) (hargs hindent _) _
  | packageCall package name args ih =>
      simp only [wellFormed, argsWellFormed_eq, Bool.and_eq_true, List.all_eq_true] at h
      simp only [layout, argLayouts_eq]
      exact .layoutArgs hindent _ ((Nested.qualifier package).append (.name h.1))
        ((solid_qualifier package).append (solid_name h.1).toTail)
        fun a ha => ih a ha (h.2 a ha) (hargs hindent _) _
  | methodCall receiver name args ihreceiver ih =>
      simp only [wellFormed, argsWellFormed_eq, Bool.and_eq_true, List.all_eq_true] at h
      obtain ⟨⟨hreceiver, hname⟩, hall⟩ := h
      have hhead := ihreceiver hreceiver hindent depth
      have hlist : ∀ {k : Nat}, 0 < k → ∀ broken, Nested (name.toList ++ layoutArgs k broken
          ((splice args).map (layout .source (argIndent k broken) (depth + 1)))) :=
        fun hk broken => .layoutArgs hk broken (.name hname) (solid_name hname)
          fun a ha => ih a ha (hall a ha) (hargs hk broken) (depth + 1)
      simp only [layout, argLayouts_eq, List.append_assoc, List.cons_append]
      split
      · have hnext : 0 < indent + 1 := Nat.succ_pos indent
        exact hhead.append
          (.cons (by decide) (by decide) ((Nested.newline hnext).append (hlist hnext _)))
      · exact hhead.append (.cons (by decide) (by decide) (hlist hindent _))
  | ident name =>
      simp only [layout]
      exact .name h
  | qualified package name =>
      simp only [layout]
      exact (Nested.qualifier package).append (.name h)
  | literal value =>
      simp only [layout]
      exact value.nested_layout
  | list element items ih =>
      simp only [wellFormed, itemsWellFormed_eq, Bool.and_eq_true, List.all_eq_true] at h
      have htype := TypeExpr.nested_layout (t := .slice element) h.1
      have hitems := Nested.commaSeparated fun a ha => ih a ha (h.2 a ha) hindent (depth + 1)
      simp only [layout, itemLayouts_eq, List.append_assoc]
      exact htype.append (.bracket (by decide) (by decide) hitems)
  | map key value entries ih =>
      simp only [wellFormed, entriesWellFormed_eq, Bool.and_eq_true, List.all_eq_true] at h
      have htype := TypeExpr.nested_layout (t := .map key value) (by
        rw [TypeExpr.wellFormed, Bool.and_eq_true]
        exact h.1)
      simp only [layout, entryLayouts_eq, List.append_assoc]
      refine htype.append (.bracket (by decide) (by decide) ?_)
      refine .commaSeparated fun entry he => ?_
      have hvalue := (ih entry he).2 (h.2 entry he).2 hindent (depth + 1)
      exact ((ih entry he).1 (h.2 entry he).1 hindent (depth + 1)).append
        (.cons (by decide) (by decide) (.cons (by decide) (by decide) hvalue))
  | group items => simp [wellFormed] at h
  | type value =>
      simp only [layout]
      exact value.nested_layout h
  | unary op operand ih =>
      rw [wellFormed] at h
      have hsymbol : Nested op.symbol := by
        cases op <;> exact .plain (by decide) (by decide)
      simp only [layout]
      exact hsymbol.append ((ih h hindent depth).parenthesize _ (solid_layout h indent depth))
  | binary op left right ihleft ihright =>
      rw [wellFormed, Bool.and_eq_true] at h
      have hsymbol : Nested op.symbol := by
        cases op <;> exact .plain (by decide) (by decide)
      have hleft := (ihleft h.1 hindent depth).parenthesize (left.bindsBelow op.precedence)
        (solid_layout h.1 indent depth)
      have hright := (ihright h.2 hindent depth).parenthesize (right.bindsBelow op.precedence)
        (solid_layout h.2 indent depth)
      simp only [layout]
      exact (hleft.append hsymbol).append hright

end Expr

/-! ## Statements -/

namespace Stmt

theorem lineLayout_of_ne_blank (ink : Ink) (indent : Nat) {s : Stmt} (h : s ≠ .blank) :
    lineLayout ink indent s = newline indent ++ s.layout ink indent := by
  cases s <;> first | rfl | exact absurd rfl h

/-- The line of a statement starts with the end of the line before it. -/
theorem exists_lineLayout (ink : Ink) (indent : Nat) (s : Stmt) :
    ∃ rest, lineLayout ink indent s = '\n' :: rest := by
  cases s <;> exact ⟨_, rfl⟩

/-- Lines end where the next ones start. -/
theorem head?_lines (ink : Ink) (indent : Nat) (body : List Stmt) {text : List Char}
    (h : text.head? = some '\n') :
    (body.flatMap (lineLayout ink indent) ++ text).head? = some '\n' := by
  cases body with
  | nil => exact h
  | cons s rest =>
      obtain ⟨more, hmore⟩ := exists_lineLayout ink indent s
      rw [List.flatMap_cons, hmore]
      rfl

/-- The lines of a block in front of the next line end. -/
theorem nested_lines {body : List Stmt} {indent : Nat} (hindent : 0 < indent)
    (h : ∀ s ∈ body, Nested (s.layout .source indent)) {text : List Char} (htext : Nested text)
    (hhead : text.head? = some '\n') :
    Nested (body.flatMap (lineLayout .source indent) ++ text) := by
  induction body with
  | nil => exact htext
  | cons s rest ih =>
      obtain ⟨hs, hrest⟩ := List.forall_mem_cons.1 h
      have hnext := ih hrest
      rw [List.flatMap_cons, List.append_assoc]
      by_cases hblank : s = .blank
      · subst hblank
        refine ⟨.emptyLine (head?_lines .source indent rest hhead) hnext.toIndented, ?_⟩
        refine GoesOn.append (a := [' ']) (.plain (by decide))
          (.cons (by decide) hnext.goesOn_self) ?_
        rintro back - ⟨⟩
      · rw [lineLayout_of_ne_blank .source indent hblank]
        exact ((Nested.newline hindent).append hs).append hnext

/-- A block of nested statements is nested if it is indented. -/
theorem nested_layoutBlock {body : List Stmt} {indent : Nat} (hindent : 0 < indent)
    (h : ∀ s ∈ body, Nested (s.layout .source (indent + 1))) :
    Nested (layoutBlock indent (bodyLayout .source (indent + 1) body)) := by
  have hlines := nested_lines (Nat.succ_pos indent) h (.newline hindent) rfl
  rw [layoutBlock, bodyLayout_eq, List.cons_append, List.cons_append, List.cons_append,
    List.cons_append]
  exact .cons (by decide) (by decide)
    (.cons (by decide) (by decide) (hlines.append (.plain (by decide) (by decide))))

/-- The text of a statement can stand in a block. -/
theorem nested_layout {s : Stmt} (h : s.wellFormed = true) {indent : Nat} (hindent : 0 < indent) :
    Nested (s.layout .source indent) := by
  have hbody : ∀ {body : List Stmt}, (∀ s ∈ body, ∀ (_ : s.wellFormed = true) {k : Nat}, 0 < k →
      Nested (s.layout .source k)) → bodyWellFormed body = true → ∀ {k : Nat}, 0 < k →
      Nested (layoutBlock k (bodyLayout .source (k + 1) body)) := by
    intro body ih hformed k hk
    rw [bodyWellFormed_eq, List.all_eq_true] at hformed
    exact nested_layoutBlock hk fun s hs => ih s hs (hformed s hs) (Nat.succ_pos k)
  induction s using bodyInduction generalizing indent with
  | expr value =>
      rw [layout]
      exact value.nested_layout h hindent 0
  | define names value =>
      rw [wellFormed, Bool.and_eq_true, List.all_eq_true] at h
      have hnames : Nested (commaSeparated (names.map String.toList)) :=
        .commaSeparated fun name hname => .name (h.1 name hname)
      rw [layout]
      exact (hnames.append (.plain (by decide) (by decide))).append
        (value.nested_layout h.2 hindent 0)
  | result value =>
      cases value with
      | none =>
          rw [layout]
          exact .plain (by decide) (by decide)
      | some value =>
          rw [layout]
          exact .append (.plain (by decide) (by decide)) (value.nested_layout h hindent 0)
  | branch init condition body ihinit ihbody =>
      rw [wellFormed, Bool.and_eq_true, Bool.and_eq_true] at h
      obtain ⟨⟨hinit, hcondition⟩, hformed⟩ := h
      have hfront : Nested (initLayout .source indent init) := by
        cases init with
        | none => exact .nil
        | some s =>
            rw [initLayout]
            exact (ihinit s rfl hinit hindent).append (.plain (by decide) (by decide))
      rw [layout]
      exact (((Nested.plain (by decide) (by decide)).append hfront).append
        (condition.nested_layout hcondition hindent 0)).append (hbody ihbody hformed hindent)
  | go body ih | defer body ih =>
      have hend : ∀ c ∈ some ')', Text.isBlank c = false ∧ c ≠ '(' := by
        rintro c ⟨⟩
        decide
      rw [layout]
      exact ((Nested.inline (by decide) (by exact hend)).append (hbody ih h hindent)).append
        (.inline (by decide) (by exact hend))
  | deferCall call =>
      rw [layout]
      exact .append (.plain (by decide) (by decide)) (call.nested_layout h hindent 0)
  | blank => exact .nil

end Stmt

/-! ## The lines of an indented text -/

/-- A line that is cut out of a text lacks at most blanks at its end. -/
theorem IsCut.exists_blanks {raw line : List Char} (h : IsCut raw line) :
    ∃ blanks, raw = line ++ blanks ∧ ∀ c ∈ blanks, Text.isBlank c = true := by
  rcases h with rfl | rfl
  · exact ⟨[], by simp, by simp⟩
  · exact ⟨['\r'], rfl, List.forall_mem_singleton.2 (by decide)⟩

theorem IsCut.head?_eq {raw line : List Char} {c : Char} (h : IsCut raw line)
    (hraw : raw.head? = some c) (hc : c ≠ '\r') : line.head? = some c := by
  rcases h with rfl | rfl
  · exact hraw
  · cases line with
    | nil => exact absurd (Option.some.inj hraw).symm hc
    | cons d rest => exact hraw

/-- Blanks are all there is on a line that ends behind them. -/
theorem not_hasMore {blanks : List Char} (h : ∀ c ∈ blanks, Text.isBlank c = true)
    (rest : List Char) : ¬ HasMore (blanks ++ '\n' :: rest) := by
  rintro ⟨mid, c, back, heq, hmid, hc⟩
  rcases List.append_eq_append_iff.1 heq with ⟨more, rfl, hmore⟩ | ⟨more, rfl, hmore⟩
  · cases more with
    | nil =>
        cases hmore
        exact absurd hc (by decide)
    | cons d more =>
        cases hmore
        exact hmid (by simp)
  · cases more with
    | nil =>
        cases hmore
        exact absurd hc (by decide)
    | cons d more =>
        cases hmore
        rw [h c (by simp)] at hc
        cases hc

/-- A line stands behind the end of another one. -/
theorem exists_unlines_eq {raw : List (List Char)} {line : List Char} (h : line ∈ raw) :
    ∃ front back, '\n' :: unlines raw = front ++ '\n' :: (line ++ '\n' :: back) := by
  induction raw with
  | nil => cases h
  | cons first rest ih =>
      rw [unlines_cons]
      rcases List.mem_cons.1 h with rfl | h
      · exact ⟨[], unlines rest, rfl⟩
      · obtain ⟨front, back, heq⟩ := ih h
        exact ⟨'\n' :: first ++ front, back, by rw [heq]; simp⟩

/-- Every line of an indented text is empty or starts with a tab, and none opens an import
block. -/
theorem Nested.line_spec {raw : List (List Char)} {tail : List Char}
    (h : Nested ('\n' :: unlines raw ++ tail)) (hraw : ∀ line ∈ raw, '\n' ∉ line)
    {line cut : List Char} (hline : line ∈ raw) (hcut : IsCut line cut) :
    (cut = [] ∨ cut.head? = some '\t') ∧ opensImports cut = false := by
  obtain ⟨front, back, heq⟩ := exists_unlines_eq hline
  have hchain := h.chain
  have hgoesOn := h.goesOn_self
  rw [heq, List.append_assoc, List.cons_append, List.append_assoc, List.cons_append]
    at hchain hgoesOn
  constructor
  · cases line with
    | nil =>
        rcases hcut with rfl | hcut
        · exact .inl rfl
        · simp at hcut
    | cons c rest =>
        have hpair := (List.isChain_cons_cons.1 (List.isChain_append.1 hchain).2.1).1 rfl
        have hc : c ≠ '\n' := fun hc => hraw _ hline (hc ▸ List.mem_cons_self)
        rw [hpair.resolve_right hc] at hcut
        exact .inr (hcut.head?_eq rfl (by decide))
  · rw [← Bool.not_eq_true]
    intro hopens
    rw [opensImports, beq_iff_eq] at hopens
    obtain ⟨before, after, htrim, -, hafter⟩ := Text.exists_blanks_trim cut
    obtain ⟨blanks, rfl, hblanks⟩ := hcut.exists_blanks
    -- The line would end with a parenthesis behind a space, and with blanks.
    have hend : ∀ c ∈ after ++ blanks, Text.isBlank c = true :=
      List.forall_mem_append.2 ⟨hafter, hblanks⟩
    refine not_hasMore hend (back ++ tail)
      (hgoesOn (front ++ '\n' :: before ++ ['i', 'm', 'p', 'o', 'r', 't']) _ ?_)
    rw [htrim, hopens]
    simp

/-- A text that starts with a line end and is ended by one consists of lines. -/
theorem exists_unlines_ended {text : List Char} (h : (text ++ ['\n']).head? = some '\n') :
    ∃ raw, text ++ ['\n'] = '\n' :: unlines raw ∧ ∀ line ∈ raw, '\n' ∉ line := by
  obtain ⟨raw, last, rfl, hraw, hlast⟩ := exists_unlines text
  have htext : unlines raw ++ last ++ ['\n'] = unlines (raw ++ [last]) := by
    simp [unlines]
  have hall : ∀ line ∈ raw ++ [last], '\n' ∉ line := by
    rw [List.forall_mem_append]
    exact ⟨hraw, List.forall_mem_singleton.2 hlast⟩
  rw [htext] at h ⊢
  obtain ⟨first, rest, hsplit⟩ :=
    List.exists_cons_of_ne_nil (List.append_ne_nil_of_right_ne_nil raw (List.cons_ne_nil last []))
  rw [hsplit, unlines_cons] at h ⊢
  rw [hsplit, List.forall_mem_cons] at hall
  cases first with
  | nil => exact ⟨rest, rfl, hall.2⟩
  | cons c more =>
      rw [List.cons_append, List.head?_cons, Option.some.injEq] at h
      exact absurd (h ▸ List.mem_cons_self) hall.1

/-- The body of a function goes on behind the line that opens it, on lines that are empty or start
with a tab. -/
theorem Stmt.exists_bodyLines {body : List Stmt} (h : body.all wellFormed = true) :
    ∃ text lines, body.flatMap (lineLayout .source 1) ++ ['\n'] = '\n' :: text ∧
      (∀ s, Text.lines (text ++ s) = lines ++ Text.lines s) ∧
      ∀ line ∈ lines, (line = [] ∨ line.head? = some '\t') ∧ opensImports line = false := by
  rw [List.all_eq_true] at h
  obtain ⟨raw, htext, hraw⟩ := exists_unlines_ended (head?_lines .source 1 body rfl)
  obtain ⟨lines, hcut, hlines⟩ := exists_lines_unlines hraw
  have hnested := nested_lines (Nat.succ_pos 0)
    (fun s hs => nested_layout (h s hs) (Nat.succ_pos 0)) (.newline (Nat.succ_pos 0)) rfl
  have htab : body.flatMap (lineLayout .source 1) ++ newline 1 = '\n' :: unlines raw ++ ['\t'] := by
    rw [← htext]
    simp [newline]
  rw [htab] at hnested
  exact ⟨unlines raw, lines, htext, hlines, forall_mem_of_forall₂ hcut fun line hline cut hcut =>
    hnested.line_spec hraw hline hcut⟩

end Program
end Stackwright
