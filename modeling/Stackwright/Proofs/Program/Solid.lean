import Stackwright.Proofs.Program.Canonical

/-!
# Texts without empty lines

A text is solid if it starts and ends with a character that is no blank and every
line end in it comes right after one.  Its lines are trimmed and none of them is
empty, so it is tidy on lines of its own.

Main results:

- Theorem `Solid.tidy`: a solid text is tidy on lines of its own.
- Theorem `Expr.solid_layout`: printed expressions are solid.
-/

namespace Stackwright
namespace Program

/-! ## Solid texts -/

/-- Two characters that may follow each other: a line end does not come after a blank. -/
def Follows (a b : Char) : Prop :=
  b = '\n' → Text.isBlank a = false

/-- A text that can come after a character: no line end in it comes after a blank, and it ends
neither with a blank nor with an opening parenthesis. -/
structure Tail (text : List Char) : Prop where
  chain : text.IsChain Follows
  last : ∀ c ∈ text.getLast?, Text.isBlank c = false ∧ c ≠ '('

/-- A text that also starts neither with a blank nor with a closing parenthesis. -/
structure Solid (text : List Char) : Prop extends Tail text where
  head : ∃ c rest, text = c :: rest ∧ Text.isBlank c = false ∧ c ≠ ')'

/-- A character that is neither a blank nor a parenthesis. -/
def isInk (c : Char) : Bool :=
  !Text.isBlank c && c != '(' && c != ')'

theorem isInk_iff {c : Char} :
    isInk c = true ↔ Text.isBlank c = false ∧ c ≠ '(' ∧ c ≠ ')' := by
  simp [isInk, and_assoc]

theorem ne_newline_of_not_isBlank {c : Char} (h : Text.isBlank c = false) : c ≠ '\n' := by
  rintro rfl
  exact absurd h (by decide)

/-- A text on one line may have blanks in it. -/
theorem isChain_follows {text : List Char} (h : '\n' ∉ text) (c : Char) :
    (c :: text).IsChain Follows := by
  induction text generalizing c with
  | nil => exact .singleton c
  | cons d rest ih =>
      rw [List.isChain_cons_cons]
      refine ⟨fun hd => absurd hd ?_, ih (fun hmem => h (List.mem_cons_of_mem _ hmem)) d⟩
      exact fun heq => h (heq ▸ List.mem_cons_self)

namespace Tail

variable {a b text : List Char} {c d : Char}

theorem nil : Tail [] where
  chain := .nil
  last := by simp

/-- One character. -/
theorem char (hc : Text.isBlank c = false) (hopen : c ≠ '(') : Tail [c] where
  chain := .singleton c
  last := by simpa using ⟨hc, hopen⟩

theorem append (ha : Tail a) (hb : Tail b) : Tail (a ++ b) where
  chain := ha.chain.append hb.chain fun x hx _ _ _ => (ha.last x hx).1
  last c hc := by
    rw [List.getLast?_append] at hc
    cases hlast : b.getLast? with
    | none =>
        rw [hlast, Option.none_or] at hc
        exact ha.last c hc
    | some d =>
        rw [hlast, Option.some_or] at hc
        exact hb.last c (hlast.trans hc)

/-- A character in front of a text that can come after it. -/
theorem cons (hc : Text.isBlank c = false) (h : Tail text) (hne : text ≠ []) :
    Tail (c :: text) where
  chain := by
    rw [List.isChain_cons]
    exact ⟨fun _ _ _ => hc, h.chain⟩
  last d hd := by
    rw [← List.singleton_append, List.getLast?_append_of_ne_nil _ hne] at hd
    exact h.last d hd

/-- A blank or a line end, and more blanks, in front of a text that starts with a character. -/
theorem after (h : '\n' ∉ a) (hd : Text.isBlank d = false) (hb : Tail (d :: b)) (c : Char) :
    Tail (c :: a ++ d :: b) where
  chain := by
    refine (isChain_follows h c).append hb.chain fun _ _ y hy hline => ?_
    cases hy
    exact absurd hline (ne_newline_of_not_isBlank hd)
  last e he := by
    rw [List.getLast?_append_of_ne_nil _ (List.cons_ne_nil d b)] at he
    exact hb.last e he

/-- Texts that can come after a character can come after each other. -/
theorem flatMap {α : Type} {l : List α} {f : α → List Char} (h : ∀ x ∈ l, Tail (f x)) :
    Tail (l.flatMap f) := by
  induction l with
  | nil => exact nil
  | cons x rest ih =>
      exact (h x List.mem_cons_self).append (ih fun y hy => h y (List.mem_cons_of_mem _ hy))

theorem newline_notMem_replicate (n : Nat) : '\n' ∉ List.replicate n '\t' := by
  intro hmem
  exact absurd (List.eq_of_mem_replicate hmem) (by decide)

/-- A closing bracket on a line of its own. -/
theorem closing (indent : Nat) (hd : Text.isBlank d = false) (hopen : d ≠ '(') :
    Tail (newline indent ++ [d]) :=
  after (newline_notMem_replicate indent) hd (char hd hopen) '\n'

/-- A text between brackets. -/
theorem bracket (hc : Text.isBlank c = false) (h : Tail text) (hd : Text.isBlank d = false)
    (hopen : d ≠ '(') : Tail (c :: (text ++ [d])) :=
  cons hc (h.append (char hd hopen)) (by simp)

/-- An empty argument list. -/
theorem call : Tail ['(', ')'] :=
  bracket (by decide) nil (by decide) (by decide)

/-- A block around lines. -/
theorem layoutBlock (indent : Nat) (h : Tail text) : Tail (layoutBlock indent text) := by
  have hbody : Tail ('\x7b' :: (text ++ (newline indent ++ ['\x7d']))) :=
    cons (by decide) (h.append (closing indent (by decide) (by decide))) (by simp)
  have hblock := after List.not_mem_nil (by decide) hbody ' '
  simpa [Program.layoutBlock] using hblock

end Tail

namespace Solid

variable {a b text : List Char} {c d : Char}

/-- A solid text stays solid with a text behind it that can come after a character. -/
theorem append (ha : Solid a) (hb : Tail b) : Solid (a ++ b) where
  toTail := ha.toTail.append hb
  head := by
    obtain ⟨c, rest, rfl, hc⟩ := ha.head
    exact ⟨c, rest ++ b, rfl, hc⟩

theorem ne_nil (h : Solid text) : text ≠ [] := by
  obtain ⟨c, rest, rfl, -⟩ := h.head
  exact List.cons_ne_nil c rest

/-- A text on one line. -/
theorem inline {rest : List Char} (h : '\n' ∉ rest) (hc : Text.isBlank c = false)
    (hclose : c ≠ ')') (hlast : (c :: rest).getLast? = some d) (hd : Text.isBlank d = false)
    (hopen : d ≠ '(') : Solid (c :: rest) where
  chain := isChain_follows h c
  last e he := by
    cases hlast.symm.trans he
    exact ⟨hd, hopen⟩
  head := ⟨c, rest, rfl, hc, hclose⟩

/-- A text without blanks. -/
theorem word (hne : text ≠ []) (h : text.all isInk = true) : Solid text := by
  rw [List.all_eq_true] at h
  cases text with
  | nil => exact absurd rfl hne
  | cons c rest =>
      have hc := isInk_iff.1 (h c List.mem_cons_self)
      have hlast := isInk_iff.1 (h _ (List.getLast_mem (List.cons_ne_nil c rest)))
      refine inline (fun hmem => ?_) hc.1 hc.2.2
        (List.getLast?_eq_some_getLast (List.cons_ne_nil c rest)) hlast.1 hlast.2.1
      exact absurd (h _ (List.mem_cons_of_mem _ hmem)) (by decide)

/-- A character in front of a solid text. -/
theorem cons (hc : Text.isBlank c = false) (hclose : c ≠ ')') (h : Solid text) :
    Solid (c :: text) where
  toTail := .cons hc h.toTail h.ne_nil
  head := ⟨c, text, rfl, hc, hclose⟩

/-- A solid text after a blank or a line end, and more blanks. -/
theorem after (h : '\n' ∉ a) (hb : Solid b) (c : Char) : Tail (c :: a ++ b) := by
  obtain ⟨d, rest, rfl, hd, -⟩ := hb.head
  exact .after h hd hb.toTail c

/-- A solid text on a line of its own. -/
theorem newline (indent : Nat) (h : Solid text) : Tail (newline indent ++ text) :=
  h.after (Tail.newline_notMem_replicate indent) '\n'

/-- Solid texts with commas between them. -/
theorem commaSeparated {α : Type} {l : List α} {f : α → List Char} (hne : l ≠ [])
    (h : ∀ x ∈ l, Solid (f x)) : Solid (commaSeparated (l.map f)) := by
  induction l with
  | nil => exact absurd rfl hne
  | cons x rest ih =>
      have hx := h x List.mem_cons_self
      cases rest with
      | nil => simpa [Program.commaSeparated, List.intercalate] using hx
      | cons y rest =>
          have hrest := ih (List.cons_ne_nil _ _) fun z hz => h z (List.mem_cons_of_mem _ hz)
          have htail : Tail ([',', ' '] ++ Program.commaSeparated ((y :: rest).map f)) :=
            .cons (by decide) (hrest.after List.not_mem_nil ' ') (by simp)
          exact hx.append htail

/-- A solid text in parentheses. -/
theorem parenthesize (needed : Bool) (h : Solid text) : Solid (parenthesize needed text) := by
  rw [Program.parenthesize]
  split
  · refine ⟨.bracket (by decide) h.toTail (by decide) (by decide), ?_⟩
    exact ⟨'(', text ++ [')'], rfl, by decide, by decide⟩
  · exact h

end Solid

namespace Tail

/-- Texts between commas, also if there are none. -/
theorem commaSeparated {α : Type} {l : List α} {f : α → List Char}
    (h : ∀ x ∈ l, Solid (f x)) : Tail (Program.commaSeparated (l.map f)) := by
  cases l with
  | nil => exact .nil
  | cons x rest => exact (Solid.commaSeparated (List.cons_ne_nil x rest) h).toTail

/-- An argument list of solid texts. -/
theorem layoutArgs {α : Type} {l : List α} {f : α → List Char} (indent : Nat) (broken : Bool)
    (h : ∀ x ∈ l, Solid (f x)) : Tail (layoutArgs indent broken (l.map f)) := by
  rw [Program.layoutArgs]
  split
  · have hlines : Tail ((l.map f).flatMap fun arg =>
        Program.newline (indent + 1) ++ arg ++ [',']) := by
      refine .flatMap fun arg harg => ?_
      obtain ⟨x, hx, rfl⟩ := List.mem_map.1 harg
      exact ((h x hx).newline (indent + 1)).append (.char (by decide) (by decide))
    have hclose : Tail (Program.newline indent ++ [')']) :=
      .closing indent (by decide) (by decide)
    rw [List.cons_append, List.cons_append, List.append_assoc]
    exact .cons (by decide) (hlines.append hclose) (by simp)
  · exact .bracket (by decide) (commaSeparated h) (by decide) (by decide)

end Tail

/-! ## Solid texts on lines of their own -/

/-- A line that ends with another character does not open an import block. -/
theorem opensImports_eq_false {line : List Char}
    (hlast : ∃ c ∈ line.getLast?, Text.isBlank c = false ∧ c ≠ '(') :
    opensImports line = false := by
  obtain ⟨c, hc, hblank, hne⟩ := hlast
  rw [opensImports, beq_eq_false_iff_ne]
  intro heq
  have htrim := Text.getLast?_trim hblank hc
  rw [heq] at htrim
  exact hne (Option.some.inj htrim).symm

/-- The lines of a text in which no line end comes after a blank.  `line` is what stands on the
first line in front of the text. -/
theorem exists_lines {text line : List Char} (hline : '\n' ∉ line)
    (hchain : ('\n' :: (line ++ text)).IsChain Follows) (hne : line ++ text ≠ [])
    (hlast : ∀ c ∈ (line ++ text).getLast?, Text.isBlank c = false) :
    ∃ first rest, line ++ text ++ ['\n'] = unlines (first :: rest) ∧ line <+: first ∧
      (∀ l ∈ first :: rest, IsTrimmed l ∧ l ≠ []) ∧
      ∃ final, (first :: rest).getLast? = some final ∧
        final.getLast? = (line ++ text).getLast? := by
  induction text generalizing line with
  | nil =>
      rw [List.append_nil] at hne hlast ⊢
      refine ⟨line, [], by simp [unlines], List.prefix_rfl, ?_, line, rfl, rfl⟩
      rw [List.forall_mem_singleton]
      exact ⟨⟨hline, hlast⟩, hne⟩
  | cons c text ih =>
      by_cases hc : c = '\n'
      · subst hc
        rw [← List.cons_append, List.isChain_append] at hchain
        obtain ⟨-, hrest, hjoint⟩ := hchain
        -- The first line ends here, and what comes after it has a character.
        have hfront : line ≠ [] := by
          rintro rfl
          exact absurd (hjoint '\n' rfl '\n' rfl rfl) (by decide)
        have hback : text ≠ [] := by
          rintro rfl
          exact absurd (hlast '\n' (by simp)) (by decide)
        have htrimmed : IsTrimmed line := by
          refine ⟨hline, fun d hd => hjoint d ?_ '\n' rfl rfl⟩
          rwa [← List.singleton_append, List.getLast?_append_of_ne_nil _ hfront]
        have hend : (line ++ '\n' :: text).getLast? = text.getLast? := by
          rw [List.append_cons, List.getLast?_append_of_ne_nil _ hback]
        rw [hend] at hlast ⊢
        obtain ⟨first, rest, htext, -, hall, final, hfinal, hfinalLast⟩ :=
          ih List.not_mem_nil hrest hback hlast
        refine ⟨line, first :: rest, ?_, List.prefix_rfl,
          List.forall_mem_cons.2 ⟨⟨htrimmed, hfront⟩, hall⟩, final, ?_, hfinalLast⟩
        · have hunlines : unlines (line :: first :: rest)
              = line ++ '\n' :: unlines (first :: rest) := by
            simp [unlines]
          rw [hunlines, ← htext]
          simp
        · rw [List.getLast?_cons_cons]
          exact hfinal
      · have hshift : line ++ c :: text = line ++ [c] ++ text := List.append_cons line c text
        rw [hshift] at hchain hne hlast ⊢
        obtain ⟨first, rest, htext, hprefix, hall, hfinal⟩ :=
          ih (by simp [hline, Ne.symm hc]) hchain hne hlast
        exact ⟨first, rest, htext, (List.prefix_append line [c]).trans hprefix, hall, hfinal⟩

/-- A solid text is tidy on lines of its own. -/
theorem Solid.tidy {text : List Char} (h : Solid text) (indent : Nat) :
    Tidy (List.replicate indent '\t' ++ text ++ ['\n']) := by
  obtain ⟨c, body, rfl, hc, hclose⟩ := h.head
  have htabs := Tail.newline_notMem_replicate indent
  have htail := Tail.after htabs hc h.toTail '\n'
  have hshift : List.replicate indent '\t' ++ c :: body
      = List.replicate indent '\t' ++ [c] ++ body :=
    List.append_cons _ _ _
  have hlast : (List.replicate indent '\t' ++ [c] ++ body).getLast? = (c :: body).getLast? := by
    rw [← hshift, List.getLast?_append_of_ne_nil _ (List.cons_ne_nil c body)]
  have hchain := htail.chain
  rw [List.cons_append, hshift] at hchain
  obtain ⟨first, rest, htext, ⟨back, hfirst⟩, hall, final, hfinal, hfinalLast⟩ :=
    exists_lines (by simpa [htabs] using Ne.symm (ne_newline_of_not_isBlank hc)) hchain (by simp)
      fun d hd => (h.last d (hlast ▸ hd)).1
  refine ⟨first :: rest, by rw [hshift, htext], .dense (List.cons_ne_nil _ _) hall ?_ ?_⟩
  · intro line hline
    cases hline
    have hblanks : ∀ d ∈ List.replicate indent '\t', Text.isBlank d = true := by
      intro d hd
      rw [List.eq_of_mem_replicate hd]
      decide
    rw [← hfirst, List.append_assoc, List.singleton_append, closesImports,
      Text.trim_append hblanks]
    exact closesImports_cons hc hclose back
  · intro line hline
    rw [hfinal] at hline
    cases hline
    have hd := List.getLast?_eq_some_getLast (List.cons_ne_nil c body)
    exact opensImports_eq_false ⟨_, hfinalLast.trans (hlast.trans hd), h.last _ hd⟩

/-! ## Types, literals and expressions -/

theorem isInk_of_isIdentChar {c : Char} (h : isIdentChar c = true) : isInk c = true := by
  rw [isInk_iff]
  refine ⟨isBlank_of_isIdentChar h, ?_, ?_⟩
  · rintro rfl
    exact absurd h (by decide)
  · rintro rfl
    exact absurd h (by decide)

theorem isInk_of_isNumberChar {c : Char} (h : isNumberChar c = true) : isInk c = true := by
  rw [isNumberChar, Bool.or_eq_true] at h
  rcases h with hdigit | hmem
  · exact isInk_of_isIdentChar (by simp [isIdentChar, Char.isAlphanum, hdigit])
  · have hchars : ['.', '-', 'e', 'N', 'a', 'i', 'n', 'f'].all isInk = true := by decide
    exact List.all_eq_true.1 hchars c (by simpa using hmem)

/-- A name is solid. -/
theorem solid_name {name : List Char} (h : isIdentifier name = true) : Solid name := by
  refine .word (fun hnil => ?_) (List.all_eq_true.2 fun c hc => ?_)
  · rw [hnil] at h
    cases h
  · exact isInk_of_isIdentChar (isIdentChar_of_mem h hc)

theorem solid_qualifier (package : Package) : Solid (qualifier package) := by
  cases package <;> exact .word (by decide) (by decide)

theorem solid_number {text : List Char} (h : IsNumber text) : Solid text :=
  .word h.ne_nil (List.all_eq_true.2 fun c hc => isInk_of_isNumberChar (h.chars c hc))

/-- A string literal is solid, whatever it contains. -/
theorem solid_quote (text : List Char) : Solid (quote text) := by
  refine .inline (fun hmem => ?_) (by decide) (by decide) (getLast?_quote text) (by decide)
    (by decide)
  exact newline_notMem_quote text (List.mem_cons_of_mem _ hmem)

/-- A type is printed as a solid text. -/
theorem TypeExpr.solid_layout {t : TypeExpr} (h : t.wellFormed = true) : Solid t.layout := by
  induction t with
  | named name => exact solid_name h
  | qualified package name => exact (solid_qualifier package).append (solid_name h).toTail
  | pointer target ih => exact .cons (by decide) (by decide) (ih h)
  | slice element ih =>
      exact .cons (by decide) (by decide) (.cons (by decide) (by decide) (ih h))
  | map key value ihkey ihvalue =>
      rw [wellFormed, Bool.and_eq_true] at h
      have hword : Solid ['m', 'a', 'p', '['] := .word (by decide) (by decide)
      have hvalue : Solid (']' :: value.layout) := .cons (by decide) (by decide) (ihvalue h.2)
      exact (hword.append (ihkey h.1).toTail).append hvalue.toTail
  | chan element ih =>
      have hword : Solid ['c', 'h', 'a', 'n'] := .word (by decide) (by decide)
      exact hword.append ((ih h).after List.not_mem_nil ' ')

/-- A duration is printed as a solid text. -/
theorem solid_printDuration (d : Duration) : Solid (printDuration d) := by
  cases hzero : d.isZero with
  | true =>
      rw [printDuration_of_isZero hzero]
      exact .word (by decide) (by decide)
  | false =>
      have hunits : ∀ unit ∈ timeUnitNames, isIdentifier unit.toList = true := by decide
      obtain ⟨unit, hunit, hcases⟩ := printDuration_cases hzero
      have hname : Solid (qualifier .time ++ unit.toList) :=
        (solid_qualifier .time).append (solid_name (hunits unit hunit)).toTail
      rcases hcases with hone | ⟨n, hmany⟩
      · rw [hone]
        exact hname
      · rw [hmany, List.append_assoc, List.append_assoc]
        refine (solid_number (isNumber_decimal n)).append ?_
        exact hname.after (by decide) ' '

/-- A literal is printed as a solid text, whatever a string contains. -/
theorem Literal.solid_layout (l : Literal) : Solid (l.layout .source) := by
  cases l with
  | string value => exact solid_quote value.toList
  | int value => exact solid_number (isNumber_decimalInt value)
  | uint value => exact solid_number (isNumber_decimal value)
  | float value => exact solid_number (isNumber_float value)
  | bool value => cases value <;> exact .word (by decide) (by decide)
  | fileMode value => exact solid_number (isNumber_printFileMode value)
  | duration value => exact solid_printDuration value
  | nil => exact .word (by decide) (by decide)

namespace Expr

/-- A printed expression is solid, at every place. -/
theorem solid_layout {e : Expr} (h : e.wellFormed = true) (indent depth : Nat) :
    Solid (e.layout .source indent depth) := by
  induction e using spliceInduction generalizing indent depth with
  | call name args ih =>
      simp only [wellFormed, argsWellFormed_eq, Bool.and_eq_true, List.all_eq_true] at h
      simp only [layout, argLayouts_eq]
      exact (solid_name h.1).append (.layoutArgs _ _ fun a ha => ih a ha (h.2 a ha) _ _)
  | packageCall package name args ih =>
      simp only [wellFormed, argsWellFormed_eq, Bool.and_eq_true, List.all_eq_true] at h
      simp only [layout, argLayouts_eq]
      exact ((solid_qualifier package).append (solid_name h.1).toTail).append
        (.layoutArgs _ _ fun a ha => ih a ha (h.2 a ha) _ _)
  | methodCall receiver name args ihreceiver ih =>
      simp only [wellFormed, argsWellFormed_eq, Bool.and_eq_true, List.all_eq_true] at h
      obtain ⟨⟨hreceiver, hname⟩, hargs⟩ := h
      have hhead := ihreceiver hreceiver indent depth
      have hdot : Text.isBlank '.' = false := by decide
      simp only [layout, argLayouts_eq]
      split
      · -- The dot ends its line, so the name starts the next one.
        have hline := (solid_name hname).newline (indent + 1)
        rw [List.append_assoc (receiver.layout .source indent depth), List.cons_append]
        exact (hhead.append (.cons hdot hline (by simp [newline]))).append
          (.layoutArgs _ _ fun a ha => ih a ha (hargs a ha) _ _)
      · have htext := solid_name hname
        exact (hhead.append (.cons hdot htext.toTail htext.ne_nil)).append
          (.layoutArgs _ _ fun a ha => ih a ha (hargs a ha) _ _)
  | ident name =>
      simp only [layout]
      exact solid_name h
  | qualified package name =>
      simp only [layout]
      exact (solid_qualifier package).append (solid_name h).toTail
  | literal value =>
      simp only [layout]
      exact value.solid_layout
  | list element items ih =>
      simp only [wellFormed, itemsWellFormed_eq, Bool.and_eq_true, List.all_eq_true] at h
      have hslice := TypeExpr.solid_layout (t := .slice element) h.1
      have hitems := Tail.commaSeparated fun a ha => ih a ha (h.2 a ha) indent (depth + 1)
      simp only [layout, itemLayouts_eq, List.append_assoc]
      exact hslice.append (.bracket (by decide) hitems (by decide) (by decide))
  | map key value entries ih =>
      simp only [wellFormed, entriesWellFormed_eq, Bool.and_eq_true, List.all_eq_true] at h
      have htype := TypeExpr.solid_layout (t := .map key value) (by
        rw [TypeExpr.wellFormed, Bool.and_eq_true]
        exact h.1)
      simp only [layout, entryLayouts_eq, List.append_assoc]
      refine htype.append (.bracket (by decide) ?_ (by decide) (by decide))
      refine .commaSeparated fun entry he => ?_
      have hvalue := (ih entry he).2 (h.2 entry he).2 indent (depth + 1)
      exact ((ih entry he).1 (h.2 entry he).1 indent (depth + 1)).append
        (.cons (by decide) (hvalue.after List.not_mem_nil ' ') (by simp))
  | group items => simp [wellFormed] at h
  | type value =>
      simp only [layout]
      exact value.solid_layout h
  | unary op operand ih =>
      have hsymbol : Solid op.symbol := by
        cases op <;> exact .word (by decide) (by decide)
      simp only [layout]
      exact hsymbol.append ((ih h indent depth).parenthesize _).toTail
  | binary op left right ihleft ihright =>
      rw [wellFormed, Bool.and_eq_true] at h
      have hright := (ihright h.2 indent depth).parenthesize (right.bindsBelow op.precedence)
      have hsymbol : ∃ rest, op.symbol = ' ' :: rest ∧ '\n' ∉ rest := by
        cases op with
        | and => exact ⟨['&', '&', ' '], by decide, by decide⟩
        | notEq => exact ⟨['!', '=', ' '], by decide, by decide⟩
      obtain ⟨rest, heq, hrest⟩ := hsymbol
      simp only [layout, List.append_assoc]
      rw [heq]
      exact ((ihleft h.1 indent depth).parenthesize _).append (hright.after hrest ' ')

end Expr

end Program
end Stackwright
