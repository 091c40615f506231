import Stackwright.Proofs.Program.Pen
import Stackwright.Proofs.Program.Solid

/-!
# Layout does not change code

The printer breaks lines in argument lists and in chains of calls.  A text is
*flattened* by taking all of that back outside of its string literals: line ends with
the tabs after them, the comma that is left in front of a closing parenthesis, and
the space after a comma.  A printed expression flattens to the same text as the
expression printed on one line, whatever its depth and its indentation.

A text *flattens to* pieces if it does so in front of every text.  Texts with that
property can be put one after the other; a comma alone does not have it, since what
becomes of it depends on what comes next.

Main results:

- Theorem `Expr.alike_oneLine`: a printed expression and the expression on one line
  flatten to the same pieces.
- Theorem `Expr.guarded_layout`: a line end in a printed expression comes after an
  opening parenthesis, a comma or a dot.
- Theorem `Expr.print_neutral`: printing an expression is neutral in its layout.
-/

namespace Stackwright
namespace Program

/-! ## Flattening -/

/-- A character of a text, in its code or in a string literal. -/
inductive Piece where
  | code (c : Char)
  | literal (c : Char)
deriving DecidableEq

/-- The character of a piece. -/
def Piece.char : Piece → Char
  | .code c => c
  | .literal c => c

/-- Where the next character of a text stands. -/
inductive Place where
  | code
  | string
  /-- After a backslash in a string literal. -/
  | escape
deriving DecidableEq

/-- The characters of a text, with those of its string literals told apart. -/
def pieces : Place → List Char → List Piece
  | _, [] => []
  | .code, c :: rest =>
      if c = '"' then .literal c :: pieces .string rest else .code c :: pieces .code rest
  | .string, c :: rest =>
      .literal c :: pieces (if c = '"' then .code else if c = '\\' then .escape else .string) rest
  | .escape, c :: rest => .literal c :: pieces .string rest

/-- Deletes each line end with the tabs after it; `start` says that the text comes after
one. -/
def dropBreaks (start : Bool) : List Piece → List Piece
  | [] => []
  | .code '\n' :: rest => dropBreaks true rest
  | .code '\t' :: rest =>
      if start then dropBreaks true rest else .code '\t' :: dropBreaks false rest
  | piece :: rest => piece :: dropBreaks false rest

/-- Deletes each comma right in front of a closing parenthesis. -/
def dropLastCommas : List Piece → List Piece
  | [] => []
  | .code ',' :: .code ')' :: rest => .code ')' :: dropLastCommas rest
  | piece :: rest => piece :: dropLastCommas rest

/-- Deletes the space after each comma. -/
def dropSpaces : List Piece → List Piece
  | [] => []
  | .code ',' :: .code ' ' :: rest => .code ',' :: dropSpaces rest
  | piece :: rest => piece :: dropSpaces rest

/-- What is left of a text without its layout. -/
def flattened (text : List Char) : List Piece :=
  dropSpaces (dropLastCommas (dropBreaks false (pieces .code text)))

/-- A text without its layout. -/
def flatten (text : List Char) : List Char :=
  (flattened text).map Piece.char

example : flatten "f(\n\t\"a, )\",\n)".toList = "f(\"a, )\")".toList := by decide

/-! ### The steps -/

/-- A character of code is a piece of code. -/
theorem pieces_code_cons {c : Char} (hc : c ≠ '"') (rest : List Char) :
    pieces .code (c :: rest) = .code c :: pieces .code rest := by
  rw [pieces, if_neg hc]

theorem dropBreaks_cons {piece : Piece} (hline : piece ≠ .code '\n') (htab : piece ≠ .code '\t')
    (start : Bool) (rest : List Piece) :
    dropBreaks start (piece :: rest) = piece :: dropBreaks false rest :=
  dropBreaks.eq_4 start piece rest hline htab

theorem dropLastCommas_cons {piece : Piece} {rest : List Piece}
    (h : piece = .code ',' → rest.head? ≠ some (.code ')')) :
    dropLastCommas (piece :: rest) = piece :: dropLastCommas rest := by
  refine dropLastCommas.eq_3 piece rest ?_
  rintro more hpiece rfl
  exact h hpiece rfl

theorem dropSpaces_cons {piece : Piece} {rest : List Piece}
    (h : piece = .code ',' → rest.head? ≠ some (.code ' ')) :
    dropSpaces (piece :: rest) = piece :: dropSpaces rest := by
  refine dropSpaces.eq_3 piece rest ?_
  rintro more hpiece rfl
  exact h hpiece rfl

/-- Deleting commas leaves the first piece in its place, or the parenthesis after it. -/
theorem head?_dropLastCommas (rest : List Piece) :
    (dropLastCommas rest).head? = rest.head? ∨
      (dropLastCommas rest).head? = some (.code ')') := by
  unfold dropLastCommas
  split
  · exact .inl rfl
  · exact .inr rfl
  · exact .inl rfl

/-- Tabs at the start of a line are deleted with the line end. -/
theorem dropBreaks_tabs (n : Nat) (rest : List Piece) :
    dropBreaks true (List.replicate n (.code '\t') ++ rest) = dropBreaks true rest := by
  induction n with
  | zero => rfl
  | succ n ih =>
      rw [List.replicate_succ, List.cons_append, dropBreaks, if_pos rfl, ih]

/-- A text without quotes is code all through. -/
theorem pieces_code_append {text : List Char} (h : '"' ∉ text) (rest : List Char) :
    pieces .code (text ++ rest) = text.map .code ++ pieces .code rest := by
  induction text with
  | nil => rfl
  | cons c more ih =>
      rw [List.mem_cons, not_or] at h
      rw [List.cons_append, pieces_code_cons (Ne.symm h.1), ih h.2, List.map_cons, List.cons_append]

/-- A line end is deleted with its indentation. -/
theorem dropBreaks_newline (indent : Nat) {c : Char} (hc : c ≠ '\t') (rest : List Char) :
    dropBreaks false (pieces .code (newline indent ++ c :: rest))
      = dropBreaks false (pieces .code (c :: rest)) := by
  have hquote : '"' ∉ newline indent := by
    simp [newline, List.mem_replicate]
  rw [pieces_code_append hquote, newline, List.map_cons, List.cons_append, dropBreaks,
    List.map_replicate, dropBreaks_tabs]
  -- What the line starts with is no tab, so that nothing more is deleted.
  rw [pieces]
  split
  · rfl
  · by_cases hline : c = '\n'
    · subst hline
      rfl
    · rw [dropBreaks_cons (by simpa using hline) (by simpa using hc),
        dropBreaks_cons (by simpa using hline) (by simpa using hc)]

/-- The character after a line break is what its line starts with. -/
theorem exists_dropBreaks_cons {c : Char} (hline : c ≠ '\n') (htab : c ≠ '\t')
    (rest : List Char) :
    ∃ piece more, dropBreaks false (pieces .code (c :: rest)) = piece :: more ∧ piece.char = c := by
  rw [pieces]
  split
  · exact ⟨.literal c, _, dropBreaks_cons (by simp) (by simp) false _, rfl⟩
  · exact ⟨.code c, _, dropBreaks_cons (by simpa using hline) (by simpa using htab) false _, rfl⟩

/-! ## Texts that flatten to pieces -/

/-- In front of every text, `text` flattens to `result`. -/
def Flattens (text : List Char) (result : List Piece) : Prop :=
  ∀ rest, flattened (text ++ rest) = result ++ flattened rest

/-- A character that squeezing leaves where it is. -/
def isTight (c : Char) : Bool :=
  c != '"' && c != '\n' && c != ','

namespace Flattens

variable {a b text : List Char} {x y result : List Piece} {c : Char}

theorem nil : Flattens [] [] :=
  fun _ => rfl

/-- Texts are flattened one behind the other. -/
theorem append (ha : Flattens a x) (hb : Flattens b y) : Flattens (a ++ b) (x ++ y) := by
  intro rest
  rw [List.append_assoc, ha, hb, List.append_assoc]

theorem char (hc : isTight c = true) : Flattens [c] [.code c] := by
  intro rest
  simp only [isTight, Bool.and_eq_true, bne_iff_ne] at hc
  obtain ⟨⟨hquote, hline⟩, hcomma⟩ := hc
  have hbreaks : dropBreaks false (.code c :: pieces .code rest)
      = .code c :: dropBreaks false (pieces .code rest) := by
    by_cases htab : c = '\t'
    · subst htab
      rfl
    · exact dropBreaks_cons (by simpa using hline) (by simpa using htab) false _
  rw [List.singleton_append, flattened, pieces_code_cons hquote, hbreaks,
    dropLastCommas_cons (by simp [hcomma]), dropSpaces_cons (by simp [hcomma])]
  rfl

theorem cons (hc : isTight c = true) (h : Flattens text result) :
    Flattens (c :: text) (.code c :: result) :=
  append (char hc) h

/-- A text of such characters stays as it is. -/
theorem tight (h : text.all isTight = true) : Flattens text (text.map .code) := by
  induction text with
  | nil => exact nil
  | cons c rest ih =>
      rw [List.all_cons, Bool.and_eq_true] at h
      exact cons h.1 (ih h.2)

/-- A text that is read as a string literal stays as it is. -/
theorem literal (h : ∀ rest, pieces .code (text ++ rest)
    = text.map .literal ++ pieces .code rest) : Flattens text (text.map .literal) := by
  have hbreaks (l : List Char) (rest : List Piece) :
      dropBreaks false (l.map .literal ++ rest) = l.map .literal ++ dropBreaks false rest := by
    induction l with
    | nil => rfl
    | cons c l ih =>
        rw [List.map_cons, List.cons_append, dropBreaks_cons (by simp) (by simp), ih]
        rfl
  have hcommas (l : List Char) (rest : List Piece) :
      dropLastCommas (l.map .literal ++ rest) = l.map .literal ++ dropLastCommas rest := by
    induction l with
    | nil => rfl
    | cons c l ih =>
        rw [List.map_cons, List.cons_append, dropLastCommas_cons (by simp), ih]
        rfl
  have hspaces (l : List Char) (rest : List Piece) :
      dropSpaces (l.map .literal ++ rest) = l.map .literal ++ dropSpaces rest := by
    induction l with
    | nil => rfl
    | cons c l ih =>
        rw [List.map_cons, List.cons_append, dropSpaces_cons (by simp), ih]
        rfl
  intro rest
  rw [flattened, h, hbreaks, hcommas, hspaces]
  rfl

/-- A line of its own. -/
theorem line (indent : Nat) (hc : c ≠ '\t') (h : Flattens (c :: text) result) :
    Flattens (newline indent ++ c :: text) result := by
  intro rest
  rw [List.append_assoc, List.cons_append, flattened, dropBreaks_newline indent hc]
  exact h rest

/-- A comma and a space in front of a text. -/
theorem commaSpace (h : Flattens text result) :
    Flattens (',' :: ' ' :: text) (.code ',' :: result) := by
  intro rest
  rw [List.cons_append, List.cons_append, List.cons_append, ← h rest, flattened,
    pieces_code_cons (by decide), pieces_code_cons (by decide),
    dropBreaks_cons (by decide) (by decide), dropBreaks_cons (by decide) (by decide),
    dropLastCommas_cons (by simp), dropLastCommas_cons (by simp), dropSpaces]
  rfl

/-- A comma in front of a line that is neither blank nor closes the argument list. -/
theorem commaLine (indent : Nat) (hblank : Text.isBlank c = false) (hclose : c ≠ ')')
    (h : Flattens (c :: text) result) :
    Flattens (',' :: (newline indent ++ c :: text)) (.code ',' :: result) := by
  intro rest
  have htab : c ≠ '\t' := by
    rintro rfl
    exact absurd hblank (by decide)
  have hspace : c ≠ ' ' := by
    rintro rfl
    exact absurd hblank (by decide)
  obtain ⟨piece, more, hpiece, hchar⟩ :=
    exists_dropBreaks_cons (ne_newline_of_not_isBlank hblank) htab (text ++ rest)
  have hparenthesis : (piece :: more).head? ≠ some (.code ')') := by
    rintro ⟨⟩
    exact hclose hchar.symm
  have hhead : (dropLastCommas (piece :: more)).head? ≠ some (.code ' ') := by
    rcases head?_dropLastCommas (piece :: more) with hhead | hhead <;> rw [hhead]
    · rintro ⟨⟩
      exact hspace hchar.symm
    · decide
  have hrest := h rest
  rw [List.cons_append, flattened, hpiece] at hrest
  rw [List.cons_append, List.append_assoc, List.cons_append, List.cons_append, ← hrest, flattened,
    pieces_code_cons (by decide), dropBreaks_cons (by decide) (by decide),
    dropBreaks_newline indent htab, hpiece, dropLastCommas_cons (fun _ => hparenthesis),
    dropSpaces_cons (fun _ => hhead)]

/-- A comma in front of the line that closes the argument list. -/
theorem commaClose (indent : Nat) :
    Flattens (',' :: (newline indent ++ [')'])) [.code ')'] := by
  intro rest
  rw [List.cons_append, List.append_assoc, List.singleton_append, flattened,
    pieces_code_cons (by decide), dropBreaks_cons (by decide) (by decide),
    dropBreaks_newline indent (by decide), pieces_code_cons (by decide),
    dropBreaks_cons (by decide) (by decide), dropLastCommas, dropSpaces_cons (by simp)]
  rfl

end Flattens

/-! ### String literals -/

/-- A quoted character is a piece of a literal, whatever it is escaped to. -/
theorem pieces_quoteChar (c : Char) (rest : List Char) :
    pieces .string (quoteChar c ++ rest)
      = (quoteChar c).map .literal ++ pieces .string rest := by
  rcases quoteChar_cases c with ⟨x, -, hc⟩ | ⟨n, m, hc⟩ | ⟨hc, hquote, hslash, -⟩
  · rw [hc]
    simp [pieces]
  · have hdigit : ∀ k, hexDigit k ≠ '"' ∧ hexDigit k ≠ '\\' := by
      intro k
      refine ⟨?_, ?_⟩ <;> intro hk <;> rcases hexDigit_cases k with h | h <;> rw [hk] at h <;>
        revert h <;> decide
    rw [hc]
    simp [pieces, hdigit]
  · rw [hc]
    simp [pieces, hquote, hslash]

theorem pieces_flatMap_quoteChar (s rest : List Char) :
    pieces .string (s.flatMap quoteChar ++ rest)
      = (s.flatMap quoteChar).map .literal ++ pieces .string rest := by
  induction s with
  | nil => rfl
  | cons c s ih =>
      rw [List.flatMap_cons, List.append_assoc, pieces_quoteChar, ih, List.map_append,
        List.append_assoc]

/-- A string literal stays as it is, whatever it contains. -/
theorem flattens_quote (s : List Char) : Flattens (quote s) ((quote s).map .literal) := by
  refine .literal fun rest => ?_
  have hshape : quote s ++ rest = '"' :: (s.flatMap quoteChar ++ '"' :: rest) := by
    simp [quote]
  rw [hshape, pieces, if_pos rfl, pieces_flatMap_quoteChar, pieces, if_pos rfl]
  simp [quote]

/-! ## Texts that are alike -/

/-- Two texts that differ in their layout only: both flatten to the same pieces. -/
def Alike (a b : List Char) : Prop :=
  ∃ result, Flattens a result ∧ Flattens b result

namespace Alike

variable {a b c d : List Char}

/-- Alike texts can be put one behind the other. -/
theorem append (h : Alike a b) (h' : Alike c d) : Alike (a ++ c) (b ++ d) := by
  obtain ⟨x, ha, hb⟩ := h
  obtain ⟨y, hc, hd⟩ := h'
  exact ⟨x ++ y, ha.append hc, hb.append hd⟩

theorem tight {text : List Char} (h : text.all isTight = true) : Alike text text :=
  ⟨_, .tight h, .tight h⟩

theorem cons {e : Char} (he : isTight e = true) (h : Alike a b) : Alike (e :: a) (e :: b) :=
  append (a := [e]) (b := [e]) (tight (by simpa using he)) h

/-- Texts in parentheses, braces and the like. -/
theorem bracket {opening closing : Char} (hopen : isTight opening = true)
    (hclose : isTight closing = true) (h : Alike a b) :
    Alike (opening :: a ++ [closing]) (opening :: b ++ [closing]) :=
  append (cons hopen h) (tight (by simpa using hclose))

/-- Alike texts are the same once they are flattened. -/
theorem flatten_eq (h : Alike a b) : flatten a = flatten b := by
  obtain ⟨x, ha, hb⟩ := h
  have ha := ha []
  have hb := hb []
  rw [List.append_nil] at ha hb
  rw [flatten, flatten, ha, hb]

theorem parenthesize (needed : Bool) (h : Alike a b) :
    Alike (parenthesize needed a) (parenthesize needed b) := by
  cases needed with
  | false => exact h
  | true => exact bracket (by decide) (by decide) h

/-- A text on a line of its own. -/
theorem line (indent : Nat) (hsolid : Solid a) (h : Alike a b) : Alike (newline indent ++ a) b := by
  obtain ⟨c, text, rfl, hblank, -⟩ := hsolid.head
  obtain ⟨result, ha, hb⟩ := h
  have htab : c ≠ '\t' := by
    rintro rfl
    exact absurd hblank (by decide)
  exact ⟨result, ha.line indent htab, hb⟩

section Lists

variable {α : Type} {l : List α} {f g : α → List Char}

/-- Lists of alike texts are alike. -/
theorem commaSeparated (h : ∀ x ∈ l, Alike (f x) (g x)) :
    Alike (commaSeparated (l.map f)) (commaSeparated (l.map g)) := by
  induction l with
  | nil => exact ⟨[], .nil, .nil⟩
  | cons x rest ih =>
      obtain ⟨hx, hrest⟩ := List.forall_mem_cons.1 h
      cases rest with
      | nil => simpa [Program.commaSeparated] using hx
      | cons y rest =>
          obtain ⟨result, hf, hg⟩ := ih hrest
          exact append hx ⟨_, hf.commaSpace, hg.commaSpace⟩

/-- Arguments on lines of their own and the same arguments between commas, each up to the
closing parenthesis. -/
theorem lines (indent : Nat) (hne : l ≠ []) (h : ∀ x ∈ l, Alike (f x) (g x))
    (hsolid : ∀ x ∈ l, Solid (f x)) :
    ∃ c text, (l.map f).flatMap (fun arg => newline (indent + 1) ++ arg ++ [','])
          ++ newline indent ++ [')'] = newline (indent + 1) ++ c :: text ∧
      (Text.isBlank c = false ∧ c ≠ ')') ∧
      Alike (c :: text) (Program.commaSeparated (l.map g) ++ [')']) := by
  induction l with
  | nil => exact absurd rfl hne
  | cons x rest ih =>
      obtain ⟨hx, hrest⟩ := List.forall_mem_cons.1 h
      obtain ⟨hxsolid, hrestsolid⟩ := List.forall_mem_cons.1 hsolid
      obtain ⟨c, more, hfx, hc⟩ := hxsolid.head
      cases rest with
      | nil =>
          refine ⟨c, more ++ ',' :: (newline indent ++ [')']), by simp [hfx], hc, ?_⟩
          have hclose : Alike (',' :: (newline indent ++ [')'])) [')'] :=
            ⟨_, .commaClose indent, .char (by decide)⟩
          rw [← List.cons_append, ← hfx]
          simpa [Program.commaSeparated] using hx.append hclose
      | cons y rest =>
          obtain ⟨d, text, hlines, ⟨hblank, hclose⟩, result, hf, hg⟩ :=
            ih (List.cons_ne_nil y rest) hrest hrestsolid
          refine ⟨c, more ++ ',' :: (newline (indent + 1) ++ d :: text), ?_, hc, ?_⟩
          · rw [List.map_cons, List.flatMap_cons, List.append_assoc, List.append_assoc]
            rw [List.append_assoc] at hlines
            rw [hlines, hfx]
            simp
          · have hcomma : Alike (',' :: (newline (indent + 1) ++ d :: text))
                (',' :: ' ' :: (Program.commaSeparated ((y :: rest).map g) ++ [')'])) :=
              ⟨_, hf.commaLine (indent + 1) hblank hclose, hg.commaSpace⟩
            rw [← List.cons_append, ← hfx]
            simpa [Program.commaSeparated] using hx.append hcomma

/-- An argument list and the same list on one line. -/
theorem layoutArgs (indent : Nat) (broken : Bool) (h : ∀ x ∈ l, Alike (f x) (g x))
    (hsolid : ∀ x ∈ l, Solid (f x)) :
    Alike (layoutArgs indent broken (l.map f))
      ('(' :: Program.commaSeparated (l.map g) ++ [')']) := by
  cases broken with
  | false => exact bracket (by decide) (by decide) (commaSeparated h)
  | true =>
      have hopen : isTight '(' = true := by decide
      rw [Program.layoutArgs, if_pos rfl, List.cons_append, List.cons_append, List.cons_append]
      refine cons hopen ?_
      cases l with
      | nil =>
          have hclose : Flattens [')'] [.code ')'] := .char (by decide)
          exact ⟨_, hclose.line indent (by decide), hclose⟩
      | cons x rest =>
          obtain ⟨c, text, hlines, ⟨hblank, -⟩, result, hf, hg⟩ :=
            lines indent (List.cons_ne_nil x rest) h hsolid
          have htab : c ≠ '\t' := by
            rintro rfl
            exact absurd hblank (by decide)
          rw [hlines]
          exact ⟨result, hf.line (indent + 1) htab, hg⟩

end Lists
end Alike

/-! ## Expressions on one line -/

namespace Expr

mutual
/-- An expression on one line. -/
def oneLine : Expr → List Char
  | .call name args => name.toList ++ '(' :: commaSeparated (argsOneLine args) ++ [')']
  | .packageCall package name args =>
      qualifier package ++ name.toList ++ '(' :: commaSeparated (argsOneLine args) ++ [')']
  | .methodCall receiver name args =>
      receiver.oneLine ++ '.' :: name.toList ++ '(' :: commaSeparated (argsOneLine args) ++ [')']
  | .ident name => name.toList
  | .qualified package name => qualifier package ++ name.toList
  | .literal value => value.layout .source
  | .list element items =>
      '[' :: ']' :: element.layout ++ '\x7b' :: commaSeparated (itemsOneLine items) ++ ['\x7d']
  | .map key value entries =>
      (TypeExpr.map key value).layout
        ++ '\x7b' :: commaSeparated (entriesOneLine entries) ++ ['\x7d']
  | .group _ => []
  | .type value => value.layout
  | .unary op operand => op.symbol ++ parenthesize operand.isBinary operand.oneLine
  | .binary op left right =>
      parenthesize (left.bindsBelow op.precedence) left.oneLine ++ op.symbol
        ++ parenthesize (right.bindsBelow op.precedence) right.oneLine

/-- The arguments of a call on one line, with groups spliced in. -/
def argsOneLine : List Expr → List (List Char)
  | [] => []
  | .group items :: rest => argsOneLine items ++ argsOneLine rest
  | e :: rest => e.oneLine :: argsOneLine rest

/-- The items of a list on one line. -/
def itemsOneLine : List Expr → List (List Char)
  | [] => []
  | e :: rest => e.oneLine :: itemsOneLine rest

/-- The entries of a map on one line. -/
def entriesOneLine : List (Expr × Expr) → List (List Char)
  | [] => []
  | (key, value) :: rest => (key.oneLine ++ ':' :: ' ' :: value.oneLine) :: entriesOneLine rest
end

/-- Arguments on one line are those that are left when groups are spliced. -/
theorem argsOneLine_eq (args : List Expr) : argsOneLine args = (splice args).map oneLine := by
  induction args using argsInduction with
  | nil => simp [argsOneLine]
  | group items rest ihitems ihrest => simp [argsOneLine, ihitems, ihrest]
  | cons e rest he ih => rw [splice_cons he, argsOneLine.eq_3 e rest he, ih, List.map_cons]

theorem itemsOneLine_eq (items : List Expr) : itemsOneLine items = items.map oneLine := by
  induction items with
  | nil => rfl
  | cons e rest ih => simp [itemsOneLine, ih]

theorem entriesOneLine_eq (entries : List (Expr × Expr)) :
    entriesOneLine entries
      = entries.map fun entry => entry.1.oneLine ++ ':' :: ' ' :: entry.2.oneLine := by
  induction entries with
  | nil => rfl
  | cons entry rest ih => simp [entriesOneLine, ih]

end Expr

/-! ### Names, types and literals -/

/-- The characters of identifiers stay when a text is flattened. -/
theorem isTight_of_isIdentChar {c : Char} (h : isIdentChar c = true) : isTight c = true := by
  have hne : ∀ d : Char, isIdentChar d = false → c ≠ d := by
    rintro d hd rfl
    simp [hd] at h
  simp [isTight, hne '"' (by decide), hne '\n' (by decide), hne ',' (by decide)]

theorem tight_name {name : List Char} (h : isIdentifier name = true) :
    name.all isTight = true :=
  List.all_eq_true.2 fun _ hc => isTight_of_isIdentChar (isIdentChar_of_mem h hc)

theorem tight_qualifier (package : Package) : (qualifier package).all isTight = true := by
  cases package <;> decide

/-- Types stay when a text is flattened. -/
theorem TypeExpr.tight_layout {t : TypeExpr} (h : t.wellFormed = true) :
    t.layout.all isTight = true := by
  induction t with
  | named name => exact tight_name h
  | qualified package name =>
      rw [layout, List.all_append, tight_qualifier, tight_name h]
      rfl
  | pointer target ih | slice element ih =>
      simp only [layout, List.all_cons, ih h]
      decide
  | map key value ihkey ihvalue =>
      rw [wellFormed, Bool.and_eq_true] at h
      simp only [layout, List.all_append, List.all_cons, ihkey h.1, ihvalue h.2]
      decide
  | chan element ih =>
      simp only [layout, List.all_append, ih h]
      decide

theorem tight_number {text : List Char} (h : IsNumber text) : text.all isTight = true := by
  refine List.all_eq_true.2 fun c hc => ?_
  have hnumber := h.chars c hc
  rw [isNumberChar, Bool.or_eq_true] at hnumber
  rcases hnumber with hdigit | hmem
  · exact isTight_of_isIdentChar (by simp [isIdentChar, Char.isAlphanum, hdigit])
  · have hchars : ['.', '-', 'e', 'N', 'a', 'i', 'n', 'f'].all isTight = true := by decide
    exact List.all_eq_true.1 hchars c (by simpa using hmem)

/-- Durations stay when a text is flattened. -/
theorem tight_printDuration (d : Duration) : (printDuration d).all isTight = true := by
  cases hzero : d.isZero with
  | true =>
      rw [printDuration_of_isZero hzero]
      decide
  | false =>
      have hunits : ∀ unit ∈ timeUnitNames, unit.toList.all isTight = true := by decide
      obtain ⟨unit, hunit, hone | ⟨n, hmany⟩⟩ := printDuration_cases hzero
      · rw [hone, List.all_append, tight_qualifier, hunits unit hunit]
        rfl
      · rw [hmany]
        simp only [List.all_append, tight_qualifier, hunits unit hunit,
          tight_number (isNumber_decimal n)]
        decide

/-- A literal is a string in quotes or has no character that squeezing touches. -/
theorem Literal.layout_cases (l : Literal) :
    (∃ s, l.layout .source = quote s) ∨ (l.layout .source).all isTight = true := by
  cases l with
  | string value => exact .inl ⟨value.toList, rfl⟩
  | int value => exact .inr (tight_number (isNumber_decimalInt value))
  | uint value => exact .inr (tight_number (isNumber_decimal value))
  | float value => exact .inr (tight_number (isNumber_float value))
  | bool value => cases value <;> exact .inr (by decide)
  | fileMode value => exact .inr (tight_number (isNumber_printFileMode value))
  | duration value => exact .inr (tight_printDuration value)
  | nil => exact .inr (by decide)

namespace Expr

/-- A printed expression differs from the expression on one line in its layout only. -/
theorem alike_oneLine {e : Expr} (h : e.wellFormed = true) (indent depth : Nat) :
    Alike (e.layout .source indent depth) e.oneLine := by
  induction e using spliceInduction generalizing indent depth with
  | call name args ih =>
      simp only [wellFormed, argsWellFormed_eq, Bool.and_eq_true, List.all_eq_true] at h
      simp only [layout, argLayouts_eq, oneLine, argsOneLine_eq, List.append_assoc]
      exact .append (.tight (tight_name h.1))
        (.layoutArgs _ _ (fun a ha => ih a ha (h.2 a ha) _ _)
          fun a ha => solid_layout (h.2 a ha) _ _)
  | packageCall package name args ih =>
      simp only [wellFormed, argsWellFormed_eq, Bool.and_eq_true, List.all_eq_true] at h
      simp only [layout, argLayouts_eq, oneLine, argsOneLine_eq, List.append_assoc]
      exact .append (.tight (tight_qualifier package)) (.append (.tight (tight_name h.1))
        (.layoutArgs _ _ (fun a ha => ih a ha (h.2 a ha) _ _)
          fun a ha => solid_layout (h.2 a ha) _ _))
  | methodCall receiver name args ihreceiver ih =>
      simp only [wellFormed, argsWellFormed_eq, Bool.and_eq_true, List.all_eq_true] at h
      obtain ⟨⟨hreceiver, hname⟩, hargs⟩ := h
      have hhead := ihreceiver hreceiver indent depth
      have hlist := fun indent broken inner =>
        Alike.layoutArgs (f := layout .source inner (depth + 1)) indent broken
          (fun a ha => ih a ha (hargs a ha) inner (depth + 1))
          fun a ha => solid_layout (hargs a ha) inner (depth + 1)
      have hdot : isTight '.' = true := by decide
      simp only [layout, argLayouts_eq, oneLine, argsOneLine_eq, List.append_assoc]
      split
      · refine .append hhead (.cons hdot ?_)
        have hlink := (solid_name hname).append (Tail.layoutArgs (indent + 1)
          (breaksLines none name args depth) fun a ha => solid_layout (hargs a ha)
            (argIndent (indent + 1) (breaksLines none name args depth)) (depth + 1))
        exact .line (indent + 1) hlink (.append (.tight (tight_name hname)) (hlist _ _ _))
      · exact .append hhead (.cons hdot (.append (.tight (tight_name hname)) (hlist _ _ _)))
  | ident name =>
      simp only [layout, oneLine]
      exact .tight (tight_name h)
  | qualified package name =>
      simp only [layout, oneLine]
      exact .append (.tight (tight_qualifier package)) (.tight (tight_name h))
  | literal value =>
      simp only [layout, oneLine]
      rcases value.layout_cases with ⟨s, hquote⟩ | htight
      · rw [hquote]
        exact ⟨_, flattens_quote s, flattens_quote s⟩
      · exact .tight htight
  | list element items ih =>
      simp only [wellFormed, itemsWellFormed_eq, Bool.and_eq_true, List.all_eq_true] at h
      have htype := TypeExpr.tight_layout (t := .slice element) h.1
      have hitems := Alike.commaSeparated fun a ha => ih a ha (h.2 a ha) indent (depth + 1)
      simp only [layout, itemLayouts_eq, oneLine, itemsOneLine_eq, List.append_assoc]
      exact .append (.tight htype) (.bracket (by decide) (by decide) hitems)
  | map key value entries ih =>
      simp only [wellFormed, entriesWellFormed_eq, Bool.and_eq_true, List.all_eq_true] at h
      have htype := TypeExpr.tight_layout (t := .map key value) (by
        rw [TypeExpr.wellFormed, Bool.and_eq_true]
        exact h.1)
      simp only [layout, entryLayouts_eq, oneLine, entriesOneLine_eq, List.append_assoc]
      refine .append (.tight htype) (.bracket (by decide) (by decide) ?_)
      refine .commaSeparated fun entry he => ?_
      exact .append ((ih entry he).1 (h.2 entry he).1 _ _)
        (.cons (by decide) (.cons (by decide) ((ih entry he).2 (h.2 entry he).2 _ _)))
  | group items => simp [wellFormed] at h
  | type value =>
      simp only [layout, oneLine]
      exact .tight (TypeExpr.tight_layout h)
  | unary op operand ih =>
      have hsymbol : op.symbol.all isTight = true := by cases op <;> decide
      simp only [layout, oneLine]
      exact .append (.tight hsymbol) ((ih h indent depth).parenthesize _)
  | binary op left right ihleft ihright =>
      rw [wellFormed, Bool.and_eq_true] at h
      have hsymbol : op.symbol.all isTight = true := by cases op <;> decide
      simp only [layout, oneLine]
      exact .append (.append ((ihleft h.1 indent depth).parenthesize _) (.tight hsymbol))
        ((ihright h.2 indent depth).parenthesize _)

end Expr

/-! ## Line ends -/

/-- Two characters that may follow each other in an expression: a line end comes after an
opening parenthesis, a comma or a dot, so that it does not end the statement. -/
def MayFollow (a b : Char) : Prop :=
  b = '\n' → a ∈ ['(', ',', '.']

/-- A text in which line ends come after such characters only. -/
structure Guarded (text : List Char) : Prop where
  chain : text.IsChain MayFollow
  head : text.head? ≠ some '\n'

namespace Guarded

variable {a b text : List Char} {c : Char}

theorem nil : Guarded [] where
  chain := .nil
  head := by simp

/-- Guarded texts can be put one behind the other. -/
theorem append (ha : Guarded a) (hb : Guarded b) : Guarded (a ++ b) where
  chain := ha.chain.append hb.chain fun _ _ y hy hline => by
    rw [hline] at hy
    exact absurd hy hb.head
  head := by
    cases a with
    | nil => exact hb.head
    | cons c rest => exact ha.head

/-- A text on one line. -/
theorem inline (h : '\n' ∉ text) : Guarded text where
  chain := by
    induction text with
    | nil => exact .nil
    | cons c rest ih =>
        rw [List.mem_cons, not_or] at h
        rw [List.isChain_cons]
        refine ⟨fun d hd hline => ?_, ih h.2⟩
        rw [hline] at hd
        exact absurd (List.mem_of_mem_head? hd) h.2
  head hhead := h (List.mem_of_mem_head? hhead)

theorem cons (hc : c ≠ '\n') (h : Guarded text) : Guarded (c :: text) :=
  append (a := [c]) (inline (by simpa using Ne.symm hc)) h

/-- A line after a character that keeps the statement open. -/
theorem line (hc : c ∈ ['(', ',', '.']) (indent : Nat) (h : Guarded text) :
    Guarded (c :: (newline indent ++ text)) where
  chain := by
    have htabs : Guarded (List.replicate indent '\t' ++ text) :=
      append (inline (Tail.newline_notMem_replicate indent)) h
    rw [newline, List.cons_append, List.isChain_cons_cons, List.isChain_cons]
    exact ⟨fun _ => hc, fun d hd hline => absurd (hline ▸ hd) htabs.head, htabs.chain⟩
  head hhead := by
    rw [List.head?_cons, Option.some.injEq] at hhead
    subst hhead
    exact absurd hc (by decide)

theorem bracket {opening closing : Char} (hopen : opening ≠ '\n') (hclose : closing ≠ '\n')
    (h : Guarded text) : Guarded (opening :: text ++ [closing]) :=
  append (cons hopen h) (inline (by simpa using Ne.symm hclose))

theorem parenthesize (needed : Bool) (h : Guarded text) : Guarded (parenthesize needed text) := by
  cases needed with
  | false => exact h
  | true => exact bracket (by decide) (by decide) h

section Lists

variable {α : Type} {l : List α} {f : α → List Char}

/-- Lists of guarded texts are guarded. -/
theorem commaSeparated (h : ∀ x ∈ l, Guarded (f x)) : Guarded (commaSeparated (l.map f)) := by
  induction l with
  | nil => exact nil
  | cons x rest ih =>
      obtain ⟨hx, hrest⟩ := List.forall_mem_cons.1 h
      cases rest with
      | nil => simpa [Program.commaSeparated] using hx
      | cons y rest =>
          exact append hx (cons (by decide) (cons (by decide) (ih hrest)))

/-- Arguments on lines of their own, after a parenthesis or a comma. -/
theorem lines (indent : Nat) (hc : c ∈ ['(', ',', '.']) (h : ∀ x ∈ l, Guarded (f x)) :
    Guarded (c :: ((l.map f).flatMap (fun arg => newline (indent + 1) ++ arg ++ [','])
      ++ newline indent ++ [')'])) := by
  induction l generalizing c with
  | nil => exact line hc indent (inline (by decide))
  | cons x rest ih =>
      obtain ⟨hx, hrest⟩ := List.forall_mem_cons.1 h
      have hnext := ih (c := ',') (by decide) hrest
      have hmore := line hc (indent + 1) (append hx hnext)
      rw [List.map_cons, List.flatMap_cons]
      simpa only [List.append_assoc, List.cons_append, List.nil_append] using hmore

/-- Arguments are guarded, whether or not each has a line. -/
theorem layoutArgs (indent : Nat) (broken : Bool) (h : ∀ x ∈ l, Guarded (f x)) :
    Guarded (layoutArgs indent broken (l.map f)) := by
  cases broken with
  | false => exact bracket (by decide) (by decide) (commaSeparated h)
  | true => exact lines (c := '(') indent (by decide) h

end Lists

/-- Every line end in the text comes after one of the characters. -/
theorem exists_getLast? (h : Guarded text) {front back : List Char}
    (htext : text = front ++ '\n' :: back) :
    ∃ c ∈ ['(', ',', '.'], front.getLast? = some c := by
  subst htext
  cases hlast : front.getLast? with
  | none =>
      rw [List.getLast?_eq_none_iff] at hlast
      exact absurd (by rw [hlast]; rfl) h.head
  | some c =>
      have hjoint := (List.isChain_append.1 h.chain).2.2 c hlast '\n' rfl rfl
      exact ⟨c, hjoint, rfl⟩

end Guarded

/-- What stays when a text is flattened ends no line. -/
theorem newline_notMem_of_tight {text : List Char} (h : text.all isTight = true) :
    '\n' ∉ text := by
  intro hmem
  exact absurd (List.all_eq_true.1 h _ hmem) (by decide)

theorem Guarded.tight {text : List Char} (h : text.all isTight = true) : Guarded text :=
  .inline (newline_notMem_of_tight h)

namespace Expr

/-- A line end in a printed expression comes after an opening parenthesis, a comma or a dot. -/
theorem guarded_layout {e : Expr} (h : e.wellFormed = true) (indent depth : Nat) :
    Guarded (e.layout .source indent depth) := by
  induction e using spliceInduction generalizing indent depth with
  | call name args ih =>
      simp only [wellFormed, argsWellFormed_eq, Bool.and_eq_true, List.all_eq_true] at h
      simp only [layout, argLayouts_eq]
      exact .append (.tight (tight_name h.1))
        (.layoutArgs _ _ fun a ha => ih a ha (h.2 a ha) _ _)
  | packageCall package name args ih =>
      simp only [wellFormed, argsWellFormed_eq, Bool.and_eq_true, List.all_eq_true] at h
      simp only [layout, argLayouts_eq]
      exact .append (.append (.tight (tight_qualifier package)) (.tight (tight_name h.1)))
        (.layoutArgs _ _ fun a ha => ih a ha (h.2 a ha) _ _)
  | methodCall receiver name args ihreceiver ih =>
      simp only [wellFormed, argsWellFormed_eq, Bool.and_eq_true, List.all_eq_true] at h
      obtain ⟨⟨hreceiver, hname⟩, hargs⟩ := h
      have hhead := ihreceiver hreceiver indent depth
      simp only [layout, argLayouts_eq, List.append_assoc, List.cons_append]
      split
      · exact .append hhead (.line (by decide) (indent + 1) (.append (.tight (tight_name hname))
          (.layoutArgs _ _ fun a ha => ih a ha (hargs a ha) _ _)))
      · exact .append hhead (.cons (by decide) (.append (.tight (tight_name hname))
          (.layoutArgs _ _ fun a ha => ih a ha (hargs a ha) _ _)))
  | ident name =>
      simp only [layout]
      exact .tight (tight_name h)
  | qualified package name =>
      simp only [layout]
      exact .append (.tight (tight_qualifier package)) (.tight (tight_name h))
  | literal value =>
      simp only [layout]
      rcases value.layout_cases with ⟨s, hquote⟩ | htight
      · rw [hquote]
        exact .inline (newline_notMem_quote s)
      · exact .tight htight
  | list element items ih =>
      simp only [wellFormed, itemsWellFormed_eq, Bool.and_eq_true, List.all_eq_true] at h
      have htype := TypeExpr.tight_layout (t := .slice element) h.1
      have hitems := Guarded.commaSeparated fun a ha => ih a ha (h.2 a ha) indent (depth + 1)
      simp only [layout, itemLayouts_eq, List.append_assoc]
      exact .append (.tight htype) (.bracket (by decide) (by decide) hitems)
  | map key value entries ih =>
      simp only [wellFormed, entriesWellFormed_eq, Bool.and_eq_true, List.all_eq_true] at h
      have htype := TypeExpr.tight_layout (t := .map key value) (by
        rw [TypeExpr.wellFormed, Bool.and_eq_true]
        exact h.1)
      simp only [layout, entryLayouts_eq, List.append_assoc]
      refine .append (.tight htype) (.bracket (by decide) (by decide) ?_)
      refine .commaSeparated fun entry he => ?_
      exact .append ((ih entry he).1 (h.2 entry he).1 _ _)
        (.cons (by decide) (.cons (by decide) ((ih entry he).2 (h.2 entry he).2 _ _)))
  | group items => simp [wellFormed] at h
  | type value =>
      simp only [layout]
      exact .tight (TypeExpr.tight_layout h)
  | unary op operand ih =>
      have hsymbol : op.symbol.all isTight = true := by cases op <;> decide
      simp only [layout]
      exact .append (.tight hsymbol) ((ih h indent depth).parenthesize _)
  | binary op left right ihleft ihright =>
      rw [wellFormed, Bool.and_eq_true] at h
      have hsymbol : op.symbol.all isTight = true := by cases op <;> decide
      simp only [layout]
      exact .append (.append ((ihleft h.1 indent depth).parenthesize _) (.tight hsymbol))
        ((ihright h.2 indent depth).parenthesize _)

/-- The layout of an expression is neutral: without it the text is that of the expression on
one line, a line end never ends the statement, and the pen that writes the text comes back at
the indentation at which it started. -/
theorem print_neutral {e : Expr} {indent depth : Nat} {text : List Char}
    (h : e.print indent depth = .ok text) :
    flatten text = flatten e.oneLine ∧
      (∀ front back, text = front ++ '\n' :: back →
        ∃ c ∈ ['(', ',', '.'], front.getLast? = some c) ∧
      ∀ written, e.write depth ⟨written, indent⟩ = .ok ⟨written ++ text, indent⟩ := by
  obtain ⟨hformed, hlayout⟩ := (e.print_eq_ok_iff indent depth text).1 h
  subst hlayout
  refine ⟨(alike_oneLine hformed indent depth).flatten_eq, fun front back htext => ?_,
    fun written => ?_⟩
  · exact (guarded_layout hformed indent depth).exists_getLast? htext
  · rw [write_eq, h]
    rfl

/-- A chain of calls with a group of settings, and a string that looks like layout. -/
def imageChain : Expr :=
  .methodCall (.packageCall .gantry "NewContainer" []) "WithConfig"
    [.group [.packageCall .container "Image" [.string "a,\n)"], .ident "extra"]]

/-- The chain as it is printed on an indented line. -/
def imageChainText : List Char :=
  ("gantry.NewContainer().\n\t\tWithConfig(\n\t\t\tcontainer.Image(\"a,\\n)\"),\n\t\t\textra,"
    ++ "\n\t\t)").toList

theorem print_neutral_imageChain :
    imageChain.print 1 0 = .ok imageChainText ∧
      flatten imageChainText = flatten imageChain.oneLine ∧
      imageChain.write 0 ⟨['x'], 1⟩ = .ok ⟨'x' :: imageChainText, 1⟩ := by
  have hprint : imageChain.print 1 0 = .ok imageChainText := by rfl
  obtain ⟨hflatten, -, hwrite⟩ := print_neutral hprint
  exact ⟨hprint, hflatten, hwrite ['x']⟩

end Expr
end Program
end Stackwright
