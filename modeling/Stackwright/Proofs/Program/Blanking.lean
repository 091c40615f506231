import Stackwright.Program.Blanking
import Stackwright.Proofs.Program.Literal

/-!
# The code of a printed program

A printed program passes the reading of `Program.blank`: its brackets match and
its strings and comments are closed, whatever the strings contain.  What is left
after blanking is the layout of the same program in `Ink.blank`.

The proof follows the tree.  A text *reads as* another if, from any place in the
code, reading it writes the other text and leads back into the code with the same
open brackets; such texts can be put one after the other and into brackets.

Main results:

- Theorem `reads_quote`: a string literal reads as blanks, whatever it contains.
- Theorem `Expr.reads_layout`: the layout of an expression in `Ink.source` reads
  as its layout in `Ink.blank`.
- Theorem `File.blank_layout`: blanking the layout of a file in `Ink.source`
  gives its layout in `Ink.blank`.
-/

namespace Stackwright
namespace Program

/-! ## Texts that read as texts -/

/-- A reading that has gone on over some lines and written `code`. -/
def Scan.advance (s : Scan) (lines : Nat) (code : List Char) : Scan :=
  { s with line := s.line + lines, blanked := code.reverse ++ s.blanked }

theorem Scan.advance_advance (s : Scan) (m n : Nat) (a b : List Char) :
    (s.advance m a).advance n b = s.advance (m + n) (a ++ b) := by
  simp [advance, Nat.add_assoc]

/-- A reading that has entered a region. -/
def Scan.enter (s : Scan) (region : Region) : Scan :=
  { s with region }

/-- A reading with other open brackets. -/
def Scan.reopen (s : Scan) (brackets : List (Char × Nat)) : Scan :=
  { s with brackets }

/-- From any place in the code, reading `text` writes `code` and leads back into
the code with the same open brackets. -/
def Reads (text code : List Char) : Prop :=
  ∀ s : Scan, s.region = .code → s.run text = .ok (s.advance (text.count '\n') code)

/-- Whether a character of the code stands for itself and is no bracket. -/
def isPlain (c : Char) : Bool :=
  !(c == '"' || c == '\'' || c == '\x60' || c == '/' || isOpening c || isClosing c)

namespace Scan

theorem run_nil (s : Scan) : s.run [] = .ok s :=
  rfl

theorem run_cons (s : Scan) (c : Char) (text : List Char) :
    s.run (c :: text) = s.step c >>= (·.run text) :=
  rfl

/-- A plain character of the code is written as it is. -/
theorem codeStep_of_isPlain (s : Scan) {c : Char} (hc : isPlain c = true) :
    s.codeStep c = .ok (if c = '\n' then s.putLineEnd .code else s.put c .code) := by
  simp only [isPlain, Bool.not_eq_true', Bool.or_eq_false_iff, beq_eq_false_iff_ne] at hc
  obtain ⟨⟨⟨⟨⟨hdouble, hsingle⟩, hraw⟩, hslash⟩, hopen⟩, hclose⟩ := hc
  by_cases hline : c = '\n'
  · rw [hline]
    rfl
  · simp [codeStep, hdouble, hsingle, hraw, hslash, hopen, hclose, hline]

/-- Reading goes on where the reading of the first text ends. -/
theorem run_append_of_ok {s t : Scan} {a b : List Char} (h : s.run a = .ok t) :
    s.run (a ++ b) = t.run b := by
  rw [run_append, h]
  rfl

end Scan

namespace Reads

theorem nil : Reads [] [] := by
  intro s hs
  simp [Scan.run_nil, Scan.advance]

theorem append {a b a' b' : List Char} (ha : Reads a a') (hb : Reads b b') :
    Reads (a ++ b) (a' ++ b') := by
  intro s hs
  rw [Scan.run_append_of_ok (ha s hs), hb (s.advance _ _) hs, Scan.advance_advance,
    List.count_append]

/-- A plain character reads as itself. -/
theorem char {c : Char} (hc : isPlain c = true) : Reads [c] [c] := by
  intro s hs
  simp only [Scan.run_cons, Scan.run_nil, Scan.step, hs, s.codeStep_of_isPlain hc]
  by_cases hline : c = '\n'
  · simp [hline, Scan.putLineEnd, Scan.advance, bind, Except.bind, hs]
  · simp [hline, Scan.put, Scan.advance, bind, Except.bind, hs]

/-- A text of plain characters reads as itself. -/
theorem plain {text : List Char} (h : text.all isPlain = true) : Reads text text := by
  induction text with
  | nil => exact nil
  | cons c rest ih =>
      rw [List.all_cons, Bool.and_eq_true] at h
      exact append (char h.1) (ih h.2)

theorem cons {c : Char} {text code : List Char} (hc : isPlain c = true) (h : Reads text code) :
    Reads (c :: text) (c :: code) :=
  append (char hc) h

/-- A text in brackets that match reads as its code in the same brackets. -/
theorem bracket {opening closing : Char} {text code : List Char} (hopen : isOpening opening = true)
    (hclose : isClosing closing = true) (hmatch : openingOf closing = opening)
    (h : Reads text code) :
    Reads (opening :: text ++ [closing]) (opening :: code ++ [closing]) := by
  intro s hs
  -- The opening bracket is pushed, stays below all that `text` opens, and is then popped.
  have hfirst : s.run [opening]
      = .ok ((s.advance 0 [opening]).reopen ((opening, s.line) :: s.brackets)) := by
    simp only [isOpening, Bool.or_eq_true, beq_iff_eq] at hopen
    rcases hopen with (rfl | rfl) | rfl <;>
      simp [Scan.run_cons, Scan.run_nil, Scan.step, hs, Scan.codeStep, isOpening, Scan.put,
        Scan.advance, Scan.reopen, bind, Except.bind]
  have hlast : ∀ t : Scan, t.region = .code → t.brackets = (opening, s.line) :: s.brackets →
      t.run [closing] = .ok ((t.advance 0 [closing]).reopen s.brackets) := by
    intro t ht hbrackets
    simp only [isClosing, Bool.or_eq_true, beq_iff_eq] at hclose
    rcases hclose with (rfl | rfl) | rfl <;>
      simp [Scan.run_cons, Scan.run_nil, Scan.step, ht, Scan.codeStep, isOpening, isClosing,
        hbrackets, hmatch, Scan.put, Scan.advance, Scan.reopen, bind, Except.bind]
  have hcount : (opening :: text ++ [closing]).count '\n' = text.count '\n' := by
    have hopening : opening ≠ '\n' := by
      rintro rfl
      simp [isOpening] at hopen
    have hclosing : closing ≠ '\n' := by
      rintro rfl
      simp [isClosing] at hclose
    simp [List.count_append, hopening, hclosing]
  rw [hcount, List.cons_append, ← List.singleton_append, Scan.run_append_of_ok hfirst,
    Scan.run_append_of_ok (h ((s.advance 0 [opening]).reopen _) hs),
    hlast (((s.advance 0 [opening]).reopen _).advance _ _) hs rfl]
  simp [Scan.advance, Scan.reopen]

theorem parentheses {text code : List Char} (h : Reads text code) :
    Reads ('(' :: text ++ [')']) ('(' :: code ++ [')']) :=
  bracket (by decide) (by decide) (by decide) h

theorem squares {text code : List Char} (h : Reads text code) :
    Reads ('[' :: text ++ [']']) ('[' :: code ++ [']']) :=
  bracket (by decide) (by decide) (by decide) h

theorem braces {text code : List Char} (h : Reads text code) :
    Reads ('\x7b' :: text ++ ['\x7d']) ('\x7b' :: code ++ ['\x7d']) :=
  bracket (by decide) (by decide) (by decide) h

/-- Texts with a separator between them read as their codes with it between them. -/
theorem intercalate {α : Type} {l : List α} {f g : α → List Char} {sep : List Char}
    (hsep : Reads sep sep) (h : ∀ a ∈ l, Reads (f a) (g a)) :
    Reads (sep.intercalate (l.map f)) (sep.intercalate (l.map g)) := by
  induction l with
  | nil => exact nil
  | cons a rest ih =>
      have hrest := ih fun x hx => h x (List.mem_cons_of_mem a hx)
      have ha := h a List.mem_cons_self
      cases rest with
      | nil => simpa using ha
      | cons b more => simpa using append ha (append hsep hrest)

/-- Texts with commas between them read as their codes with commas between them. -/
theorem commaSeparated {α : Type} {l : List α} {f g : α → List Char}
    (h : ∀ a ∈ l, Reads (f a) (g a)) :
    Reads (Program.commaSeparated (l.map f)) (Program.commaSeparated (l.map g)) :=
  intercalate (plain (by decide)) h

/-- Texts put one after the other read as their codes. -/
theorem flatMap {α : Type} {l : List α} {f g : α → List Char}
    (h : ∀ a ∈ l, Reads (f a) (g a)) : Reads (l.flatMap f) (l.flatMap g) := by
  induction l with
  | nil => exact nil
  | cons a rest ih =>
      rw [List.flatMap_cons, List.flatMap_cons]
      exact append (h a List.mem_cons_self) (ih fun x hx => h x (List.mem_cons_of_mem a hx))

/-- A line end with its indentation reads as itself. -/
theorem newline (indent : Nat) : Reads (Program.newline indent) (Program.newline indent) := by
  have htab : isPlain '\t' = true := by decide
  exact cons (by decide) (plain (by simp [htab]))

/-- An argument list reads as the argument list of the codes. -/
theorem layoutArgs {α : Type} {l : List α} {f g : α → List Char} (indent : Nat) (broken : Bool)
    (h : ∀ a ∈ l, Reads (f a) (g a)) :
    Reads (Program.layoutArgs indent broken (l.map f))
      (Program.layoutArgs indent broken (l.map g)) := by
  cases broken with
  | false => exact parentheses (commaSeparated h)
  | true =>
      simp only [Program.layoutArgs, if_true, List.flatMap_map]
      refine parentheses (append (flatMap fun a ha => ?_) (newline indent))
      exact append (append (newline (indent + 1)) (h a ha)) (char (by decide))

/-- A text that may stand in parentheses reads as its code. -/
theorem parenthesize {text code : List Char} (needed : Bool) (h : Reads text code) :
    Reads (Program.parenthesize needed text) (Program.parenthesize needed code) := by
  cases needed with
  | false => exact h
  | true => exact parentheses h

/-- A block reads as the block around its code. -/
theorem layoutBlock {text code : List Char} (indent : Nat) (h : Reads text code) :
    Reads (Program.layoutBlock indent text) (Program.layoutBlock indent code) :=
  cons (by decide) (braces (append h (newline indent)))

end Reads

/-! ## String literals and comments -/

/-- The digits of an escape are digits or letters, or a star. -/
theorem hexDigit_cases (n : Nat) : isIdentChar (hexDigit n) = true ∨ hexDigit n = '*' := by
  by_cases h : n < 16
  · have hdigits : ∀ m < 16, isIdentChar (hexDigit m) = true := by decide
    exact .inl (hdigits n h)
  · right
    unfold hexDigit Nat.digitChar
    repeat rw [if_neg (by omega)]

/-- How a character is written inside a literal: by a short escape, by its number,
or as it is. -/
theorem quoteChar_cases (c : Char) :
    (∃ x ∈ ['"', '\\', 'n', 'r', 't'], quoteChar c = ['\\', x]) ∨
      (∃ n m, quoteChar c = ['\\', 'x', hexDigit n, hexDigit m]) ∨
      (quoteChar c = [c] ∧ c ≠ '"' ∧ c ≠ '\\' ∧ isControl c = false) := by
  by_cases hquote : c = '"'
  · exact .inl ⟨'"', by decide, by simp [quoteChar, hquote]⟩
  by_cases hslash : c = '\\'
  · exact .inl ⟨'\\', by decide, by simp [quoteChar, hslash]⟩
  by_cases hline : c = '\n'
  · exact .inl ⟨'n', by decide, by simp [quoteChar, hline]⟩
  by_cases hreturn : c = '\r'
  · exact .inl ⟨'r', by decide, by simp [quoteChar, hreturn]⟩
  by_cases htab : c = '\t'
  · exact .inl ⟨'t', by decide, by simp [quoteChar, htab]⟩
  cases hcontrol : isControl c with
  | true =>
      refine .inr (.inl ⟨c.toNat / 16, c.toNat % 16, ?_⟩)
      simp [quoteChar, hquote, hslash, hline, hreturn, htab, hcontrol]
  | false =>
      refine .inr (.inr ⟨?_, hquote, hslash, rfl⟩)
      simp [quoteChar, hquote, hslash, hline, hreturn, htab, hcontrol]

namespace Scan

/-- A character that neither ends a literal nor escapes is blanked. -/
theorem run_quoted (s : Scan) (hs : s.region = .quoted '"') {c : Char} (hquote : c ≠ '"')
    (hslash : c ≠ '\\') (hline : c ≠ '\n') : s.run [c] = .ok (s.advance 0 [' ']) := by
  simp [run_cons, run_nil, step, hs, hquote, hslash, hline, put, advance, bind, Except.bind]

/-- A backslash and the character after it are blanked. -/
theorem run_escape (s : Scan) (hs : s.region = .quoted '"') (c : Char) :
    s.run ['\\', c] = .ok (s.advance 0 [' ', ' ']) := by
  simp [run_cons, run_nil, step, hs, put, advance, bind, Except.bind]

/-- Inside a literal a written character is blanked, and the literal stays open. -/
theorem run_quoteChar (s : Scan) (hs : s.region = .quoted '"') (c : Char) :
    s.run (quoteChar c) = .ok (s.advance 0 (List.replicate (quoteChar c).length ' ')) := by
  rcases quoteChar_cases c with ⟨x, -, hx⟩ | ⟨n, m, hnm⟩ | ⟨hself, hquote, hslash, hcontrol⟩
  · rw [hx, run_escape s hs]
    rfl
  · have hdigit : ∀ k, hexDigit k ≠ '"' ∧ hexDigit k ≠ '\\' ∧ hexDigit k ≠ '\n' := by
      intro k
      refine ⟨?_, ?_, ?_⟩ <;> intro hk <;> rcases hexDigit_cases k with h | h <;>
        rw [hk] at h <;> revert h <;> decide
    have hsplit : ['\\', 'x', hexDigit n, hexDigit m]
        = ['\\', 'x'] ++ ([hexDigit n] ++ [hexDigit m]) := rfl
    obtain ⟨hn₁, hn₂, hn₃⟩ := hdigit n
    obtain ⟨hm₁, hm₂, hm₃⟩ := hdigit m
    rw [hnm, hsplit, run_append_of_ok (run_escape s hs 'x'),
      run_append_of_ok (run_quoted (s.advance _ _) hs hn₁ hn₂ hn₃),
      run_quoted ((s.advance _ _).advance _ _) hs hm₁ hm₂ hm₃]
    rfl
  · have hline : c ≠ '\n' := by
      rintro rfl
      exact absurd hcontrol (by decide)
    rw [hself, run_quoted s hs hquote hslash hline]
    rfl

/-- Inside a literal the written characters are blanked, and the literal stays open. -/
theorem run_flatMap_quoteChar (s : Scan) (hs : s.region = .quoted '"') (text : List Char) :
    s.run (text.flatMap quoteChar)
      = .ok (s.advance 0 (List.replicate (text.flatMap quoteChar).length ' ')) := by
  induction text generalizing s with
  | nil => rfl
  | cons c rest ih =>
      rw [List.flatMap_cons, run_append_of_ok (run_quoteChar s hs c), ih (s.advance _ _) hs,
        advance_advance, List.replicate_append_replicate, List.length_append]

end Scan

/-- A string literal stays on its line. -/
theorem newline_notMem_quote (text : List Char) : '\n' ∉ quote text := by
  have hchar : ∀ c, '\n' ∉ quoteChar c := by
    intro c hmem
    rcases quoteChar_cases c with ⟨x, hx, hc⟩ | ⟨n, m, hc⟩ | ⟨hc, -, -, hcontrol⟩
    · rw [hc] at hmem
      simp only [List.mem_cons, List.not_mem_nil, or_false] at hmem hx
      rcases hx with rfl | rfl | rfl | rfl | rfl <;> simp at hmem
    · have hdigit : ∀ k, '\n' ≠ hexDigit k := by
        intro k hk
        rcases hexDigit_cases k with h | h <;> rw [← hk] at h <;> revert h <;> decide
      simp [hc, hdigit] at hmem
    · rw [hc, List.mem_singleton] at hmem
      subst hmem
      exact absurd hcontrol (by decide)
  simp [quote, hchar]

theorem getLast?_quote (text : List Char) : (quote text).getLast? = some '"' := by
  simp [quote, List.getLast?_cons]

/-- A string literal reads as blanks, whatever it contains. -/
theorem reads_quote (text : List Char) :
    Reads (quote text) (List.replicate (quote text).length ' ') := by
  intro s hs
  have hopen : s.run ['"'] = .ok ((s.advance 0 [' ']).enter (.quoted '"')) := by
    simp [Scan.run_cons, Scan.run_nil, Scan.step, hs, Scan.codeStep, Scan.put, Scan.advance,
      Scan.enter, bind, Except.bind]
  have hclose : ∀ t : Scan, t.region = .quoted '"' →
      t.run ['"'] = .ok ((t.advance 0 [' ']).enter .code) := by
    intro t ht
    simp [Scan.run_cons, Scan.run_nil, Scan.step, ht, Scan.put, Scan.advance, Scan.enter, bind,
      Except.bind]
  have hlength : List.replicate (quote text).length ' '
      = [' '] ++ List.replicate (text.flatMap quoteChar).length ' ' ++ [' '] := by
    simp [quote, ← List.replicate_succ, ← List.replicate_succ']
  rw [List.count_eq_zero.2 (newline_notMem_quote text), hlength, quote, List.cons_append,
    ← List.singleton_append, Scan.run_append_of_ok hopen,
    Scan.run_append_of_ok (Scan.run_flatMap_quoteChar (Scan.enter _ _) rfl text),
    hclose (Scan.advance _ _ _) rfl]
  simp [Scan.advance, Scan.enter, hs]

/-- Inside a comment every character of the line is blanked. -/
theorem Scan.run_lineComment (s : Scan) (hs : s.region = .lineComment) {text : List Char}
    (h : '\n' ∉ text) : s.run text = .ok (s.advance 0 (List.replicate text.length ' ')) := by
  induction text generalizing s with
  | nil => rfl
  | cons c rest ih =>
      have hc : c ≠ '\n' := by
        rintro rfl
        exact h List.mem_cons_self
      have hstep : s.run [c] = .ok (s.advance 0 [' ']) := by
        simp [run_cons, run_nil, step, hs, hc, put, advance, bind, Except.bind]
      rw [← List.singleton_append, run_append_of_ok hstep,
        ih (s.advance _ _) hs (fun hmem => h (List.mem_cons_of_mem c hmem)), advance_advance,
        List.singleton_append, ← List.replicate_succ, List.singleton_append, List.length_cons]

/-- A comment reads as blanks and its line end, if its text stays on the line. -/
theorem reads_comment_line {text : List Char} (h : '\n' ∉ text) :
    Reads ('/' :: '/' :: text ++ ['\n']) (List.replicate (text.length + 2) ' ' ++ ['\n']) := by
  intro s hs
  have hopen : s.run ['/', '/'] = .ok ((s.advance 0 [' ', ' ']).enter .lineComment) := by
    simp [Scan.run_cons, Scan.run_nil, Scan.step, hs, Scan.codeStep, Scan.put, Scan.advance,
      Scan.enter, bind, Except.bind]
  have hclose : ∀ t : Scan, t.region = .lineComment →
      t.run ['\n'] = .ok ((t.advance 1 ['\n']).enter .code) := by
    intro t ht
    simp [Scan.run_cons, Scan.run_nil, Scan.step, ht, Scan.putLineEnd, Scan.advance, Scan.enter,
      bind, Except.bind]
  have hcount : ('/' :: '/' :: text ++ ['\n']).count '\n' = 1 := by
    simp [List.count_append, List.count_eq_zero.2 h]
  have hsplit : '/' :: '/' :: text ++ ['\n'] = ['/', '/'] ++ (text ++ ['\n']) := rfl
  rw [hcount, hsplit, Scan.run_append_of_ok hopen,
    Scan.run_append_of_ok (Scan.run_lineComment (Scan.enter _ _) rfl h),
    hclose (Scan.advance _ _ _) rfl, Nat.add_comm, ← List.replicate_append_replicate]
  simp [Scan.advance, Scan.enter, hs]

/-- A comment line reads as its blanks, if its text stays on the line. -/
theorem reads_comment {line : String} (h : '\n' ∉ line.toList) :
    Reads (Ink.source.comment line) (Ink.blank.comment line) := by
  simp only [Ink.source, Ink.blank, printComment]
  split
  · exact @reads_comment_line [] (by simp)
  · have hline : '\n' ∉ ' ' :: line.toList := by
      simp [h]
    simpa using reads_comment_line hline

/-! ## Layouts -/

/-- A class of characters without marks, slashes and brackets consists of plain characters. -/
theorem isPlain_of_class {p : Char → Bool}
    (hp : ['"', '\'', '\x60', '/', '(', '[', '\x7b', ')', ']', '\x7d'].all (!p ·) = true) {c : Char}
    (hc : p c = true) : isPlain c = true := by
  rw [← Bool.not_eq_false]
  intro hplain
  have hmem : c ∈ ['"', '\'', '\x60', '/', '(', '[', '\x7b', ')', ']', '\x7d'] := by
    simp only [isPlain, isOpening, isClosing, Bool.not_eq_false', Bool.or_eq_true, beq_iff_eq]
      at hplain
    simpa [or_assoc] using hplain
  have hclass := List.all_eq_true.1 hp c hmem
  rw [hc] at hclass
  cases hclass

/-- The characters of an identifier are plain. -/
theorem isPlain_of_isIdentChar {c : Char} (h : isIdentChar c = true) : isPlain c = true :=
  isPlain_of_class (by decide) h

/-- The characters of an identifier. -/
theorem isIdentChar_of_mem {name : List Char} (h : isIdentifier name = true) {c : Char}
    (hc : c ∈ name) : isIdentChar c = true := by
  cases name with
  | nil => simp at hc
  | cons d rest =>
      simp only [isIdentifier, Bool.and_eq_true, List.all_eq_true] at h
      rcases List.mem_cons.1 hc with rfl | hc
      · have hstart := h.1
        simp only [isIdentStart, isIdentChar, Char.isAlphanum, Bool.or_eq_true] at hstart ⊢
        exact hstart.imp_left .inl
      · exact h.2 c hc

/-- An identifier reads as itself. -/
theorem reads_name {name : List Char} (h : isIdentifier name = true) : Reads name name := by
  refine Reads.plain (List.all_eq_true.2 fun c hc => ?_)
  exact isPlain_of_isIdentChar (isIdentChar_of_mem h hc)

/-- The qualifier of a package reads as itself. -/
theorem reads_qualifier (package : Package) : Reads (qualifier package) (qualifier package) := by
  apply Reads.plain
  cases package <;> decide

/-- A well-formed type reads as itself. -/
theorem TypeExpr.reads_layout {t : TypeExpr} (h : t.wellFormed = true) :
    Reads t.layout t.layout := by
  induction t with
  | named name => exact reads_name h
  | qualified package name => exact .append (reads_qualifier package) (reads_name h)
  | pointer target ih => exact .cons (by decide) (ih h)
  | slice element ih => exact .append (.squares .nil) (ih h)
  | map key value ihkey ihvalue =>
      rw [wellFormed, Bool.and_eq_true] at h
      have hkey : Reads ('[' :: key.layout ++ [']']) ('[' :: key.layout ++ [']']) :=
        .squares (ihkey h.1)
      have hword : Reads ['m', 'a', 'p'] ['m', 'a', 'p'] := .plain (by decide)
      simpa [layout] using Reads.append hword (.append hkey (ihvalue h.2))
  | chan element ih => exact .append (.plain (by decide)) (ih h)

/-- The characters of numbers are plain. -/
theorem isPlain_of_isNumberChar {c : Char} (h : isNumberChar c = true) : isPlain c = true := by
  rw [isNumberChar, Bool.or_eq_true] at h
  rcases h with hdigit | hmem
  · exact isPlain_of_isIdentChar (by simp [isIdentChar, Char.isAlphanum, hdigit])
  · simp only [List.contains_eq_mem, List.mem_cons, List.not_mem_nil, or_false,
      decide_eq_true_eq] at hmem
    rcases hmem with rfl | rfl | rfl | rfl | rfl | rfl | rfl | rfl <;> decide

/-- A number reads as itself. -/
theorem reads_number {text : List Char} (h : IsNumber text) : Reads text text :=
  .plain (List.all_eq_true.2 fun c hc => isPlain_of_isNumberChar (h.chars c hc))

/-- A duration reads as itself. -/
theorem reads_printDuration (d : Duration) : Reads (printDuration d) (printDuration d) := by
  cases hzero : d.isZero with
  | true =>
      rw [printDuration_of_isZero hzero]
      exact .plain (by decide)
  | false =>
      have hunits : ∀ unit ∈ timeUnitNames, unit.toList.all isPlain = true := by decide
      obtain ⟨unit, hunit, hone | ⟨n, hmany⟩⟩ := printDuration_cases hzero
      · rw [hone]
        exact .append (reads_qualifier .time) (.plain (hunits unit hunit))
      · rw [hmany]
        exact .append
          (.append (.append (reads_number (isNumber_decimal n)) (.plain (by decide)))
            (reads_qualifier .time))
          (.plain (hunits unit hunit))

/-- A literal reads as blanks if it is a string, and as itself if it is not. -/
theorem Literal.reads_layout (l : Literal) : Reads (l.layout .source) (l.layout .blank) := by
  cases l with
  | string value => exact reads_quote value.toList
  | int value => exact reads_number (isNumber_decimalInt value)
  | uint value => exact reads_number (isNumber_decimal value)
  | float value => exact reads_number (isNumber_float value)
  | bool value => cases value <;> exact .plain (by decide)
  | fileMode value => exact reads_number (isNumber_printFileMode value)
  | duration value => exact reads_printDuration value
  | nil => exact .plain (by decide)

namespace Expr

/-- The layout of an expression reads as its layout in blank ink. -/
theorem reads_layout {e : Expr} (h : e.wellFormed = true) (indent depth : Nat) :
    Reads (e.layout .source indent depth) (e.layout .blank indent depth) := by
  induction e using spliceInduction generalizing indent depth with
  | call name args ih =>
      simp only [wellFormed, argsWellFormed_eq, Bool.and_eq_true, List.all_eq_true] at h
      simp only [layout, argLayouts_eq]
      exact .append (reads_name h.1) (.layoutArgs _ _ fun a ha => ih a ha (h.2 a ha) _ _)
  | packageCall package name args ih =>
      simp only [wellFormed, argsWellFormed_eq, Bool.and_eq_true, List.all_eq_true] at h
      simp only [layout, argLayouts_eq]
      exact .append (.append (reads_qualifier package) (reads_name h.1))
        (.layoutArgs _ _ fun a ha => ih a ha (h.2 a ha) _ _)
  | methodCall receiver name args ihreceiver ih =>
      simp only [wellFormed, argsWellFormed_eq, Bool.and_eq_true, List.all_eq_true] at h
      obtain ⟨⟨hreceiver, hname⟩, hargs⟩ := h
      have hhead := ihreceiver hreceiver indent depth
      simp only [layout, argLayouts_eq]
      split
      · exact .append
          (.append (.append hhead (.cons (by decide) (.newline _))) (reads_name hname))
          (.layoutArgs _ _ fun a ha => ih a ha (hargs a ha) _ _)
      · exact .append (.append hhead (.cons (by decide) (reads_name hname)))
          (.layoutArgs _ _ fun a ha => ih a ha (hargs a ha) _ _)
  | ident name =>
      simp only [layout]
      exact reads_name h
  | qualified package name =>
      simp only [layout]
      exact .append (reads_qualifier package) (reads_name h)
  | literal value =>
      simp only [layout]
      exact value.reads_layout
  | list element items ih =>
      simp only [wellFormed, itemsWellFormed_eq, Bool.and_eq_true, List.all_eq_true] at h
      have hitems := Reads.commaSeparated fun a ha => ih a ha (h.2 a ha) indent (depth + 1)
      have hslice := TypeExpr.reads_layout (t := .slice element) h.1
      simp only [layout, itemLayouts_eq]
      simpa [TypeExpr.layout] using Reads.append hslice (.braces hitems)
  | map key value entries ih =>
      simp only [wellFormed, entriesWellFormed_eq, Bool.and_eq_true, List.all_eq_true] at h
      have htype := TypeExpr.reads_layout (t := .map key value) (by
        rw [TypeExpr.wellFormed, Bool.and_eq_true]
        exact h.1)
      simp only [layout, entryLayouts_eq, List.append_assoc]
      refine .append htype (.braces (.commaSeparated fun entry he => ?_))
      exact .append ((ih entry he).1 (h.2 entry he).1 _ _)
        (.cons (by decide) (.cons (by decide) ((ih entry he).2 (h.2 entry he).2 _ _)))
  | group items => simp [wellFormed] at h
  | type value =>
      simp only [layout]
      exact value.reads_layout h
  | unary op operand ih =>
      simp only [layout]
      refine .append ?_ (.parenthesize _ (ih h indent depth))
      cases op <;> exact .plain (by decide)
  | binary op left right ihleft ihright =>
      rw [wellFormed, Bool.and_eq_true] at h
      simp only [layout]
      refine .append (.append (.parenthesize _ (ihleft h.1 indent depth)) ?_)
        (.parenthesize _ (ihright h.2 indent depth))
      cases op <;> exact .plain (by decide)

end Expr
namespace Stmt

/-- The line of a statement reads as its line in blank ink if the statement does. -/
theorem reads_lineLayout {s : Stmt} {indent : Nat}
    (h : Reads (s.layout .source indent) (s.layout .blank indent)) :
    Reads (s.lineLayout .source indent) (s.lineLayout .blank indent) := by
  cases s with
  | blank => exact .char (by decide)
  | _ => exact .append (.newline indent) h

/-- The layout of a statement reads as its layout in blank ink. -/
theorem reads_layout {s : Stmt} (h : s.wellFormed = true) (indent : Nat) :
    Reads (s.layout .source indent) (s.layout .blank indent) := by
  -- The literal of a function without parameters, up to its block.
  have hfunc : Reads ['f', 'u', 'n', 'c', '(', ')'] ['f', 'u', 'n', 'c', '(', ')'] :=
    .append (a := ['f', 'u', 'n', 'c']) (.plain (by decide)) (.parentheses .nil)
  induction s using bodyInduction generalizing indent with
  | expr value =>
      simp only [layout]
      exact Expr.reads_layout h indent 0
  | define names value =>
      simp only [wellFormed, Bool.and_eq_true, List.all_eq_true] at h
      simp only [layout]
      refine .append (.append (.commaSeparated fun name hname => ?_) (.plain (by decide)))
        (Expr.reads_layout h.2 indent 0)
      exact reads_name (h.1 name hname)
  | result value =>
      cases value with
      | none =>
          simp only [layout]
          exact .plain (by decide)
      | some value => exact .append (.plain (by decide)) (Expr.reads_layout h indent 0)
  | branch init condition body ihinit ihbody =>
      simp only [wellFormed, bodyWellFormed_eq, Bool.and_eq_true, List.all_eq_true] at h
      obtain ⟨⟨hinit, hcondition⟩, hbody⟩ := h
      have hfront : Reads (initLayout .source indent init) (initLayout .blank indent init) := by
        cases init with
        | none => exact .nil
        | some s => exact .append (ihinit s rfl hinit indent) (.plain (by decide))
      simp only [layout, bodyLayout_eq]
      exact .append
        (.append (.append (.plain (by decide)) hfront) (Expr.reads_layout hcondition indent 0))
        (.layoutBlock indent
          (.flatMap fun s hs => reads_lineLayout (ihbody s hs (hbody s hs) (indent + 1))))
  | go body ih =>
      simp only [wellFormed, bodyWellFormed_eq, List.all_eq_true] at h
      simp only [layout, bodyLayout_eq]
      refine .append (.append ?_ (.layoutBlock indent
        (.flatMap fun s hs => reads_lineLayout (ih s hs (h s hs) (indent + 1)))))
        (.parentheses .nil)
      exact .append (a := ['g', 'o', ' ']) (.plain (by decide)) hfunc
  | defer body ih =>
      simp only [wellFormed, bodyWellFormed_eq, List.all_eq_true] at h
      simp only [layout, bodyLayout_eq]
      refine .append (.append ?_ (.layoutBlock indent
        (.flatMap fun s hs => reads_lineLayout (ih s hs (h s hs) (indent + 1)))))
        (.parentheses .nil)
      exact .append (a := ['d', 'e', 'f', 'e', 'r', ' ']) (.plain (by decide)) hfunc
  | deferCall call =>
      simp only [layout]
      exact .append (.plain (by decide)) (Expr.reads_layout h indent 0)
  | blank => exact .nil

end Stmt

/-- The result types of a function read as themselves. -/
theorem reads_layoutResults {results : List TypeExpr}
    (h : results.all TypeExpr.wellFormed = true) :
    Reads (layoutResults (results.map TypeExpr.layout))
      (layoutResults (results.map TypeExpr.layout)) := by
  rw [List.all_eq_true] at h
  have htypes : ∀ t ∈ results, Reads t.layout t.layout := fun t ht => TypeExpr.reads_layout (h t ht)
  match results, htypes with
  | [], _ => exact .nil
  | [t], htypes => exact .cons (by decide) (htypes t List.mem_cons_self)
  | t :: u :: rest, htypes => exact .cons (by decide) (.parentheses (.commaSeparated htypes))

/-- The layout of a function reads as its layout in blank ink. -/
theorem Func.reads_layout {f : Func} (h : f.wellFormed = true)
    (hdoc : ∀ line ∈ f.doc, '\n' ∉ line.toList) : Reads (f.layout .source) (f.layout .blank) := by
  simp only [wellFormed, Bool.and_eq_true] at h
  obtain ⟨⟨hname, hresults⟩, hbody⟩ := h
  rw [List.all_eq_true] at hbody
  have hsignature : Reads f.signature f.signature :=
    .append (.append (.append (.plain (by decide)) (reads_name hname)) (.parentheses .nil))
      (reads_layoutResults hresults)
  refine .append (.append (.append (.flatMap fun line hline => ?_) hsignature)
    (.layoutBlock 0 (.flatMap fun s hs => ?_))) (.char (by decide))
  · exact reads_comment (hdoc line hline)
  · exact Stmt.reads_lineLayout (Stmt.reads_layout (hbody s hs) 1)

/-- The import block of a file reads as its layout in blank ink. -/
theorem reads_importsLayout (groups : List (List String)) :
    Reads (importsLayout .source groups) (importsLayout .blank groups) := by
  have hline : ∀ path, Reads (importLayout .source path) (importLayout .blank path) := by
    intro path
    exact .append (.cons (by decide) (reads_quote path.toList)) (.char (by decide))
  have hgroups := Reads.intercalate (Reads.char (c := '\n') (by decide))
    fun paths (_ : paths ∈ groups) => Reads.flatMap fun path (_ : path ∈ paths) => hline path
  simp only [importsLayout]
  split
  · exact .nil
  · have hword :
        Reads ['\n', 'i', 'm', 'p', 'o', 'r', 't', ' '] ['\n', 'i', 'm', 'p', 'o', 'r', 't', ' '] :=
      .plain (by decide)
    have hblock := Reads.parentheses (.cons (c := '\n') (by decide) hgroups)
    simpa using Reads.append hword (.append hblock (.char (c := '\n') (by decide)))

namespace File

/-- The comment lines of a file stay on their lines. -/
def CommentsOnLines (f : File) : Prop :=
  (∀ line ∈ f.header, '\n' ∉ line.toList) ∧ ∀ func ∈ f.funcs, ∀ line ∈ func.doc, '\n' ∉ line.toList

/-- The layout of a file reads as its layout in blank ink. -/
theorem reads_layout {f : File} (h : f.wellFormed = true) (hcomments : f.CommentsOnLines)
    (root : String) : Reads (f.layout .source root) (f.layout .blank root) := by
  rw [wellFormed, Bool.and_eq_true, List.all_eq_true] at h
  have hheader : Reads (headerLayout .source f.header) (headerLayout .blank f.header) := by
    unfold headerLayout
    split
    · exact .nil
    · refine .append (.flatMap fun line hline => ?_) (.char (by decide))
      exact reads_comment (hcomments.1 line hline)
  have hfront : Reads (f.frontLayout .source) (f.frontLayout .blank) :=
    .append (.append (.append hheader (.plain (by decide))) (reads_name h.1)) (.char (by decide))
  refine .append (.append hfront (reads_importsLayout _)) (.flatMap fun func hfunc => ?_)
  exact .cons (by decide) (Func.reads_layout (h.2 func hfunc) (hcomments.2 func hfunc))

/-- The code of a printed file is its layout in blank ink. -/
theorem blank_layout {f : File} (h : f.wellFormed = true) (hcomments : f.CommentsOnLines)
    (root : String) : blank (f.layout .source root) = .ok (f.layout .blank root) := by
  rw [blank, reads_layout h hcomments root {} rfl]
  simp [bind, Except.bind, Scan.finish, Scan.advance]

end File
end Program
end Stackwright
