import Mathlib
import Stackwright.Proofs.Program.Lexemes
import Stackwright.Proofs.Program.StandAlone

/-!
# What can be blanked

Blanking reads a text lexeme by lexeme.  It succeeds exactly if the text consists of
lexemes, the last of which is closed, and the brackets of the code are balanced.  The
result has a character for every character of the text: those of the code stay, the others
become blanks.

Line ends stay as well, except that an escaped line end in an interpreted literal is
blanked with the literal around it.  So the line ends are where they were exactly if every
interpreted literal ends on its line.

Main results:

- Theorem `Lexed.blank_eq_ok_iff`: the blanked text of lexemes.
- Theorem `exists_lexed_of_blank`: a text that can be blanked consists of lexemes.
- Theorem `blank_lexes`: which texts can be blanked, and to what.
-/

namespace Stackwright
namespace Program

/-- A blanked character. -/
def BlankOf (c d : Char) : Prop :=
  d = c ∨ d = ' '

/-- A blank that keeps line ends. -/
def lineBlank (c : Char) : Char :=
  if c = '\n' then '\n' else ' '

namespace Lexeme

/-- What blanking leaves of a lexeme. -/
def blanked : Lexeme → List Char
  | .code c => [c]
  | .quoted _ body => List.replicate (body.length + 2) ' '
  | x => x.text.map lineBlank

/-- The bracket that a lexeme is, if it is one. -/
def bracket : Lexeme → List Char
  | .code c => if isBracket c then [c] else []
  | _ => []

end Lexeme

/-- What blanking leaves of lexemes. -/
def codeOf (pieces : List Lexeme) : List Char :=
  pieces.flatMap Lexeme.blanked

/-- The brackets of the code. -/
def brackets (pieces : List Lexeme) : List Char :=
  pieces.flatMap Lexeme.bracket

/-! ## Reading lexemes -/

namespace Scan

variable {s : Scan} {rest : List Char}

/-- Reads a text to its end. -/
def read (s : Scan) (text : List Char) : Except FormatFault (List Char) :=
  s.run text >>= Scan.finish

/-- The same reading back in the code, with a slash that started no comment written. -/
def back (s : Scan) : Scan :=
  { s with region := .code, blanked := s.region.pending.reverse ++ s.blanked }

/-- Readings that stand between two lexemes. -/
inductive Between (rest : List Char) : Region → Prop
  | code : Between rest .code
  | slash (h : ∀ d ∈ rest.head?, d ≠ '/' ∧ d ≠ '*') : Between rest .slash
  | lineComment (h : ∀ d ∈ rest.head?, d = '\n') : Between rest .lineComment

/-- Between two lexemes the reading is back in the code. -/
theorem read_back (h : Between rest s.region) : s.read rest = s.back.read rest := by
  obtain ⟨region, line, brackets, blanked⟩ := s
  cases rest with
  | nil => cases h <;> cases brackets <;> rfl
  | cons c rest =>
      have hstep : Scan.step ⟨region, line, brackets, blanked⟩ c
          = (Scan.back ⟨region, line, brackets, blanked⟩).step c := by
        cases h with
        | code => rfl
        | slash h =>
            obtain ⟨hslash, hstar⟩ := h c rfl
            simp [Scan.step, hslash, hstar, back, Region.pending, Scan.put]
        | lineComment h =>
            cases h c rfl
            rfl
      rw [read, read, run_cons, run_cons, hstep]

theorem read_of_run {t : Scan} {text : List Char} (h : s.run text = .ok t) (rest : List Char) :
    s.read (text ++ rest) = t.read rest := by
  rw [read, run_append_of_ok h, read]

/-! ### Literals and comments -/

theorem spanStep_eq (s : Scan) (c : Char) (r : Region) :
    s.spanStep c r = (s.advance ([c].count '\n') [lineBlank c]).enter r := by
  by_cases hc : c = '\n' <;> simp [spanStep, hc, lineBlank, advance, enter, putLineEnd, put]

theorem region_spanStep (s : Scan) (c : Char) (r : Region) : (s.spanStep c r).region = r := by
  rw [spanStep_eq]
  rfl

/-- The inside of an interpreted literal is blanked. -/
theorem run_escaped {mark : Char} {body : List Char} (h : Escaped mark body)
    (hs : s.region = .quoted mark) :
    s.run body = .ok (s.advance 0 (List.replicate body.length ' ')) := by
  induction h generalizing s with
  | nil => rfl
  | @char c body hmark hslash hline _ ih =>
      have hstep : s.run [c] = .ok (s.advance 0 [' ']) := by
        simp [run_cons, run_nil, step, hs, hmark, hslash, hline, put, advance, bind, Except.bind]
      rw [← List.singleton_append, run_append_of_ok hstep, ih (s := s.advance _ _) hs,
        advance_advance]
      rfl
  | @escape c body _ ih =>
      have hstep : s.run ['\\', c] = .ok (s.advance 0 [' ', ' ']) := by
        simp [run_cons, run_nil, step, hs, put, advance, bind, Except.bind]
      have hcut : '\\' :: c :: body = ['\\', c] ++ body := rfl
      rw [hcut, run_append_of_ok hstep, ih (s := s.advance _ _) hs, advance_advance]
      rfl

/-- A text that a region spans is blanked, and its line ends stay. -/
theorem run_spanned {r : Region} {body : List Char} (hs : s.region = r)
    (hstep : ∀ c ∈ body, ∀ t : Scan, t.region = r → t.step c = .ok (t.spanStep c r)) :
    s.run body = .ok (s.advance (body.count '\n') (body.map lineBlank)) := by
  induction body generalizing s with
  | nil => rfl
  | cons c body ih =>
      rw [List.forall_mem_cons] at hstep
      have hfirst : s.run [c] = .ok (s.advance ([c].count '\n') [lineBlank c]) := by
        rw [run_cons, hstep.1 s hs, spanStep_eq]
        obtain ⟨region, line, brackets, blanked⟩ := s
        cases hs
        rfl
      rw [← List.singleton_append, run_append_of_ok hfirst, ih (s := s.advance _ _) hs hstep.2,
        advance_advance, List.count_append, List.map_append, List.map_singleton]

/-- A block comment is blanked up to its end, and its line ends stay. -/
theorem run_blockComment {start : Nat} {star : Bool} {body : List Char}
    (hs : s.region = .blockComment start star)
    (hbody : ¬ ['*', '/'] <:+: (if star then '*' :: body else body) ++ ['*']) :
    s.run (body ++ ['*', '/'])
      = .ok ((s.advance (body.count '\n') ((body ++ ['*', '/']).map lineBlank)).enter .code) := by
  induction body generalizing s star with
  | nil =>
      cases star <;>
        simp [run_cons, run_nil, step, hs, spanStep, put, advance, enter, lineBlank, bind,
          Except.bind]
  | cons c body ih =>
      have hnot : (star && c = '/') = false := by
        rw [Bool.and_eq_false_imp, decide_eq_false_iff_not]
        rintro rfl rfl
        exact hbody ⟨[], body ++ ['*'], rfl⟩
      have hfirst : s.run [c] = .ok
          ((s.advance ([c].count '\n') [lineBlank c]).enter (.blockComment start (c = '*'))) := by
        rw [run_cons, step, hs]
        simp [hnot, spanStep_eq, run_nil, bind, Except.bind]
      have hrest : ¬ ['*', '/'] <:+: (if decide (c = '*') then '*' :: body else body) ++ ['*'] := by
        refine fun hin => hbody (hin.trans (List.IsSuffix.isInfix ?_))
        have htail : (if decide (c = '*') then '*' :: body else body) ++ ['*']
            <:+ c :: (body ++ ['*']) := by
          by_cases hc : c = '*'
          · simp [hc]
          · simp only [hc, decide_false, Bool.false_eq_true, if_false]
            exact List.suffix_cons _ _
        refine htail.trans ?_
        cases star with
        | false => exact List.suffix_rfl
        | true => exact List.suffix_cons _ _
      rw [List.cons_append, ← List.singleton_append, run_append_of_ok hfirst,
        ih (s := Scan.enter _ _) rfl hrest]
      simp [enter, advance, List.count_cons, Nat.add_comm, Nat.add_left_comm]

/-! ### One lexeme -/

/-- The open brackets without their lines, the innermost first. -/
def openBrackets (s : Scan) : List Char :=
  s.brackets.map Prod.fst

/-- Reading `text` leads to a place between lexemes, with `stack` open and `code` written. -/
def LeadsTo (s : Scan) (text rest stack code : List Char) : Prop :=
  ∃ t, s.run text = .ok t ∧ Between rest t.region ∧ t.openBrackets = stack ∧
    t.back.blanked = code.reverse ++ s.blanked

/-- One character of the code. -/
theorem run_code (hs : s.region = .code) (c : Char) : s.run [c] = s.codeStep c := by
  rw [run_cons, step, hs]
  exact bind_pure (s.codeStep c)

/-- A bracket is read with the open ones. -/
theorem run_bracket (hs : s.region = .code) {c : Char} (hc : isBracket c = true)
    (rest : List Char) :
    (nestStep s.openBrackets c = none ∧ ∃ e, s.run [c] = .error e) ∨
      ∃ stack, nestStep s.openBrackets c = some stack ∧ s.LeadsTo [c] rest stack [c] := by
  have hmark : c ≠ '"' ∧ c ≠ '\'' ∧ c ≠ '\x60' ∧ c ≠ '/' := by
    refine ⟨?_, ?_, ?_, ?_⟩ <;> rintro rfl <;> revert hc <;> decide
  obtain ⟨hdouble, hsingle, hraw, hslash⟩ := hmark
  obtain ⟨region, line, brackets, blanked⟩ := s
  simp only [LeadsTo, run_code hs, codeStep, hdouble, hsingle, hraw, hslash, decide_false,
    Bool.or_self, Bool.false_eq_true, if_false, openBrackets, nestStep]
  cases hopen : isOpening c with
  | true => exact .inr ⟨_, rfl, _, rfl, .code, rfl, rfl⟩
  | false =>
      have hclose : isClosing c = true := by simpa [isBracket, hopen] using hc
      cases brackets with
      | nil => exact .inl ⟨rfl, _, by rw [if_pos hclose]; rfl⟩
      | cons b brackets =>
          by_cases hmatch : b.1 = openingOf c
          · refine .inr ⟨brackets.map Prod.fst, by simp [hmatch],
              ⟨.code, line, brackets, c :: blanked⟩, ?_, .code, rfl, rfl⟩
            simp [hclose, hmatch, put]
          · exact .inl ⟨by simp [hmatch], .unbalanced c line, by simp [hclose, hmatch]⟩

end Scan

namespace Lexeme

open Scan

variable {x : Lexeme} {s : Scan} {rest : List Char}

/-- A lexeme that is no bracket is read as what is left of it. -/
theorem leadsTo (hx : x.EndsBefore rest) (hbracket : x.bracket = []) (hs : s.region = .code) :
    s.LeadsTo x.text rest s.openBrackets x.blanked := by
  obtain ⟨region, line, brackets, blanked⟩ := s
  cases hs
  cases x with
  | code c =>
      obtain ⟨hdouble, hsingle, hraw, hslash⟩ := hx
      by_cases hc : c = '/'
      · cases hc
        exact ⟨_, rfl, .slash (hslash rfl), rfl, rfl⟩
      · have hplain : isPlain c = true := by
          simp only [bracket, ite_eq_right_iff, List.cons_ne_nil, imp_false, isBracket,
            Bool.or_eq_true, not_or, Bool.not_eq_true] at hbracket
          simp [isPlain, hdouble, hsingle, hraw, hc, hbracket]
        refine ⟨_, (run_code rfl c).trans (codeStep_of_isPlain _ hplain), ?_⟩
        split
        · rename_i hline
          cases hline
          exact ⟨.code, rfl, rfl⟩
        · exact ⟨.code, rfl, rfl⟩
  | quoted mark body =>
      obtain ⟨hmark, hbody⟩ := hx
      have hopen : run ⟨.code, line, brackets, blanked⟩ [mark]
          = .ok ⟨.quoted mark, line, brackets, ' ' :: blanked⟩ := by
        rw [run_code rfl, codeStep]
        simp [hmark, put]
      have hclose : ∀ t : Scan, t.region = .quoted mark → t.run [mark] = .ok (t.put ' ' .code) := by
        intro t ht
        rcases hmark with rfl | rfl <;> simp [run_cons, run_nil, step, ht, bind, Except.bind]
      refine ⟨⟨.code, line, brackets,
        ' ' :: (List.replicate body.length ' ' ++ ' ' :: blanked)⟩, ?_, .code, rfl, ?_⟩
      · rw [text, ← List.singleton_append, run_append_of_ok hopen,
          run_append_of_ok (run_escaped hbody rfl), hclose _ rfl]
        simp [put, advance]
      · have hblanks : List.replicate (body.length + 2) ' '
            = ' ' :: (List.replicate body.length ' ' ++ [' ']) := by
          rw [← List.replicate_succ']
          rfl
        simp [back, Region.pending, Lexeme.blanked, hblanks]
  | raw body =>
      have hopen : run ⟨.code, line, brackets, blanked⟩ ['\x60']
          = .ok ⟨.raw line, line, brackets, ' ' :: blanked⟩ := rfl
      have hspan : ∀ c ∈ body, ∀ t : Scan, t.region = .raw line →
          t.step c = .ok (t.spanStep c (.raw line)) := by
        intro c hc t ht
        have hne : c ≠ '\x60' := fun h => hx (h ▸ hc)
        simp [step, ht, hne]
      refine ⟨⟨.code, line + body.count '\n', brackets,
        ' ' :: ((body.map lineBlank).reverse ++ ' ' :: blanked)⟩, ?_, .code, rfl, ?_⟩
      · rw [text, ← List.singleton_append, run_append_of_ok hopen,
          run_append_of_ok (run_spanned rfl hspan)]
        rfl
      · simp [back, Region.pending, Lexeme.blanked, text, lineBlank]
  | lineComment body =>
      obtain ⟨hbody, hend⟩ := hx
      have hopen : run ⟨.code, line, brackets, blanked⟩ ['/', '/']
          = .ok ⟨.lineComment, line, brackets, ' ' :: ' ' :: blanked⟩ := rfl
      have hspan : ∀ c ∈ body, ∀ t : Scan, t.region = .lineComment →
          t.step c = .ok (t.spanStep c .lineComment) := by
        intro c hc t ht
        have hne : c ≠ '\n' := fun h => hbody (h ▸ hc)
        simp [step, ht, hne, spanStep]
      have hcut : '/' :: '/' :: body = ['/', '/'] ++ body := rfl
      refine ⟨advance ⟨.lineComment, line, brackets, ' ' :: ' ' :: blanked⟩ (body.count '\n')
        (body.map lineBlank), ?_, .lineComment hend, rfl, ?_⟩
      · rw [text, hcut, run_append_of_ok hopen, run_spanned rfl hspan]
      · simp [back, Region.pending, Lexeme.blanked, text, lineBlank, advance]
  | blockComment body =>
      have hends : ¬ ['*', '/'] <:+: (if false then '*' :: body else body) ++ ['*'] := hx
      have hopen : run ⟨.code, line, brackets, blanked⟩ ['/', '*']
          = .ok ⟨.blockComment line false, line, brackets, ' ' :: ' ' :: blanked⟩ := rfl
      have hcut : '/' :: '*' :: (body ++ ['*', '/']) = ['/', '*'] ++ (body ++ ['*', '/']) := rfl
      refine ⟨(advance ⟨.blockComment line false, line, brackets, ' ' :: ' ' :: blanked⟩
        (body.count '\n') ((body ++ ['*', '/']).map lineBlank)).enter .code, ?_, .code, rfl, ?_⟩
      · rw [text, hcut, run_append_of_ok hopen, run_blockComment rfl hends]
      · simp [back, enter, Region.pending, Lexeme.blanked, text, lineBlank, advance]

theorem nest_singleton (stack : List Char) (c : Char) : nest stack [c] = nestStep stack c := by
  rw [nest_cons]
  exact Option.bind_fun_some _

/-- A lexeme is read as what is left of it, unless it is a closing bracket that does not fit. -/
theorem run (hx : x.EndsBefore rest) (hs : s.region = .code) :
    (nest s.openBrackets x.bracket = none ∧ ∃ e, s.run x.text = .error e) ∨
      ∃ stack, nest s.openBrackets x.bracket = some stack ∧
        s.LeadsTo x.text rest stack x.blanked := by
  by_cases hbracket : x.bracket = []
  · exact .inr ⟨_, by rw [hbracket, nest_nil], leadsTo hx hbracket hs⟩
  · cases x with
    | code c =>
        have hc : isBracket c = true := by
          by_contra hc
          simp [bracket, hc] at hbracket
        rw [bracket, if_pos hc, nest_singleton]
        exact run_bracket hs hc rest
    | _ => exact absurd rfl hbracket

end Lexeme

/-! ## Reading a text -/

/-- Lexemes are read to the end exactly if their brackets close what is open. -/
theorem Lexed.read_eq_ok_iff {pieces : List Lexeme} (h : Lexed pieces []) {s : Scan}
    (hs : s.region = .code) {code : List Char} :
    s.read (sourceOf pieces) = .ok code ↔
      nest s.openBrackets (brackets pieces) = some [] ∧
        code = s.blanked.reverse ++ codeOf pieces := by
  induction pieces generalizing s with
  | nil =>
      obtain ⟨region, line, brackets, blanked⟩ := s
      cases hs
      cases brackets with
      | nil =>
          have hread : Scan.read ⟨.code, line, [], blanked⟩ [] = .ok blanked.reverse := rfl
          rw [sourceOf_nil, hread, Except.ok.injEq, eq_comm]
          simp [Scan.openBrackets, codeOf, Program.brackets, nest_nil]
      | cons b brackets =>
          refine iff_of_false ?_ ?_
          · rintro ⟨⟩
          · rintro ⟨⟨⟩, -⟩
  | cons x pieces ih =>
      obtain ⟨hx, hpieces⟩ := h
      rw [List.append_nil] at hx
      have hbrackets : brackets (x :: pieces) = x.bracket ++ brackets pieces := List.flatMap_cons
      have hcode : codeOf (x :: pieces) = x.blanked ++ codeOf pieces := List.flatMap_cons
      rw [sourceOf_cons, hbrackets, hcode, nest_append]
      rcases x.run hx hs with ⟨hnone, e, herror⟩ | ⟨stack, hstack, t, hrun, hbetween, hopen, hwrote⟩
      · rw [Scan.read, Scan.run_append, herror, hnone]
        refine iff_of_false ?_ ?_
        · rintro ⟨⟩
        · rintro ⟨⟨⟩, -⟩
      · rw [Scan.read_of_run hrun, Scan.read_back hbetween, ih hpieces rfl, hwrote, hstack, ← hopen]
        simp [Scan.back, Scan.openBrackets]

theorem isBracket_of_mem_brackets {pieces : List Lexeme} {c : Char} (hc : c ∈ brackets pieces) :
    isBracket c = true := by
  obtain ⟨x, -, hx⟩ := List.mem_flatMap.1 hc
  cases x with
  | code d =>
      rw [Lexeme.bracket] at hx
      split at hx
      · rename_i hd
        rwa [List.mem_singleton.1 hx]
      · cases hx
  | _ => cases hx

/-- The blanked text of lexemes. -/
theorem Lexed.blank_eq_ok_iff {pieces : List Lexeme} (h : Lexed pieces []) {code : List Char} :
    blank (sourceOf pieces) = .ok code ↔ Balanced (brackets pieces) ∧ code = codeOf pieces := by
  rw [← nest_eq_some_nil_iff fun c => isBracket_of_mem_brackets]
  exact h.read_eq_ok_iff (s := {}) rfl

/-! ## Cutting a text -/

/-- Texts that consist of lexemes. -/
def Lexable (text : List Char) : Prop :=
  ∃ pieces, Lexed pieces [] ∧ sourceOf pieces = text

namespace Lexable

variable {text rest : List Char}

theorem nil : Lexable [] :=
  ⟨[], lexed_nil [], rfl⟩

theorem cons {x : Lexeme} (hx : x.EndsBefore rest) (h : Lexable rest) :
    Lexable (x.text ++ rest) := by
  obtain ⟨pieces, hpieces, rfl⟩ := h
  exact ⟨x :: pieces, ⟨by rwa [List.append_nil], hpieces⟩, rfl⟩

theorem exists_cons {c : Char} (h : Lexable (c :: text)) :
    ∃ x rest, Lexeme.EndsBefore rest x ∧ Lexable rest ∧ x.text ++ rest = c :: text := by
  obtain ⟨pieces, hpieces, hsource⟩ := h
  cases pieces with
  | nil => cases hsource
  | cons x pieces =>
      obtain ⟨hx, hpieces⟩ := hpieces
      rw [List.append_nil] at hx
      exact ⟨x, sourceOf pieces, hx, ⟨pieces, hpieces, rfl⟩, hsource⟩

/-- A character of the inside of an interpreted literal. -/
theorem quoted_cons {mark : Char} (hmark : mark = '"' ∨ mark = '\'') (front : List Char)
    (hfront : ∀ body, Escaped mark body → Escaped mark (front ++ body))
    (h : Lexable (mark :: text)) : Lexable (mark :: (front ++ text)) := by
  obtain ⟨x, rest, hx, hrest, hcut⟩ := h.exists_cons
  obtain ⟨body, rfl, hbody, rfl⟩ := Lexeme.exists_quoted hx hmark hcut
  have hends : (Lexeme.quoted mark (front ++ body)).EndsBefore rest := ⟨hmark, hfront body hbody⟩
  simpa [Lexeme.text] using cons hends hrest

theorem raw_cons {c : Char} (hc : c ≠ '\x60') (h : Lexable ('\x60' :: text)) :
    Lexable ('\x60' :: c :: text) := by
  obtain ⟨x, rest, hx, hrest, hcut⟩ := h.exists_cons
  obtain ⟨body, rfl, hbody, rfl⟩ := Lexeme.exists_raw hx hcut
  have hends : (Lexeme.raw (c :: body)).EndsBefore rest := by
    simpa [Lexeme.EndsBefore, Ne.symm hc] using hbody
  simpa [Lexeme.text] using cons hends hrest

theorem lineComment_cons {c : Char} (hc : c ≠ '\n') (h : Lexable ('/' :: '/' :: text)) :
    Lexable ('/' :: '/' :: c :: text) := by
  obtain ⟨x, rest, hx, hrest, hcut⟩ := h.exists_cons
  obtain ⟨body, rfl, hbody, hend, rfl⟩ := Lexeme.exists_lineComment hx hcut
  have hends : (Lexeme.lineComment (c :: body)).EndsBefore rest :=
    ⟨by simpa [Ne.symm hc] using hbody, hend⟩
  simpa [Lexeme.text] using cons hends hrest

/-- A character of the inside of a block comment that does not end it. -/
theorem blockComment_cons {c : Char} (hc : c = '*' → text.head? ≠ some '/')
    (h : Lexable ('/' :: '*' :: text)) : Lexable ('/' :: '*' :: c :: text) := by
  obtain ⟨x, rest, hx, hrest, hcut⟩ := h.exists_cons
  obtain ⟨body, rfl, hbody, rfl⟩ := Lexeme.exists_blockComment hx hcut
  have hends : (Lexeme.blockComment (c :: body)).EndsBefore rest := by
    intro hin
    rcases List.infix_cons_iff.1 hin with hprefix | hin
    · obtain ⟨rfl, back, hback : '/' :: back = body ++ ['*']⟩ := List.cons_prefix_cons.1 hprefix
      rw [List.append_cons, ← hback] at hc
      exact hc rfl rfl
    · exact hbody hin
  simpa [Lexeme.text] using cons hends hrest

end Lexable

/-- The start of the lexeme that a reading is in. -/
inductive Region.Opened : Region → List Char → Prop
  | code : Opened .code []
  | slash : Opened .slash ['/']
  | quoted {mark : Char} (h : mark = '"' ∨ mark = '\'') : Opened (.quoted mark) [mark]
  | escaped {mark : Char} (h : mark = '"' ∨ mark = '\'') : Opened (.escaped mark) [mark, '\\']
  | raw (start : Nat) : Opened (.raw start) ['\x60']
  | lineComment : Opened .lineComment ['/', '/']
  | blockComment (start : Nat) : Opened (.blockComment start false) ['/', '*']
  | star (start : Nat) : Opened (.blockComment start true) ['/', '*', '*']

variable {s t : Scan} {c : Char} {text : List Char}

/-- What follows a character of the code decides how it is cut. -/
theorem Scan.lexable_codeStep (text : List Char) (h : s.codeStep c = .ok t) :
    ∃ front, t.region.Opened front ∧ (Lexable (front ++ text) → Lexable (c :: text)) := by
  unfold Scan.codeStep at h
  have hcode : c ≠ '"' → c ≠ '\'' → c ≠ '\x60' → c ≠ '/' → Lexable text → Lexable (c :: text) :=
    fun hdouble hsingle hraw hslash =>
      Lexable.cons (x := .code c) ⟨hdouble, hsingle, hraw, fun h => absurd h hslash⟩
  split_ifs at h with hquote hraw hslash hopen hclose hline
  · cases h
    exact ⟨[c], .quoted (by simpa using hquote), id⟩
  · cases h
    rw [hraw]
    exact ⟨['\x60'], .raw _, id⟩
  · cases h
    rw [hslash]
    exact ⟨['/'], .slash, id⟩
  all_goals
    simp only [Bool.or_eq_true, decide_eq_true_eq, not_or] at hquote
    have htext := hcode hquote.1 hquote.2 hraw hslash
  · cases h
    exact ⟨[], .code, htext⟩
  · split at h
    · cases h
    · split at h
      · cases h
        exact ⟨[], .code, htext⟩
      · cases h
  · cases h
    exact ⟨[], .code, htext⟩
  · cases h
    exact ⟨[], .code, htext⟩

/-- One character further in a lexeme. -/
theorem Scan.lexable_step {front : List Char} (hfront : s.region.Opened front)
    (h : s.step c = .ok t) :
    ∃ next, t.region.Opened next ∧ (Lexable (next ++ text) → Lexable (front ++ c :: text)) := by
  obtain ⟨region, line, brackets, blanked⟩ := s
  unfold Scan.step at h
  cases hfront with
  | code => exact lexable_codeStep text h
  | slash =>
      simp only at h
      split_ifs at h with hslash hstar
      · cases h
        exact ⟨_, .lineComment, by rw [hslash]; exact id⟩
      · cases h
        exact ⟨_, .blockComment line, by rw [hstar]; exact id⟩
      · obtain ⟨next, hnext, htext⟩ := lexable_codeStep text h
        refine ⟨next, hnext, fun hlex => ?_⟩
        exact (htext hlex).cons (x := .code '/')
          ⟨by decide, by decide, by decide, fun _ d hd => by cases hd; exact ⟨hslash, hstar⟩⟩
  | @quoted mark hmark =>
      simp only at h
      split_ifs at h with hslash hline hend
      · cases h
        exact ⟨_, .escaped hmark, by rw [hslash]; exact id⟩
      · cases h
        rw [hend]
        exact ⟨_, .code, fun hlex => hlex.cons (x := .quoted mark []) ⟨hmark, .nil⟩⟩
      · cases h
        exact ⟨_, .quoted hmark, .quoted_cons hmark [c] fun body => .char hend hslash hline⟩
  | @escaped mark hmark =>
      cases h
      exact ⟨_, .quoted hmark, .quoted_cons hmark ['\\', c] fun body => .escape c⟩
  | raw start =>
      simp only at h
      split_ifs at h with hend
      · cases h
        rw [hend]
        exact ⟨_, .code, fun hlex => hlex.cons (x := .raw []) List.not_mem_nil⟩
      · cases h
        rw [region_spanStep]
        exact ⟨_, .raw start, .raw_cons hend⟩
  | lineComment =>
      simp only at h
      split_ifs at h with hend
      · cases h
        rw [hend]
        refine ⟨_, .code, fun hlex => ?_⟩
        have hline : Lexable ('\n' :: text) :=
          hlex.cons (Lexeme.lineEnd_endsBefore text)
        exact hline.cons (x := .lineComment []) ⟨List.not_mem_nil, fun d hd => by cases hd; rfl⟩
      · cases h
        exact ⟨_, .lineComment, .lineComment_cons hend⟩
  | blockComment start =>
      simp only [Bool.false_and, Bool.false_eq_true, if_false] at h
      cases h
      rw [region_spanStep]
      by_cases hstar : c = '*'
      · rw [hstar]
        exact ⟨_, .star start, id⟩
      · rw [decide_eq_false hstar]
        exact ⟨_, .blockComment start, .blockComment_cons fun h => absurd h hstar⟩
  | star start =>
      simp only [Bool.true_and, decide_eq_true_eq] at h
      split_ifs at h with hend
      · cases h
        rw [hend]
        refine ⟨_, .code, fun hlex => hlex.cons (x := .blockComment []) ?_⟩
        exact fun hin => absurd hin (by decide)
      · cases h
        rw [region_spanStep]
        by_cases hstar : c = '*'
        · rw [hstar]
          exact ⟨_, .star start, .blockComment_cons fun _ => by simp⟩
        · rw [decide_eq_false hstar]
          refine ⟨_, .blockComment start, fun hlex => ?_⟩
          have hrest := hlex.blockComment_cons fun h => absurd h hstar
          exact hrest.blockComment_cons fun _ => by simpa using hend

/-- A text that is read to an end in the code consists of lexemes. -/
theorem Scan.lexable_run {front : List Char} (hfront : s.region.Opened front)
    (hrun : s.run text = .ok t) (hend : t.region.nextLine = some .code) :
    Lexable (front ++ text) := by
  induction text generalizing s front with
  | nil =>
      cases hrun
      generalize t.region = r at hfront hend
      cases hfront with
      | code => exact .nil
      | slash =>
          refine Lexable.nil.cons (x := .code '/')
            ⟨by decide, by decide, by decide, fun _ d hd => ?_⟩
          cases hd
      | lineComment =>
          refine Lexable.nil.cons (x := .lineComment []) ⟨List.not_mem_nil, fun d hd => ?_⟩
          cases hd
      | _ => cases hend
  | cons c text ih =>
      rw [run_cons, bind_eq_ok_iff] at hrun
      obtain ⟨s', hstep, hrun⟩ := hrun
      obtain ⟨next, hnext, htext⟩ := lexable_step hfront hstep
      exact htext (ih hnext hrun)

/-- A text that can be blanked consists of lexemes. -/
theorem exists_lexed_of_blank {source code : List Char} (h : blank source = .ok code) :
    ∃ pieces, Lexed pieces [] ∧ sourceOf pieces = source := by
  obtain ⟨s, hrun, -, hend, -⟩ := exists_run_of_blank h
  exact Scan.lexable_run .code hrun hend

/-! ## Where the line ends are -/

/-- Whether a character is a line end. -/
def isLineEnd (c : Char) : Bool :=
  c == '\n'

namespace Lexeme

/-- Blanking leaves as many characters as there were. -/
theorem length_blanked (x : Lexeme) : x.blanked.length = x.text.length := by
  cases x <;> simp [blanked, text]

theorem blankOf_lineBlank (text : List Char) : List.Forall₂ BlankOf text (text.map lineBlank) := by
  rw [List.forall₂_map_right_iff, List.forall₂_same]
  intro c _
  by_cases hc : c = '\n' <;> simp [BlankOf, lineBlank, hc]

/-- Blanking keeps a character or makes it a blank. -/
theorem blankOf_blanked (x : Lexeme) : List.Forall₂ BlankOf x.text x.blanked := by
  cases x with
  | code c => exact .cons (.inl rfl) .nil
  | quoted mark body =>
      refine List.forall₂_iff_zip.2 ⟨by simp [text, blanked], fun hmem => .inr ?_⟩
      exact List.eq_of_mem_replicate (List.of_mem_zip hmem).2
  | _ => exact blankOf_lineBlank _

/-- The line ends of a lexeme stay exactly if it is no interpreted literal with one. -/
theorem map_isLineEnd_blanked {x : Lexeme} {rest : List Char} (hx : x.EndsBefore rest) :
    x.blanked.map isLineEnd = x.text.map isLineEnd ↔ x.EndsOnItsLine := by
  have hspan : ∀ text : List Char, (text.map lineBlank).map isLineEnd = text.map isLineEnd := by
    intro text
    rw [List.map_map]
    refine List.map_congr_left fun c _ => ?_
    by_cases hc : c = '\n' <;> simp [isLineEnd, lineBlank, hc]
  cases x with
  | code c => exact iff_of_true rfl trivial
  | quoted mark body =>
      have hmark : mark ≠ '\n' := by rcases hx.1 with rfl | rfl <;> decide
      have hlength : body.length + 2 = (mark :: (body ++ [mark])).length := by simp
      rw [blanked, text, hlength, List.map_replicate, eq_comm, List.map_eq_replicate_iff]
      refine ⟨fun h hmem => absurd (h '\n' (by simp [hmem])) (by decide), fun h c hc => ?_⟩
      have hne : c ≠ '\n' := by
        rintro rfl
        exact h (by simpa [Ne.symm hmark] using hc)
      simp [isLineEnd, hne]
  | _ => exact iff_of_true (hspan _) trivial

end Lexeme

variable {pieces : List Lexeme}

/-- The code of lexemes has a character for every character of their text. -/
theorem length_codeOf (pieces : List Lexeme) :
    (codeOf pieces).length = (sourceOf pieces).length := by
  rw [codeOf, sourceOf, List.length_flatMap, List.length_flatMap]
  exact congrArg List.sum (List.map_congr_left fun x _ => x.length_blanked)

/-- The code of lexemes keeps a character or has a blank for it. -/
theorem blankOf_codeOf (pieces : List Lexeme) :
    List.Forall₂ BlankOf (sourceOf pieces) (codeOf pieces) := by
  induction pieces with
  | nil => exact .nil
  | cons x pieces ih => exact List.rel_append x.blankOf_blanked ih

/-- The line ends of lexemes stay exactly if every interpreted literal ends on its line. -/
theorem Lexed.map_isLineEnd_codeOf {rest : List Char} (h : Lexed pieces rest) :
    (codeOf pieces).map isLineEnd = (sourceOf pieces).map isLineEnd ↔
      ∀ x ∈ pieces, x.EndsOnItsLine := by
  induction pieces with
  | nil => simp [codeOf]
  | cons x pieces ih =>
      have hcode : codeOf (x :: pieces) = x.blanked ++ codeOf pieces := List.flatMap_cons
      rw [hcode, sourceOf_cons, List.map_append, List.map_append, List.forall_mem_cons,
        ← Lexeme.map_isLineEnd_blanked h.1, ← ih h.2]
      refine ⟨fun heq => List.append_inj heq ?_, fun ⟨hfirst, hrest⟩ => by rw [hfirst, hrest]⟩
      rw [List.length_map, List.length_map, x.length_blanked]

/-- Texts of one length have their line ends at the same places if a test for them says so. -/
theorem map_isLineEnd_eq_iff {a b : List Char} (hlength : a.length = b.length) :
    a.map isLineEnd = b.map isLineEnd ↔ ∀ i : Nat, a[i]? = some '\n' ↔ b[i]? = some '\n' := by
  have hend : ∀ o : Option Char, o = some '\n' ↔ o.map isLineEnd = some true := by
    intro o
    cases o <;> simp [isLineEnd]
  refine ⟨fun h i => ?_, fun h => List.ext_getElem (by simpa using hlength) fun i ha hb => ?_⟩
  · rw [hend, hend, ← List.getElem?_map, ← List.getElem?_map, h]
  · rw [List.length_map] at ha hb
    have hi := h i
    rw [List.getElem?_eq_getElem ha, List.getElem?_eq_getElem hb, Option.some.injEq,
      Option.some.injEq] at hi
    rw [List.getElem_map, List.getElem_map, isLineEnd, isLineEnd, Bool.eq_iff_iff, beq_iff_eq,
      beq_iff_eq]
    exact hi

/-- Texts with their line ends at the same places are cut into lines alike. -/
theorem forall₂_splitAll {source code : List Char} (h : List.Forall₂ BlankOf source code)
    (hends : code.map isLineEnd = source.map isLineEnd) :
    List.Forall₂ (List.Forall₂ BlankOf) (Text.splitAll '\n' source) (Text.splitAll '\n' code) := by
  induction h with
  | nil => exact .cons .nil .nil
  | @cons c d source code hchar _ ih =>
      rw [List.map_cons, List.map_cons, List.cons.injEq] at hends
      have hlines := ih hends.2
      rw [Text.splitAll_cons, Text.splitAll_cons]
      by_cases hc : c = '\n'
      · have hd : d = '\n' := by simpa [isLineEnd, hc] using hends.1
        rw [if_pos hc, if_pos hd]
        exact .cons .nil hlines
      · have hd : d ≠ '\n' := by simpa [isLineEnd, hc] using hends.1
        rw [if_neg hc, if_neg hd]
        generalize Text.splitAll '\n' source = sourceLines at hlines
        generalize Text.splitAll '\n' code = codeLines at hlines
        cases hlines with
        | nil => exact .cons (.cons hchar .nil) .nil
        | cons hline hlines => exact .cons (.cons hchar hline) hlines

/-! ## Which texts can be blanked -/

/-- A text can be blanked exactly if it consists of lexemes with balanced brackets, and there is
one way only to cut it.  The result has a character for every character of the text.  The line
ends are where they were exactly if every interpreted literal ends on its line; then the lines of
the result are those of the text with characters blanked. -/
theorem blank_lexes (source : List Char) :
    ((∃ code, blank source = .ok code) ↔
      ∃ pieces, Lexed pieces [] ∧ sourceOf pieces = source ∧ Balanced (brackets pieces)) ∧
    ∀ code, blank source = .ok code →
      ∃ pieces, Lexed pieces [] ∧ sourceOf pieces = source ∧
        (∀ others, Lexed others [] → sourceOf others = source → others = pieces) ∧
        code = codeOf pieces ∧ code.length = source.length ∧
        ((∀ x ∈ pieces, x.EndsOnItsLine) ↔
          ∀ i : Nat, code[i]? = some '\n' ↔ source[i]? = some '\n') ∧
        ((∀ x ∈ pieces, x.EndsOnItsLine) →
          List.Forall₂ (List.Forall₂ BlankOf)
            (Text.splitAll '\n' source) (Text.splitAll '\n' code)) := by
  refine ⟨⟨fun ⟨code, h⟩ => ?_, fun ⟨pieces, hpieces, hsource, hbalanced⟩ => ?_⟩, fun code h => ?_⟩
  · obtain ⟨pieces, hpieces, rfl⟩ := exists_lexed_of_blank h
    exact ⟨pieces, hpieces, rfl, (hpieces.blank_eq_ok_iff.1 h).1⟩
  · rw [← hsource]
    exact ⟨codeOf pieces, hpieces.blank_eq_ok_iff.2 ⟨hbalanced, rfl⟩⟩
  · obtain ⟨pieces, hpieces, rfl⟩ := exists_lexed_of_blank h
    obtain ⟨-, rfl⟩ := hpieces.blank_eq_ok_iff.1 h
    have hlength := length_codeOf pieces
    refine ⟨pieces, hpieces, rfl, fun others hothers hsource => hothers.unique hpieces hsource, rfl,
      hlength, ?_, fun hlines => ?_⟩
    · rw [← hpieces.map_isLineEnd_codeOf, map_isLineEnd_eq_iff hlength]
    · exact forall₂_splitAll (blankOf_codeOf pieces) (hpieces.map_isLineEnd_codeOf.2 hlines)

/-- A literal that does not end on the line it opens on. -/
theorem blank_escapedLineEnd :
    blank "a = \"x\\\ny\"\n".toList = .ok "a =       \n".toList ∧
      ¬ ∃ pieces, Lexed pieces [] ∧ sourceOf pieces = "a = \"x\\\ny\"\n".toList ∧
        ∀ x ∈ pieces, x.EndsOnItsLine := by
  refine ⟨by decide, ?_⟩
  rintro ⟨pieces, hpieces, hsource, hlines⟩
  have hlexed : Lexed ("a = ".toList.map .code ++
      [.quoted '"' ['x', '\\', '\n', 'y'], .code '\n']) [] := by
    have hbody : Escaped '"' ['x', '\\', '\n', 'y'] :=
      .char (by decide) (by decide) (by decide)
        (.escape '\n' (.char (by decide) (by decide) (by decide) .nil))
    exact lexed_append.2 ⟨lexed_map_code (by decide) _, ⟨.inl rfl, hbody⟩,
      Lexeme.lineEnd_endsBefore _, lexed_nil []⟩
  rw [hpieces.unique hlexed hsource] at hlines
  exact hlines (.quoted '"' ['x', '\\', '\n', 'y']) (by simp) (by decide)

end Program
end Stackwright
