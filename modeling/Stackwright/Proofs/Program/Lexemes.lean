import Mathlib
import Stackwright.Proofs.Program.Brackets

/-!
# Lexemes

A source text is cut from left to right into characters of the code, literals and
comments.  Where a lexeme ends follows from the text behind it:

- An interpreted literal ends at the first of its marks that no backslash escapes.
- A raw string ends at the next backquote, and a block comment at the first star with a
  slash behind it.
- A line comment ends in front of a line end.

A text is cut in at most one way.  That no line end stands in an interpreted literal is
part of the rules of the language; here an unescaped one is excluded from the start, and
`Lexeme.EndsOnItsLine` excludes the escaped ones as well.

Main results:

- Theorem `lexed_append`: lexemes are put together and taken apart.
- Theorem `Lexed.unique`: the lexemes of a text.
-/

namespace Stackwright
namespace Program

/-- A piece of a source text. -/
inductive Lexeme where
  | code (c : Char)
  /-- A string or a rune between two of the same mark. -/
  | quoted (mark : Char) (body : List Char)
  | raw (body : List Char)
  | lineComment (body : List Char)
  | blockComment (body : List Char)
deriving DecidableEq, Repr

/-- The inside of an interpreted literal: the mark, a backslash and a line end stand in it only
behind a backslash. -/
inductive Escaped (mark : Char) : List Char → Prop
  | nil : Escaped mark []
  | char {c : Char} {body : List Char} (hmark : c ≠ mark) (hslash : c ≠ '\\') (hline : c ≠ '\n')
      (h : Escaped mark body) : Escaped mark (c :: body)
  | escape (c : Char) {body : List Char} (h : Escaped mark body) : Escaped mark ('\\' :: c :: body)

namespace Lexeme

/-- The text of a lexeme. -/
def text : Lexeme → List Char
  | .code c => [c]
  | .quoted mark body => mark :: (body ++ [mark])
  | .raw body => '\x60' :: (body ++ ['\x60'])
  | .lineComment body => '/' :: '/' :: body
  | .blockComment body => '/' :: '*' :: (body ++ ['*', '/'])

/-- Whether a lexeme ends in front of a text. -/
def EndsBefore (rest : List Char) : Lexeme → Prop
  | .code c => c ≠ '"' ∧ c ≠ '\'' ∧ c ≠ '\x60' ∧ (c = '/' → ∀ d ∈ rest.head?, d ≠ '/' ∧ d ≠ '*')
  | .quoted mark body => (mark = '"' ∨ mark = '\'') ∧ Escaped mark body
  | .raw body => '\x60' ∉ body
  | .lineComment body => '\n' ∉ body ∧ ∀ d ∈ rest.head?, d = '\n'
  | .blockComment body => ¬ ['*', '/'] <:+: body ++ ['*']

/-- Whether a lexeme keeps to the rule that an interpreted literal ends on the line it opens on. -/
def EndsOnItsLine : Lexeme → Prop
  | .quoted _ body => '\n' ∉ body
  | _ => True

/-- Whether a lexeme is a literal. -/
def isLiteral : Lexeme → Bool
  | .quoted _ _ => true
  | .raw _ => true
  | _ => false

/-- Anything may stand behind a line end. -/
theorem lineEnd_endsBefore (rest : List Char) : (Lexeme.code '\n').EndsBefore rest :=
  ⟨by decide, by decide, by decide, fun h => absurd h (by decide)⟩

theorem text_ne_nil (x : Lexeme) : x.text ≠ [] := by
  cases x <;> simp [text]

end Lexeme

/-- The text that lexemes are cut from. -/
def sourceOf (pieces : List Lexeme) : List Char :=
  pieces.flatMap Lexeme.text

/-- Lexemes that are cut from a text with `rest` behind them. -/
def Lexed : List Lexeme → List Char → Prop
  | [], _ => True
  | x :: pieces, rest => x.EndsBefore (sourceOf pieces ++ rest) ∧ Lexed pieces rest

@[simp]
theorem sourceOf_nil : sourceOf [] = [] :=
  rfl

@[simp]
theorem sourceOf_cons (x : Lexeme) (pieces : List Lexeme) :
    sourceOf (x :: pieces) = x.text ++ sourceOf pieces :=
  rfl

@[simp]
theorem sourceOf_append (p q : List Lexeme) : sourceOf (p ++ q) = sourceOf p ++ sourceOf q := by
  simp [sourceOf]

@[simp]
theorem lexed_nil (rest : List Char) : Lexed [] rest :=
  trivial

/-- A lexeme also ends in front of a line end, and at the end of a text. -/
theorem Lexeme.EndsBefore.mono {x : Lexeme} {s t : List Char} (h : x.EndsBefore s)
    (hnext : ∀ d ∈ t.head?, d ∈ s.head? ∨ d = '\n') : x.EndsBefore t := by
  cases x with
  | code c =>
      obtain ⟨hdouble, hsingle, hback, hslash⟩ := h
      refine ⟨hdouble, hsingle, hback, fun hc d hd => ?_⟩
      rcases hnext d hd with hd | rfl
      · exact hslash hc d hd
      · decide
  | lineComment body => exact ⟨h.1, fun d hd => (hnext d hd).elim (h.2 d) id⟩
  | _ => exact h

/-- Lexemes also end in front of a line end, and at the end of a text. -/
theorem Lexed.mono {p : List Lexeme} {s t : List Char} (h : Lexed p s)
    (hnext : ∀ d ∈ t.head?, d ∈ s.head? ∨ d = '\n') : Lexed p t := by
  induction p with
  | nil => exact trivial
  | cons x p ih =>
      refine ⟨h.1.mono fun d hd => ?_, ih h.2⟩
      rw [List.head?_append] at hd ⊢
      cases hhead : (sourceOf p).head? with
      | some c =>
          rw [hhead] at hd
          exact .inl hd
      | none =>
          rw [hhead] at hd
          exact hnext d hd

/-- Characters of the code that start no other lexeme. -/
theorem lexed_map_code {text : List Char}
    (h : text.all (fun c => !(['"', '\'', '\x60', '/'].contains c)) = true) (rest : List Char) :
    Lexed (text.map .code) rest := by
  induction text with
  | nil => exact trivial
  | cons c text ih =>
      rw [List.all_cons, Bool.and_eq_true] at h
      obtain ⟨hc, htext⟩ := h
      simp only [List.contains_eq_mem, List.mem_cons, List.not_mem_nil, or_false, Bool.not_eq_true',
        decide_eq_false_iff_not, not_or] at hc
      obtain ⟨hdouble, hsingle, hback, hslash⟩ := hc
      exact ⟨⟨hdouble, hsingle, hback, fun heq => absurd heq hslash⟩, ih htext⟩

/-- Lexemes are put together and taken apart. -/
theorem lexed_append {p q : List Lexeme} {rest : List Char} :
    Lexed (p ++ q) rest ↔ Lexed p (sourceOf q ++ rest) ∧ Lexed q rest := by
  induction p with
  | nil => simp
  | cons x p ih =>
      rw [List.cons_append, Lexed, Lexed, ih, sourceOf_append, List.append_assoc, and_assoc]

/-! ## What a text starts with -/

namespace Lexeme

variable {x y : Lexeme} {rest text : List Char}

/-- A text that starts with a mark starts with an interpreted literal. -/
theorem exists_quoted (hx : x.EndsBefore rest) {mark : Char} (hmark : mark = '"' ∨ mark = '\'')
    (h : x.text ++ rest = mark :: text) :
    ∃ body, x = .quoted mark body ∧ Escaped mark body ∧ text = body ++ mark :: rest := by
  cases x with
  | quoted mark' body =>
      cases h
      exact ⟨body, rfl, hx.2, by simp⟩
  | code c =>
      cases h
      exact absurd hmark (not_or.2 ⟨hx.1, hx.2.1⟩)
  | raw body | lineComment body | blockComment body =>
      cases h
      exact absurd hmark (by decide)

/-- A text that starts with a backquote starts with a raw string. -/
theorem exists_raw (hx : x.EndsBefore rest) (h : x.text ++ rest = '\x60' :: text) :
    ∃ body, x = .raw body ∧ '\x60' ∉ body ∧ text = body ++ '\x60' :: rest := by
  cases x with
  | raw body =>
      cases h
      exact ⟨body, rfl, hx, by simp⟩
  | code c =>
      cases h
      exact absurd rfl hx.2.2.1
  | quoted mark body =>
      cases h
      exact absurd hx.1 (by decide)
  | lineComment body | blockComment body => cases h

/-- A text that starts with two slashes starts with a line comment. -/
theorem exists_lineComment (hx : x.EndsBefore rest) (h : x.text ++ rest = '/' :: '/' :: text) :
    ∃ body, x = .lineComment body ∧ '\n' ∉ body ∧ (∀ d ∈ rest.head?, d = '\n') ∧
      text = body ++ rest := by
  cases x with
  | lineComment body =>
      cases h
      exact ⟨body, rfl, hx.1, hx.2, rfl⟩
  | code c =>
      cases h
      exact absurd rfl (hx.2.2.2 rfl '/' rfl).1
  | quoted mark body =>
      obtain ⟨rfl, -⟩ := List.cons.inj h
      exact absurd hx.1 (by decide)
  | raw body => cases h
  | blockComment body => simp [Lexeme.text] at h

/-- A text that starts with a slash and a star starts with a block comment. -/
theorem exists_blockComment (hx : x.EndsBefore rest) (h : x.text ++ rest = '/' :: '*' :: text) :
    ∃ body, x = .blockComment body ∧ ¬ ['*', '/'] <:+: body ++ ['*'] ∧
      text = body ++ '*' :: '/' :: rest := by
  cases x with
  | blockComment body =>
      cases h
      exact ⟨body, rfl, hx, by simp⟩
  | code c =>
      cases h
      exact absurd rfl (hx.2.2.2 rfl '*' rfl).2
  | quoted mark body =>
      obtain ⟨rfl, -⟩ := List.cons.inj h
      exact absurd hx.1 (by decide)
  | raw body => cases h
  | lineComment body => simp [Lexeme.text] at h

/-- A text that starts with no literal and no comment starts with a character of the code. -/
theorem eq_code {c : Char} (hy : (Lexeme.code c).EndsBefore text) (hx : x.EndsBefore rest)
    (h : x.text ++ rest = c :: text) : x = .code c := by
  obtain ⟨hdouble, hsingle, hraw, hslash⟩ := hy
  cases x with
  | code d =>
      cases h
      rfl
  | quoted mark body =>
      cases h
      exact absurd hx.1 (not_or.2 ⟨hdouble, hsingle⟩)
  | raw body =>
      cases h
      exact absurd rfl hraw
  | lineComment body =>
      cases h
      exact absurd rfl (hslash rfl '/' rfl).1
  | blockComment body =>
      cases h
      exact absurd rfl (hslash rfl '*' rfl).2

end Lexeme

/-- A line end at the start of a text is a character of the code. -/
theorem Lexed.exists_cons_lineEnd {p : List Lexeme} {rest t : List Char} (h : Lexed p rest)
    (hp : sourceOf p = '\n' :: t) : ∃ q, p = .code '\n' :: q ∧ sourceOf q = t := by
  cases p with
  | nil => cases hp
  | cons x p =>
      cases x with
      | code c =>
          cases hp
          exact ⟨p, rfl, rfl⟩
      | quoted mark body =>
          cases hp
          exact absurd h.1.1 (by decide)
      | raw body | lineComment body | blockComment body => cases hp

/-- A line end at the end of a text is a character of the code. -/
theorem Lexed.exists_concat_lineEnd {p : List Lexeme} {rest t : List Char} (h : Lexed p rest)
    (hp : sourceOf p = t ++ ['\n']) : ∃ q, p = q ++ [.code '\n'] ∧ sourceOf q = t := by
  rcases List.eq_nil_or_concat p with rfl | ⟨q, x, rfl⟩
  · simp at hp
  · rw [List.concat_eq_append] at *
    have hx : x.EndsBefore rest := by simpa [Lexed] using (lexed_append.1 h).2
    have hlast : x.text.getLast? = some '\n' := by
      have hends := congrArg List.getLast? hp
      rwa [sourceOf_append, sourceOf_cons, sourceOf_nil, List.append_nil,
        List.getLast?_append_of_ne_nil _ x.text_ne_nil, List.getLast?_concat] at hends
    cases x with
    | code c =>
        obtain rfl : c = '\n' := by simpa [Lexeme.text] using hlast
        exact ⟨q, rfl, by simpa [Lexeme.text] using hp⟩
    | quoted mark body =>
        obtain rfl : mark = '\n' := by
          simpa [Lexeme.text, List.getLast?_cons] using hlast
        exact absurd hx.1 (by decide)
    | raw body => simp [Lexeme.text, List.getLast?_cons] at hlast
    | lineComment body =>
        have hmem : '\n' ∈ body := by simpa [Lexeme.text] using List.mem_of_getLast? hlast
        exact absurd hmem hx.1
    | blockComment body => simp [Lexeme.text, List.getLast?_cons] at hlast

/-! ## Where a lexeme ends -/

/-- An interpreted literal ends at one place only. -/
theorem Escaped.unique {mark : Char} {a b s t : List Char} (ha : Escaped mark a)
    (hb : Escaped mark b) (hmark : mark ≠ '\\') (h : a ++ mark :: s = b ++ mark :: t) : a = b := by
  induction ha generalizing b with
  | nil =>
      cases hb with
      | nil => rfl
      | char hne _ _ _ => exact absurd (List.cons.inj h).1.symm hne
      | escape c _ => exact absurd (List.cons.inj h).1 hmark
  | char hne hslash hline _ ih =>
      cases hb with
      | nil => exact absurd (List.cons.inj h).1 hne
      | char _ _ _ hb =>
          obtain ⟨rfl, htail⟩ := List.cons.inj h
          rw [ih hb htail]
      | escape c _ => exact absurd (List.cons.inj h).1 hslash
  | escape c _ ih =>
      cases hb with
      | nil => exact absurd (List.cons.inj h).1.symm hmark
      | char _ hslash _ _ => exact absurd (List.cons.inj h).1.symm hslash
      | escape d hb =>
          obtain ⟨rfl, htail⟩ := List.cons.inj (List.cons.inj h).2
          rw [ih hb htail]

/-- Texts without a character before its first occurrence are the same. -/
theorem eq_of_append_cons_eq {c : Char} {a b s t : List Char} (ha : c ∉ a) (hb : c ∉ b)
    (h : a ++ c :: s = b ++ c :: t) : a = b := by
  have hne : ∀ {l : List Char}, c ∉ l → ∀ d ∈ l, (d != c) = true := by
    intro l hl d hd
    simpa using fun heq : d = c => hl (heq ▸ hd)
  have htake := congrArg (List.takeWhile (· != c)) h
  simpa [List.takeWhile_append_of_pos (hne ha), List.takeWhile_append_of_pos (hne hb)] using htake

/-- A line comment ends at one place only. -/
theorem eq_of_lineEnd {a b s t : List Char} (ha : '\n' ∉ a) (hb : '\n' ∉ b)
    (hs : ∀ d ∈ s.head?, d = '\n') (ht : ∀ d ∈ t.head?, d = '\n') (h : a ++ s = b ++ t) : a = b := by
  cases s with
  | nil =>
      cases t with
      | nil => simpa using h
      | cons d t =>
          cases ht d rfl
          exact absurd (h ▸ (by simp : '\n' ∈ b ++ '\n' :: t)) (by simpa using ha)
  | cons c s =>
      cases hs c rfl
      cases t with
      | nil => exact absurd (h ▸ (by simp : '\n' ∈ a ++ '\n' :: s)) (by simpa using hb)
      | cons d t =>
          cases ht d rfl
          exact eq_of_append_cons_eq ha hb h

/-- A block comment ends at one place only. -/
theorem eq_of_commentEnd {a b s t : List Char} (ha : ¬ ['*', '/'] <:+: a ++ ['*'])
    (hb : ¬ ['*', '/'] <:+: b ++ ['*']) (h : a ++ '*' :: '/' :: s = b ++ '*' :: '/' :: t) :
    a = b := by
  -- The shorter of the two would end inside the longer one.
  have hle : ∀ {a b s t : List Char}, ¬ ['*', '/'] <:+: b ++ ['*'] →
      a ++ '*' :: '/' :: s = b ++ '*' :: '/' :: t → b.length ≤ a.length := by
    intro a b s t hb h
    by_contra hlt
    refine hb ?_
    have hleft : a ++ ['*', '/'] <+: b ++ '*' :: '/' :: t := ⟨s, by simpa using h⟩
    have hright : b ++ ['*'] <+: b ++ '*' :: '/' :: t := ⟨'/' :: t, by simp⟩
    have hprefix : a ++ ['*', '/'] <+: b ++ ['*'] := by
      refine List.prefix_of_prefix_length_le hleft hright ?_
      simp only [List.length_append, List.length_cons, List.length_nil]
      omega
    exact (List.suffix_append _ _).isInfix.trans hprefix.isInfix
  have hlength := Nat.le_antisymm (hle ha h.symm) (hle hb h)
  exact (List.append_inj h hlength).1

/-- A text starts with one lexeme only. -/
theorem Lexeme.unique {x y : Lexeme} {s t : List Char} (hx : x.EndsBefore s) (hy : y.EndsBefore t)
    (h : x.text ++ s = y.text ++ t) : x = y := by
  cases y with
  | code c => exact eq_code hy hx h
  | quoted mark body =>
      obtain ⟨hmark, hbody⟩ := hy
      obtain ⟨body', rfl, hbody', heq⟩ := exists_quoted hx hmark h
      have hslash : mark ≠ '\\' := by rcases hmark with rfl | rfl <;> decide
      rw [hbody.unique hbody' hslash (by simpa using heq)]
  | raw body =>
      obtain ⟨body', rfl, hbody', heq⟩ := exists_raw hx h
      rw [eq_of_append_cons_eq hy hbody' (by simpa using heq)]
  | lineComment body =>
      obtain ⟨body', rfl, hbody', hend, heq⟩ := exists_lineComment hx h
      rw [eq_of_lineEnd hy.1 hbody' hy.2 hend heq]
  | blockComment body =>
      obtain ⟨body', rfl, hbody', heq⟩ := exists_blockComment hx h
      rw [eq_of_commentEnd hy hbody' (by simpa using heq)]

/-- A text is cut in one way only. -/
theorem Lexed.unique {p q : List Lexeme} (hp : Lexed p []) (hq : Lexed q [])
    (h : sourceOf p = sourceOf q) : p = q := by
  induction p generalizing q with
  | nil =>
      cases q with
      | nil => rfl
      | cons y q => exact absurd (List.append_eq_nil_iff.1 h.symm).1 y.text_ne_nil
  | cons x p ih =>
      cases q with
      | nil => exact absurd (List.append_eq_nil_iff.1 h).1 x.text_ne_nil
      | cons y q =>
          rw [Lexed, List.append_nil] at hp hq
          obtain rfl := Lexeme.unique hp.1 hq.1 h
          rw [ih hp.2 hq.2 (List.append_cancel_left h)]

end Program
end Stackwright
