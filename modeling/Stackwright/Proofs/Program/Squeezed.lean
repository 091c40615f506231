import Mathlib
import Stackwright.Proofs.Program.Lexemes
import Stackwright.Proofs.Program.Thinned

/-!
# Texts with fewer blanks in front of line ends

The passes over white space drop blanks in front of line ends, and a line end is a blank
itself.  Lexemes that are not raw strings bear that: a literal has no blank in front of a
line end, so it stays as it is, and a comment stays a comment.

Main results:

- Theorem `Thinned.squeezed`: thinned lines make such a text.
- Theorem `Lexed.squeezed`: it consists of the same lexemes, but for white space and
  comments.
-/

namespace Stackwright
namespace Program

/-- A text without some of the blanks in front of line ends. -/
inductive Squeezed : List Char → List Char → Prop
  | nil : Squeezed [] []
  | keep (c : Char) {s t : List Char} (h : Squeezed s t) : Squeezed (c :: s) (c :: t)
  | drop {c : Char} {s t : List Char} (hc : Text.isBlank c = true) (h : Squeezed s ('\n' :: t)) :
      Squeezed (c :: s) ('\n' :: t)

namespace Squeezed

variable {a b c s t : List Char}

theorem refl (s : List Char) : Squeezed s s := by
  induction s with
  | nil => exact nil
  | cons c s ih => exact keep c ih

theorem append (h : Squeezed a b) (h' : Squeezed s t) : Squeezed (a ++ s) (b ++ t) := by
  induction h with
  | nil => exact h'
  | keep c _ ih => exact keep c ih
  | drop hc _ ih => exact drop hc ih

/-- Blanks in front of a line end. -/
theorem blanks {w : List Char} (hw : ∀ x ∈ w, Text.isBlank x = true) (h : Squeezed s ('\n' :: t)) :
    Squeezed (w ++ s) ('\n' :: t) := by
  induction w with
  | nil => exact h
  | cons c w ih =>
      rw [List.forall_mem_cons] at hw
      exact drop hw.1 (ih hw.2)

theorem subset (h : Squeezed s t) : t ⊆ s := by
  induction h with
  | nil => exact List.Subset.refl _
  | keep c _ ih => exact List.cons_subset_cons c ih
  | drop _ _ ih => exact List.Subset.trans ih (List.subset_cons_self _ _)

/-- A squeezed text starts like the text, or with a line end. -/
theorem head? (h : Squeezed s t) {u v : List Char}
    (hnext : ∀ d ∈ v.head?, d ∈ u.head? ∨ d = '\n') :
    ∀ d ∈ (t ++ v).head?, d ∈ (s ++ u).head? ∨ d = '\n' := by
  cases h with
  | nil => exact hnext
  | keep c _ => exact fun d hd => .inl hd
  | drop _ _ =>
      rintro d ⟨⟩
      exact .inr rfl

/-- A character that is no blank stays. -/
theorem exists_cons {x : Char} (h : Squeezed (x :: s) t) (hx : Text.isBlank x = false) :
    ∃ t', t = x :: t' ∧ Squeezed s t' := by
  cases h with
  | keep _ h => exact ⟨_, rfl, h⟩
  | drop hc _ =>
      rw [hx] at hc
      cases hc

end Squeezed

/-- Thinned lines make a squeezed text behind a line end. -/
theorem Thinned.squeezed {a b : List (List Char)} (h : Thinned a b) (s : List Char) :
    Squeezed ('\n' :: (unlines a ++ s)) ('\n' :: (unlines b ++ s)) := by
  have hnewline : Text.isBlank '\n' = true := by decide
  induction h with
  | nil => exact .refl _
  | @line line w a b hw _ ih =>
      have hline := Squeezed.append (.refl ('\n' :: line)) (ih.blanks hw)
      simpa [unlines_cons] using hline
  | @blank w a b hw _ ih =>
      have hline := Squeezed.drop hnewline (ih.blanks hw)
      simpa [unlines_cons] using hline

/-! ## Squeezed lexemes -/

/-- The literals among lexemes. -/
def literals (pieces : List Lexeme) : List Lexeme :=
  pieces.filter Lexeme.isLiteral

/-- Whether a lexeme is a raw string. -/
def Lexeme.isRaw : Lexeme → Bool
  | .raw _ => true
  | _ => false

/-- No line end stands at the start of the inside of an interpreted literal. -/
theorem Escaped.head?_ne {mark : Char} {body s : List Char} (h : Escaped mark body)
    (hmark : Text.isBlank mark = false) : (body ++ mark :: s).head? ≠ some '\n' := by
  cases h with
  | nil =>
      rintro ⟨⟩
      cases hmark
  | char hne hslash hline _ => simpa using hline
  | escape c _ => simp

/-- The inside of an interpreted literal stays. -/
theorem Escaped.squeezed {mark : Char} {body s t : List Char} (hbody : Escaped mark body)
    (hmark : Text.isBlank mark = false) (h : Squeezed (body ++ mark :: s) t) :
    ∃ t', t = body ++ mark :: t' ∧ Squeezed s t' := by
  -- A character could only go in front of a line end, and there is none.
  have hstays : ∀ {c : Char} {body t : List Char}, Escaped mark body →
      (∀ {u}, Squeezed (body ++ mark :: s) u → ∃ t', u = body ++ mark :: t' ∧ Squeezed s t') →
      Squeezed (c :: (body ++ mark :: s)) t →
        ∃ t', t = c :: (body ++ mark :: t') ∧ Squeezed s t' := by
    intro c body t hbody ih h
    cases h with
    | keep _ hrest =>
        obtain ⟨t', rfl, hs⟩ := ih hrest
        exact ⟨t', rfl, hs⟩
    | drop _ hrest =>
        obtain ⟨t', heq, -⟩ := ih hrest
        exact absurd (congrArg List.head? heq).symm (hbody.head?_ne hmark)
  induction hbody generalizing t with
  | nil => exact h.exists_cons hmark
  | char _ _ _ hbody ih => exact hstays hbody ih h
  | escape c hbody ih =>
      obtain ⟨u, rfl, hrest⟩ := h.exists_cons (by decide)
      obtain ⟨t', rfl, hs⟩ := hstays hbody ih hrest
      exact ⟨t', rfl, hs⟩

/-- The inside of a line comment loses blanks at its end. -/
theorem Squeezed.exists_line {body s t : List Char} (h : Squeezed (body ++ s) t)
    (hbody : '\n' ∉ body) : ∃ body' t', t = body' ++ t' ∧ '\n' ∉ body' ∧ Squeezed s t' := by
  induction body generalizing t with
  | nil => exact ⟨[], t, rfl, List.not_mem_nil, h⟩
  | cons c body ih =>
      rw [List.mem_cons, not_or] at hbody
      cases h with
      | keep _ hrest =>
          obtain ⟨body', t', rfl, hbody', hs⟩ := ih hrest hbody.2
          exact ⟨c :: body', t', rfl, by simp [hbody.1, hbody'], hs⟩
      | drop _ hrest => exact ih hrest hbody.2

/-- A block comment stays a block comment. -/
theorem Squeezed.exists_blockComment {body s t : List Char}
    (h : Squeezed (body ++ '*' :: '/' :: s) t) (hbody : ¬ ['*', '/'] <:+: body ++ ['*']) :
    ∃ body' t', t = body' ++ '*' :: '/' :: t' ∧ ¬ ['*', '/'] <:+: body' ++ ['*'] ∧ Squeezed s t' := by
  induction body generalizing t with
  | nil =>
      obtain ⟨u, rfl, hslash⟩ := h.exists_cons (by decide)
      obtain ⟨t', rfl, hs⟩ := hslash.exists_cons (by decide)
      exact ⟨[], t', rfl, hbody, hs⟩
  | cons c body ih =>
      rw [List.cons_append, List.infix_cons_iff, not_or] at hbody
      cases h with
      | drop _ hrest => exact ih hrest hbody.2
      | keep _ hrest =>
          obtain ⟨body', t', rfl, hbody', hs⟩ := ih hrest hbody.2
          refine ⟨c :: body', t', rfl, fun hin => ?_, hs⟩
          rcases List.infix_cons_iff.1 hin with hprefix | hin
          · -- The slash behind a star has stood there before.
            obtain ⟨rfl, back, hback : '/' :: back = body' ++ ['*']⟩ :=
              List.cons_prefix_cons.1 hprefix
            have hslash : '/' ∈ (body ++ '*' :: '/' :: s).head? := by
              have hhead := hrest.head? (u := []) (v := []) (by simp) '/'
              rw [List.append_nil, List.append_nil, List.append_cons, ← hback] at hhead
              exact (hhead rfl).resolve_right (by decide)
            refine absurd (List.cons_prefix_cons.2 ⟨rfl, ?_⟩) hbody.1
            cases body with
            | nil => cases hslash
            | cons d body =>
                cases hslash
                exact ⟨body ++ ['*'], rfl⟩
          · exact hbody' hin

/-- A squeezed text consists of the same lexemes, but for white space and comments. -/
theorem Lexed.squeezed {p : List Lexeme} {rest r t : List Char} (hp : Lexed p rest)
    (hraw : ∀ x ∈ p, x.isRaw = false) (h : Squeezed (sourceOf p) t)
    (hrest : ∀ d ∈ r.head?, d ∈ rest.head? ∨ d = '\n') :
    ∃ p', sourceOf p' = t ∧ Lexed p' r ∧ literals p' = literals p := by
  induction p generalizing t with
  | nil =>
      cases h
      exact ⟨[], rfl, lexed_nil _, rfl⟩
  | cons x p ih =>
      obtain ⟨hx, hp⟩ := hp
      rw [List.forall_mem_cons] at hraw
      rw [sourceOf_cons] at h
      cases x with
      | code c =>
          cases h with
          | drop _ hs =>
              obtain ⟨p', hsource, hp', hliterals⟩ := ih hp hraw.2 hs
              exact ⟨p', hsource, hp', hliterals⟩
          | keep _ hs =>
              obtain ⟨p', rfl, hp', hliterals⟩ := ih hp hraw.2 hs
              exact ⟨.code c :: p', rfl, ⟨hx.mono (hs.head? hrest), hp'⟩, hliterals⟩
      | quoted mark body =>
          obtain ⟨hmark, hbody⟩ := hx
          have hblank : Text.isBlank mark = false := by rcases hmark with rfl | rfl <;> decide
          have hcut : (Lexeme.quoted mark body).text ++ sourceOf p
              = mark :: (body ++ mark :: sourceOf p) := by
            simp [Lexeme.text]
          rw [hcut] at h
          obtain ⟨u, rfl, hu⟩ := h.exists_cons hblank
          obtain ⟨v, rfl, hs⟩ := hbody.squeezed hblank hu
          obtain ⟨p', rfl, hp', hliterals⟩ := ih hp hraw.2 hs
          refine ⟨.quoted mark body :: p', by simp [Lexeme.text], ⟨⟨hmark, hbody⟩, hp'⟩, ?_⟩
          exact congrArg (Lexeme.quoted mark body :: ·) hliterals
      | raw body => cases hraw.1
      | lineComment body =>
          obtain ⟨hbody, hend⟩ := hx
          obtain ⟨u, rfl, hu⟩ := h.exists_cons (by decide)
          obtain ⟨v, rfl, hv⟩ := hu.exists_cons (by decide)
          obtain ⟨body', w, rfl, hbody', hs⟩ := hv.exists_line hbody
          obtain ⟨p', rfl, hp', hliterals⟩ := ih hp hraw.2 hs
          have hends : (Lexeme.lineComment body').EndsBefore (sourceOf p ++ rest) := ⟨hbody', hend⟩
          exact ⟨.lineComment body' :: p', rfl, ⟨hends.mono (hs.head? hrest), hp'⟩, hliterals⟩
      | blockComment body =>
          have hcut : (Lexeme.blockComment body).text ++ sourceOf p
              = '/' :: '*' :: (body ++ '*' :: '/' :: sourceOf p) := by
            simp [Lexeme.text]
          rw [hcut] at h
          obtain ⟨u, rfl, hu⟩ := h.exists_cons (by decide)
          obtain ⟨v, rfl, hv⟩ := hu.exists_cons (by decide)
          obtain ⟨body', w, rfl, hbody', hs⟩ := hv.exists_blockComment hx
          obtain ⟨p', rfl, hp', hliterals⟩ := ih hp hraw.2 hs
          exact ⟨.blockComment body' :: p', by simp [Lexeme.text], ⟨hbody', hp'⟩, hliterals⟩

end Program
end Stackwright
