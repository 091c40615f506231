import Stackwright.ShellWords

/-!
# How command lines are written

A word of a command line is written in pieces, one after the other: characters as they
are, characters behind a backslash, and text in single or double quotes.  Words stand
apart by blanks.  A line that is written in this way is cut back into its words,
whatever the pieces are.  Between two pieces nothing is pending, neither a quote nor a
backslash, and a piece only adds to the word under way; so pieces are read one by one
(`foldl_step_text`), and a blank ends a word exactly when one is under way.

Main results:

- Theorem `Piece.foldl_step_text`: a piece adds the characters that it stands for.
- Theorem `Word.foldl_step_text`: so does a word, and there is a word afterwards.
- Theorem `splitString_written`: a written line is cut into its words.
-/

namespace Stackwright
namespace ShellWords

/-! ## Written words -/

/-- A character in double quotes. -/
inductive Enclosed where
  | plain (c : Char) (ne_backslash : c ≠ '\\') (ne_quote : c ≠ '"')
  | escaped (c : Char)

/-- The characters that are written for a character in double quotes. -/
def Enclosed.text : Enclosed → List Char
  | .plain c _ _ => [c]
  | .escaped c => ['\\', c]

/-- The character that is meant. -/
def Enclosed.value : Enclosed → Char
  | .plain c _ _ => c
  | .escaped c => c

/-- Whether a character means itself outside quotes. -/
def isBare (c : Char) : Bool :=
  !Text.isBlank c && c != '\'' && c != '"' && c != '\\'

/-- A piece of a word. -/
inductive Piece where
  | bare (c : Char) (unmarked : isBare c = true)
  | escaped (c : Char)
  | single (run : List Char) (quote_notMem : '\'' ∉ run)
  | double (run : List Enclosed)

/-- The characters that are written for a piece. -/
def Piece.text : Piece → List Char
  | .bare c _ => [c]
  | .escaped c => ['\\', c]
  | .single run _ => '\'' :: run ++ ['\'']
  | .double run => '"' :: run.flatMap Enclosed.text ++ ['"']

/-- The characters that a piece stands for. -/
def Piece.value : Piece → List Char
  | .bare c _ => [c]
  | .escaped c => [c]
  | .single run _ => run
  | .double run => run.map Enclosed.value

/-- A word as it is written: at least one piece, although all pieces may be empty quotes. -/
structure Word where
  pieces : List Piece
  ne_nil : pieces ≠ []

def Word.text (w : Word) : List Char :=
  w.pieces.flatMap Piece.text

def Word.value (w : Word) : List Char :=
  w.pieces.flatMap Piece.value

/-- Blanks between words. -/
structure Gap where
  chars : List Char
  isBlank : ∀ c ∈ chars, Text.isBlank c = true

/-- A command line as it is written: words with the gaps in front of them, and a gap at the end.
Only the first word may stand without a gap in front of it. -/
structure Line where
  words : List (Gap × Word)
  trail : Gap
  apart : ∀ w ∈ words.tail, w.1.chars ≠ []

/-- The characters of a word with the gap in front of it. -/
def spacedText (w : Gap × Word) : List Char :=
  w.1.chars ++ w.2.text

def Line.text (line : Line) : List Char :=
  line.words.flatMap spacedText ++ line.trail.chars

/-! ## Reading the pieces of a word -/

/-- A state between two pieces: no quote is open, no backslash is pending, and there are no
characters if there is no word. -/
structure State.IsOpen (s : State) : Prop where
  quote : s.quote = none
  escaped : s.escaped = false
  idle : s.inWord = false → s.current = []

/-- A state between two characters in quotes. -/
structure State.IsQuoted (mark : Char) (s : State) : Prop where
  quote : s.quote = some mark
  escaped : s.escaped = false
  inWord : s.inWord = true

/-- Adds characters to the word under way. -/
def State.take (s : State) (value : List Char) : State :=
  { s with current := value.reverse ++ s.current, inWord := true }

/-- Characters may be taken at once or one part after the other. -/
theorem State.take_take (s : State) (a b : List Char) : (s.take a).take b = s.take (a ++ b) := by
  simp [State.take]

variable {s : State}

theorem State.IsOpen.take (h : s.IsOpen) (value : List Char) : (s.take value).IsOpen :=
  ⟨h.quote, h.escaped, fun hidle => absurd hidle (by simp [State.take])⟩

theorem State.IsQuoted.take {mark : Char} (h : s.IsQuoted mark) (value : List Char) :
    (s.take value).IsQuoted mark :=
  ⟨h.quote, h.escaped, rfl⟩

/-- Nothing is added to a word that is under way. -/
theorem State.IsQuoted.take_nil {mark : Char} (h : s.IsQuoted mark) : s.take [] = s := by
  rw [State.take, List.reverse_nil, List.nil_append, ← h.inWord]

/-- Outside single quotes a backslash keeps the character behind it. -/
theorem foldl_step_escape (hescaped : s.escaped = false)
    (hquote : s.quote = none ∨ s.quote = some '"') (c : Char) :
    ['\\', c].foldl State.step s = s.take [c] := by
  have hbackslash : s.step '\\' = { s with escaped := true } := by
    rcases hquote with hquote | hquote
    · simp [State.step, hescaped, hquote]
    · simp [State.step, hescaped, hquote]
  rw [List.foldl_cons, hbackslash, List.foldl_cons, List.foldl_nil, State.step, if_pos rfl,
    State.keep, State.take, ← hescaped]
  rfl

/-- In quotes, a character other than the mark is added, if it is no backslash in double
quotes. -/
theorem State.IsQuoted.step {mark c : Char} (h : s.IsQuoted mark) (hmark : c ≠ mark)
    (hbackslash : c = '\\' → mark = '\'') : s.step c = s.take [c] := by
  obtain ⟨words, current, inWord, quote, escaped⟩ := s
  obtain ⟨rfl, rfl, rfl⟩ := h
  have hopen : ¬ some mark = some c := fun heq => hmark (Option.some.inj heq).symm
  have hkeeps : ¬ (c = '\\' && some mark != some '\'') = true := by
    intro hand
    simp only [Bool.and_eq_true, decide_eq_true_eq, bne_iff_ne] at hand
    exact hand.2 (by rw [hbackslash hand.1])
  rw [State.step, if_neg Bool.false_ne_true, if_neg hopen, if_neg hkeeps]
  rfl

/-- In single quotes every character up to the next quote is added. -/
theorem State.IsQuoted.foldl_step_single {run : List Char} (h : s.IsQuoted '\'')
    (hrun : '\'' ∉ run) : run.foldl State.step s = s.take run := by
  induction run generalizing s with
  | nil => exact h.take_nil.symm
  | cons c run ih =>
      rw [List.mem_cons, not_or] at hrun
      have hstep : s.step c = s.take [c] :=
        h.step (fun heq => hrun.1 heq.symm) fun _ => rfl
      rw [List.foldl_cons, hstep, ih (h.take [c]) hrun.2, State.take_take, List.singleton_append]

/-- In double quotes every character that is written is added. -/
theorem State.IsQuoted.foldl_step_enclosed (h : s.IsQuoted '"') (e : Enclosed) :
    e.text.foldl State.step s = s.take [e.value] := by
  cases e with
  | plain c ne_backslash ne_quote =>
      exact h.step ne_quote fun heq => absurd heq ne_backslash
  | escaped c => exact foldl_step_escape h.escaped (.inr h.quote) c

/-- Between double quotes a run of characters is taken as what it stands for. -/
theorem State.IsQuoted.foldl_step_double (h : s.IsQuoted '"') (run : List Enclosed) :
    (run.flatMap Enclosed.text).foldl State.step s = s.take (run.map Enclosed.value) := by
  induction run generalizing s with
  | nil => exact h.take_nil.symm
  | cons e run ih =>
      rw [List.flatMap_cons, List.foldl_append, h.foldl_step_enclosed, ih (h.take _),
        State.take_take, List.singleton_append, List.map_cons]

/-- Quotes around a text add what the text adds, and start a word if there is none. -/
theorem State.IsOpen.foldl_step_quotes (h : s.IsOpen) {mark : Char} {text value : List Char}
    (hmark : mark = '\'' ∨ mark = '"')
    (htext : ∀ s : State, s.IsQuoted mark → text.foldl State.step s = s.take value) :
    (mark :: text ++ [mark]).foldl State.step s = s.take value := by
  obtain ⟨words, current, inWord, quote, escaped⟩ := s
  obtain ⟨rfl, rfl, -⟩ := h
  have hopen : State.step ⟨words, current, inWord, none, false⟩ mark
      = ⟨words, current, true, some mark, false⟩ := by
    rcases hmark with rfl | rfl
    · rfl
    · rfl
  have hquoted : State.IsQuoted mark ⟨words, current, true, some mark, false⟩ := ⟨rfl, rfl, rfl⟩
  rw [List.cons_append, List.foldl_cons, hopen, List.foldl_append, htext _ hquoted]
  simp [State.step, State.take]

/-- A piece adds the characters that it stands for. -/
theorem Piece.foldl_step_text (h : s.IsOpen) (p : Piece) :
    p.text.foldl State.step s = s.take p.value := by
  cases p with
  | bare c unmarked =>
      simp only [isBare, Bool.and_eq_true, Bool.not_eq_true', bne_iff_ne] at unmarked
      obtain ⟨⟨⟨hblank, hsingle⟩, hdouble⟩, hbackslash⟩ := unmarked
      have hstep : s.step c = s.keep c := by
        simp [State.step, h.quote, h.escaped, hblank, hsingle, hdouble, hbackslash]
      rw [Piece.text, List.foldl_cons, List.foldl_nil, hstep, State.keep, State.take, ← h.escaped]
      rfl
  | escaped c => exact foldl_step_escape h.escaped (.inl h.quote) c
  | single run quote_notMem =>
      exact h.foldl_step_quotes (.inl rfl) fun _ hs => hs.foldl_step_single quote_notMem
  | double run =>
      exact h.foldl_step_quotes (.inr rfl) fun _ hs => hs.foldl_step_double run

/-- Pieces add the characters that they stand for, and start a word even if there are none. -/
theorem foldl_step_pieces {pieces : List Piece} (h : s.IsOpen) (hne : pieces ≠ []) :
    (pieces.flatMap Piece.text).foldl State.step s = s.take (pieces.flatMap Piece.value) := by
  induction pieces generalizing s with
  | nil => exact absurd rfl hne
  | cons p pieces ih =>
      rw [List.flatMap_cons, List.foldl_append, p.foldl_step_text h, List.flatMap_cons]
      by_cases hlast : pieces = []
      · rw [hlast, List.flatMap_nil, List.flatMap_nil, List.foldl_nil, List.append_nil]
      · rw [ih (h.take p.value) hlast, State.take_take]

/-- A written word is taken as its value. -/
theorem Word.foldl_step_text (h : s.IsOpen) (w : Word) :
    w.text.foldl State.step s = s.take w.value :=
  foldl_step_pieces h w.ne_nil

/-! ## Reading the words of a line -/

theorem State.isOpen_start : State.IsOpen {} :=
  ⟨rfl, rfl, fun _ => rfl⟩

theorem State.IsOpen.finish (h : s.IsOpen) : s.finish.IsOpen := by
  unfold State.finish
  split
  · exact ⟨h.quote, h.escaped, fun _ => rfl⟩
  · exact h

/-- Outside a word there is nothing to finish. -/
theorem State.finish_of_idle (h : s.inWord = false) : s.finish = s := by
  rw [State.finish, h, if_neg Bool.false_ne_true]

theorem State.inWord_finish (s : State) : s.finish.inWord = false := by
  unfold State.finish
  split
  · rfl
  · rename_i hidle
    simpa using hidle

/-- A word that is taken up after another one has ended is a word of its own. -/
theorem State.IsOpen.words_finish_take (h : s.IsOpen) (value : List Char) :
    (s.finish.take value).finish.words = value :: s.finish.words := by
  have hempty : s.finish.current = [] := h.finish.idle s.inWord_finish
  rw [State.take, hempty, List.append_nil, State.finish, if_pos rfl, List.reverse_reverse]

/-- A blank ends the word under way. -/
theorem State.IsOpen.step_blank (h : s.IsOpen) {c : Char} (hblank : Text.isBlank c = true) :
    s.step c = s.finish := by
  have hne : ∀ d, Text.isBlank d = false → c ≠ d := by
    intro d hd heq
    rw [heq, hd] at hblank
    exact Bool.false_ne_true hblank
  have hbackslash : c ≠ '\\' := hne _ (by decide)
  have hsingle : c ≠ '\'' := hne _ (by decide)
  have hdouble : c ≠ '"' := hne _ (by decide)
  simp [State.step, h.quote, h.escaped, hbackslash, hsingle, hdouble, hblank]

/-- Blanks end the word under way. -/
theorem State.IsOpen.foldl_step_gap (h : s.IsOpen) (gap : Gap) (hne : gap.chars ≠ []) :
    gap.chars.foldl State.step s = s.finish := by
  obtain ⟨blanks, isBlank⟩ := gap
  induction blanks generalizing s with
  | nil => exact absurd rfl hne
  | cons c blanks ih =>
      obtain ⟨hc, hblanks⟩ := List.forall_mem_cons.1 isBlank
      rw [List.foldl_cons, h.step_blank hc]
      cases blanks with
      | nil => rfl
      | cons d blanks =>
          rw [ih h.finish hblanks (List.cons_ne_nil d blanks), State.finish_of_idle s.inWord_finish]

/-- A gap ends no word but the one under way. -/
theorem State.IsOpen.finish_foldl_gap (h : s.IsOpen) (gap : Gap) :
    (gap.chars.foldl State.step s).finish = s.finish := by
  by_cases hne : gap.chars = []
  · rw [hne, List.foldl_nil]
  · rw [h.foldl_step_gap gap hne, State.finish_of_idle s.inWord_finish]

/-- A word behind a gap is taken up after the word before it has ended; without a gap, there
must be none. -/
theorem foldl_step_spaced (h : s.IsOpen) (w : Gap × Word)
    (hgap : w.1.chars = [] → s.inWord = false) :
    (spacedText w).foldl State.step s = s.finish.take w.2.value := by
  rw [spacedText, List.foldl_append]
  by_cases hne : w.1.chars = []
  · rw [hne, List.foldl_nil, w.2.foldl_step_text h, State.finish_of_idle (hgap hne)]
  · rw [h.foldl_step_gap w.1 hne, w.2.foldl_step_text h.finish]

/-- Words end the word before them and are added in their order.  Only in front of the first one
the gap may be missing, if no word is under way. -/
theorem foldl_step_words (h : s.IsOpen) {words : List (Gap × Word)}
    (hfirst : ∀ w ∈ words.head?, w.1.chars = [] → s.inWord = false)
    (apart : ∀ w ∈ words.tail, w.1.chars ≠ []) :
    ((words.flatMap spacedText).foldl State.step s).IsOpen ∧
      ((words.flatMap spacedText).foldl State.step s).finish.words
        = (words.map fun w => w.2.value).reverse ++ s.finish.words := by
  induction words generalizing s with
  | nil => exact ⟨h, rfl⟩
  | cons w words ih =>
      have hgaps : ∀ v ∈ words, v.1.chars ≠ [] := apart
      have hrest := ih (h.finish.take w.2.value)
        (fun v hv hnil => absurd hnil (hgaps v (List.mem_of_mem_head? hv)))
        (fun v hv => hgaps v (List.mem_of_mem_tail hv))
      rw [List.flatMap_cons, List.foldl_append, foldl_step_spaced h w (hfirst w rfl)]
      refine ⟨hrest.1, ?_⟩
      rw [hrest.2, h.words_finish_take, List.map_cons, List.reverse_cons, List.append_assoc,
        List.singleton_append]

/-- A written line is cut into its words. -/
theorem splitString_written (line : Line) :
    splitString (String.ofList line.text)
      = line.words.map fun w => String.ofList w.2.value := by
  obtain ⟨words, trail, apart⟩ := line
  have hstart : ∀ w ∈ words.head?, w.1.chars = [] → State.inWord {} = false := fun _ _ _ => rfl
  obtain ⟨hopen, hwords⟩ := foldl_step_words State.isOpen_start hstart apart
  have hlast : (State.finish {}).words = [] := rfl
  rw [splitString, split, String.toList_ofList, Line.text, List.foldl_append,
    hopen.finish_foldl_gap trail, hwords, hlast, List.append_nil, List.reverse_reverse, List.map_map]
  rfl

/-- Quotes may stand for an empty word, and pieces of all kinds for one word. -/
example : splitString " sh -c 'a b'\\ \"\\\"c'\"  '' "
    = ["sh", "-c", "a b \"c'", ""] := by
  decide

end ShellWords
end Stackwright
