import Mathlib
import Stackwright.Proofs.Outcome
import Stackwright.Proofs.Program.Thinned

/-!
# Reading a text again

Two readings of code go alike if they stand at the same place, whatever lines and
brackets come before.  So a text is read alike where it is put, and a text with fewer
blanks is read alike up to blanks.

A blank line may only be left out because no literal is open in front of it, or the
literal may run over lines.  An interpreted literal goes on with the next line if its line
end is escaped; then a blank line would end the text.

Main results:

- Theorem `Scan.Over.run`: readings at the same place read a text alike.
- Theorem `Scan.Over.run_thinned`: a text with fewer blanks has code with the same lines
  with text.
-/

namespace Stackwright
namespace Program

/-! ## Readings side by side -/

/-- Regions that differ at most in the line on which they start. -/
inductive Region.Same : Region → Region → Prop
  | code : Same .code .code
  | slash : Same .slash .slash
  | quoted {mark : Char} (h : Text.isBlank mark = false) : Same (.quoted mark) (.quoted mark)
  | escaped {mark : Char} (h : Text.isBlank mark = false) : Same (.escaped mark) (.escaped mark)
  | raw (m n : Nat) : Same (.raw m) (.raw n)
  | lineComment : Same .lineComment .lineComment
  | blockComment (m n : Nat) (star : Bool) : Same (.blockComment m star) (.blockComment n star)

namespace Scan

/-- A reading that has come to another one and has written `code` on the way. -/
structure Wrote (s t : Scan) (code : List Char) : Prop where
  blanked : t.blanked = code.reverse ++ s.blanked
  line : t.line = s.line + code.count '\n'

/-- Two readings at the same place of a text, the second of which has more open brackets below
those of the first. -/
structure Over (base : List (Char × Nat)) (s t : Scan) : Prop where
  region : s.region.Same t.region
  brackets : ∃ own, t.brackets = own ++ base ∧ own.map Prod.fst = s.brackets.map Prod.fst

variable {s t u s' t' : Scan} {a b : List Char} {base : List (Char × Nat)}

theorem Wrote.nil (s : Scan) : s.Wrote s [] :=
  ⟨rfl, rfl⟩

/-- What is written in two steps is written together. -/
theorem Wrote.append (h : s.Wrote t a) (h' : t.Wrote u b) : s.Wrote u (a ++ b) where
  blanked := by rw [h'.blanked, h.blanked, List.reverse_append, List.append_assoc]
  line := by rw [h'.line, h.line, List.count_append, Nat.add_assoc]

/-- A scan knows what was written. -/
theorem Wrote.unique (h : s.Wrote t a) (h' : s.Wrote t b) : a = b := by
  have heq := h.blanked.symm.trans h'.blanked
  rwa [List.append_cancel_right_eq, List.reverse_inj] at heq

theorem Wrote.put {c : Char} (hc : c ≠ '\n') (r : Region) : s.Wrote (s.put c r) [c] :=
  ⟨rfl, by simp [Scan.put, hc]⟩

theorem Wrote.putLineEnd (r : Region) : s.Wrote (s.putLineEnd r) ['\n'] :=
  ⟨rfl, rfl⟩

/-- What a step does from one place, it does from the other, and it writes the same. -/
def StepsAlike (base : List (Char × Nat)) (s t s' : Scan) (c : Char)
    (result : Except FormatFault Scan) : Prop :=
  ∃ t' code, result = .ok t' ∧ s'.Over base t' ∧ s.Wrote s' code ∧ t.Wrote t' code ∧
    ∀ d ∈ code, d = ' ' ∨ d = '/' ∨ d = c

/-- A character that is put into both scans is a step of both. -/
theorem Over.stepsAlike_put (h : s.Over base t) {r r' : Region} (hregion : r.Same r') {c d : Char}
    (hd : d = ' ' ∨ d = c) (hline : d ≠ '\n') :
    StepsAlike base s t (s.put d r) c (.ok (t.put d r')) :=
  ⟨_, [d], rfl, ⟨hregion, h.brackets⟩, .put hline r, .put hline r', by simpa using hd.imp_right .inr⟩

/-- A line end is a step of both scans. -/
theorem Over.stepsAlike_putLineEnd (h : s.Over base t) {r r' : Region} (hregion : r.Same r') :
    StepsAlike base s t (s.putLineEnd r) '\n' (.ok (t.putLineEnd r')) :=
  ⟨_, ['\n'], rfl, ⟨hregion, h.brackets⟩, .putLineEnd r, .putLineEnd r', by simp⟩

/-- A character within a span is a step of both scans. -/
theorem Over.stepsAlike_spanStep (h : s.Over base t) {r r' : Region} (hregion : r.Same r')
    (c : Char) : StepsAlike base s t (s.spanStep c r) c (.ok (t.spanStep c r')) := by
  rw [Scan.spanStep, Scan.spanStep]
  split
  · rename_i hline
    rw [hline]
    exact h.stepsAlike_putLineEnd hregion
  · exact h.stepsAlike_put hregion (.inl rfl) (by decide)

/-- A character of code is a step of both scans. -/
theorem Over.stepsAlike_codeStep (h : s.Over base t) {c : Char} (hstep : s.codeStep c = .ok s') :
    StepsAlike base s t s' c (t.codeStep c) := by
  unfold Scan.codeStep at hstep ⊢
  obtain ⟨own, hown, hmap⟩ := h.brackets
  split_ifs at hstep ⊢ with hquote hraw hslash hopen hclose hline
  · cases hstep
    have hmark : Text.isBlank c = false := by
      simp only [Bool.or_eq_true, decide_eq_true_eq] at hquote
      rcases hquote with rfl | rfl <;> decide
    exact h.stepsAlike_put (.quoted hmark) (.inl rfl) (by decide)
  · cases hstep
    exact h.stepsAlike_put (.raw _ _) (.inl rfl) (by decide)
  · cases hstep
    exact ⟨_, [], rfl, ⟨.slash, h.brackets⟩, ⟨rfl, rfl⟩, ⟨rfl, rfl⟩, by simp⟩
  · cases hstep
    have hc : c ≠ '\n' := by
      rintro rfl
      cases hopen
    refine ⟨_, [c], rfl, ⟨.code, (c, t.line) :: own, ?_, ?_⟩, ⟨rfl, (Wrote.put hc .code).line⟩,
      ⟨rfl, (Wrote.put hc .code).line⟩, by simp⟩
    · simp [hown]
    · simp [hmap]
  · have hc : c ≠ '\n' := by
      rintro rfl
      cases hclose
    cases hbrackets : s.brackets with
    | nil => simp [hbrackets] at hstep
    | cons bracket rest =>
        obtain ⟨opening, line⟩ := bracket
        rw [hbrackets, List.map_cons] at hmap
        obtain ⟨⟨opening', line'⟩, rest', rfl, hfirst, hrest⟩ := List.map_eq_cons_iff.1 hmap
        cases hfirst
        simp only [hbrackets] at hstep
        simp only [hown, List.cons_append]
        split_ifs at hstep ⊢ with hmatch
        cases hstep
        exact ⟨_, [c], rfl, ⟨.code, rest', rfl, hrest⟩, ⟨rfl, (Wrote.put hc .code).line⟩,
          ⟨rfl, (Wrote.put hc .code).line⟩, by simp⟩
  · cases hstep
    rw [hline]
    exact h.stepsAlike_putLineEnd .code
  · cases hstep
    exact h.stepsAlike_put .code (.inr rfl) hline

/-- Readings at the same place go on alike. -/
theorem Over.step (h : s.Over base t) {c : Char} (hstep : s.step c = .ok s') :
    StepsAlike base s t s' c (t.step c) := by
  obtain ⟨region, line, brackets, blanked⟩ := s
  obtain ⟨region', line', brackets', blanked'⟩ := t
  have hregion := h.region
  simp only at hregion
  unfold Scan.step at hstep ⊢
  cases hregion with
  | code => exact h.stepsAlike_codeStep hstep
  | slash =>
      simp only at hstep ⊢
      split_ifs at hstep ⊢ with hslash hstar
      · cases hstep
        exact ⟨_, [' ', ' '], rfl, ⟨.lineComment, h.brackets⟩, ⟨rfl, rfl⟩, ⟨rfl, rfl⟩, by simp⟩
      · cases hstep
        exact ⟨_, [' ', ' '], rfl, ⟨.blockComment _ _ _, h.brackets⟩, ⟨rfl, rfl⟩, ⟨rfl, rfl⟩,
          by simp⟩
      · -- The slash is written now that it starts no comment.
        have hput : Over base (Scan.put ⟨.slash, line, brackets, blanked⟩ '/' .code)
            (Scan.put ⟨.slash, line', brackets', blanked'⟩ '/' .code) := ⟨.code, h.brackets⟩
        obtain ⟨t', code, hresult, hover, hs, ht, hcode⟩ := hput.stepsAlike_codeStep hstep
        have hmark : '/' ≠ '\n' := by decide
        exact ⟨t', '/' :: code, hresult, hover, (Wrote.put hmark .code).append hs,
          (Wrote.put hmark .code).append ht, by simpa using hcode⟩
  | quoted hmark =>
      simp only at hstep ⊢
      split_ifs at hstep ⊢ with hslash hline hend
      · cases hstep
        exact h.stepsAlike_put (.escaped hmark) (.inl rfl) (by decide)
      · cases hstep
        exact h.stepsAlike_put .code (.inl rfl) (by decide)
      · cases hstep
        exact h.stepsAlike_put (.quoted hmark) (.inl rfl) (by decide)
  | escaped hmark =>
      cases hstep
      exact h.stepsAlike_put (.quoted hmark) (.inl rfl) (by decide)
  | raw m n =>
      simp only at hstep ⊢
      split_ifs at hstep ⊢ with hmark
      · cases hstep
        exact h.stepsAlike_put .code (.inl rfl) (by decide)
      · cases hstep
        exact h.stepsAlike_spanStep (.raw m n) c
  | lineComment =>
      simp only at hstep ⊢
      split_ifs at hstep ⊢ with hline
      · cases hstep
        rw [hline]
        exact h.stepsAlike_putLineEnd .code
      · cases hstep
        exact h.stepsAlike_put .lineComment (.inl rfl) (by decide)
  | blockComment m n star =>
      simp only at hstep ⊢
      split_ifs at hstep ⊢ with hend
      · cases hstep
        exact h.stepsAlike_put .code (.inl rfl) (by decide)
      · cases hstep
        exact h.stepsAlike_spanStep (.blockComment m n _) c

/-- Readings at the same place read a text alike. -/
theorem Over.run (h : s.Over base t) {text : List Char} (hrun : s.run text = .ok s') :
    ∃ t' code, t.run text = .ok t' ∧ s'.Over base t' ∧ s.Wrote s' code ∧ t.Wrote t' code ∧
      ('\n' ∉ text → '\n' ∉ code) := by
  induction text generalizing s t with
  | nil =>
      cases hrun
      exact ⟨t, [], rfl, h, .nil _, .nil t, fun _ => List.not_mem_nil⟩
  | cons c rest ih =>
      rw [run_cons, bind_eq_ok_iff] at hrun
      obtain ⟨next, hstep, hrun⟩ := hrun
      obtain ⟨next', first, hnext, hover, hs, ht, hfirst⟩ := h.step hstep
      obtain ⟨t', others, hrest, hover', hs', ht', hothers⟩ := ih hover hrun
      refine ⟨t', first ++ others, ?_, hover', hs.append hs', ht.append ht', fun hline => ?_⟩
      · rw [run_cons, hnext]
        exact hrest
      · rw [List.mem_cons, not_or] at hline
        rw [List.mem_append]
        refine not_or.2 ⟨fun hmem => ?_, hothers hline.2⟩
        rcases hfirst _ hmem with hc | hc | hc
        · cases hc
        · cases hc
        · exact hline.1 hc

/-! ## Ends of lines -/

end Scan

namespace Region

/-- Whether a line may start in a region. -/
def startsLine : Region → Bool
  | .code | .raw _ | .quoted _ => true
  | .blockComment _ star => !star
  | _ => false

/-- What a reading has not written yet: a slash that may start a comment. -/
def pending : Region → List Char
  | .slash => ['/']
  | _ => []

/-- The region behind a blank. -/
def behindBlank : Region → Region
  | .slash => .code
  | .escaped mark => .quoted mark
  | .blockComment start _ => .blockComment start false
  | region => region

/-- The region in which the next line starts, if the line may end here. -/
def nextLine : Region → Option Region
  | .code | .slash | .lineComment => some .code
  | .raw start => some (.raw start)
  | .blockComment start _ => some (.blockComment start false)
  | .quoted _ | .escaped _ => none

theorem pending_behindBlank (r : Region) : r.behindBlank.pending = [] := by
  cases r <;> rfl

/-- No line end is pending. -/
theorem newline_notMem_pending (r : Region) : '\n' ∉ r.pending := by
  cases r <;> simp [pending]

/-- The next line starts in the same region, whether or not the line ends with a blank. -/
theorem nextLine_behindBlank (r : Region) : r.behindBlank.nextLine = r.nextLine := by
  cases r <;> rfl

/-- Behind a line end a line starts. -/
theorem startsLine_of_nextLine {r r' : Region} (h : r.nextLine = some r') :
    r'.startsLine = true := by
  cases r <;> cases h <;> rfl

theorem isSome_nextLine_of_nextLine {r r' : Region} (h : r.nextLine = some r') :
    r'.nextLine.isSome = true := by
  cases r <;> cases h <;> rfl

/-- A blank line does not change the region. -/
theorem nextLine_eq_self {r r' : Region} (hstart : r.startsLine = true)
    (h : r.nextLine = some r') : r' = r := by
  cases r <;> simp_all [startsLine, nextLine]

/-- The mark of an open literal is no blank. -/
def Marked : Region → Prop
  | .quoted mark | .escaped mark => Text.isBlank mark = false
  | _ => True

theorem Marked.behindBlank {r : Region} (h : r.Marked) : r.behindBlank.Marked := by
  cases r <;> exact h

namespace Same

variable {r r' : Region}

/-- The quotes of regions that are the same are no blanks. -/
theorem marked (h : r.Same r') : r.Marked := by
  cases h with
  | quoted hmark => exact hmark
  | escaped hmark => exact hmark
  | _ => trivial

/-- Regions that are the same have the same pending text. -/
theorem pending_eq (h : r.Same r') : r'.pending = r.pending := by
  cases h <;> rfl

/-- Regions that are the same go to the next line together. -/
theorem nextLine (h : r.Same r') {next : Region} (hnext : r.nextLine = some next) :
    ∃ next', r'.nextLine = some next' ∧ next.Same next' := by
  cases h <;> cases hnext
  · exact ⟨_, rfl, .code⟩
  · exact ⟨_, rfl, .code⟩
  · exact ⟨_, rfl, .raw _ _⟩
  · exact ⟨_, rfl, .code⟩
  · exact ⟨_, rfl, .blockComment _ _ _⟩

end Same
end Region

/-- A blank is a plain character. -/
theorem isPlain_of_isBlank {c : Char} (h : Text.isBlank c = true) : isPlain c = true :=
  isPlain_of_class (by decide) h

namespace Scan

variable {s t u s' t' : Scan} {a b : List Char} {base : List (Char × Nat)}

/-- A blank in the code is written as it is. -/
theorem codeStep_blank {c : Char} (hblank : Text.isBlank c = true) (hc : c ≠ '\n') :
    s.codeStep c = .ok (s.put c .code) := by
  rw [s.codeStep_of_isPlain (isPlain_of_isBlank hblank), if_neg hc]

/-- A blank is written as a blank, behind a slash that has waited for it. -/
theorem step_blank {c : Char} (hs : s.region.Marked) (hblank : Text.isBlank c = true) (hc : c ≠ '\n') :
    ∃ d s', s.step c = .ok s' ∧ Text.isBlank d = true ∧ d ≠ '\n' ∧
      s.Wrote s' (s.region.pending ++ [d]) ∧ s'.brackets = s.brackets ∧
      s'.region = s.region.behindBlank := by
  have hne : ∀ d : Char, Text.isBlank d = false → c ≠ d := by
    rintro d hd rfl
    rw [hblank] at hd
    cases hd
  have hspace : Text.isBlank ' ' = true ∧ ' ' ≠ '\n' := by decide
  obtain ⟨region, line, brackets, blanked⟩ := s
  cases region with
  | code => exact ⟨c, _, codeStep_blank hblank hc, hblank, hc, .put hc .code, rfl, rfl⟩
  | slash =>
      have hslash : c ≠ '/' := hne '/' (by decide)
      have hstar : c ≠ '*' := hne '*' (by decide)
      refine ⟨c, _, ?_, hblank, hc, (Wrote.put (by decide) .code).append (.put hc .code), rfl, rfl⟩
      simp only [step, hslash, hstar, if_false]
      exact codeStep_blank hblank hc
  | quoted mark =>
      have hend : c ≠ mark := hne mark hs
      have hslash : c ≠ '\\' := hne '\\' (by decide)
      exact ⟨' ', _, by simp only [step, hslash, hend, hc, if_false], hspace.1, hspace.2,
        .put hspace.2 _, rfl, rfl⟩
  | escaped mark =>
      exact ⟨' ', _, rfl, hspace.1, hspace.2, .put hspace.2 _, rfl, rfl⟩
  | raw start =>
      have hraw : c ≠ '\x60' := hne '\x60' (by decide)
      exact ⟨' ', _, by simp only [step, hraw, if_false, spanStep, hc], hspace.1, hspace.2,
        .put hspace.2 _, rfl, rfl⟩
  | lineComment =>
      exact ⟨' ', _, by simp only [step, if_false, hc], hspace.1, hspace.2,
        .put hspace.2 _, rfl, rfl⟩
  | blockComment start star =>
      have hslash : c ≠ '/' := hne '/' (by decide)
      have hstar : c ≠ '*' := hne '*' (by decide)
      refine ⟨' ', _, by simp only [step, hslash, hstar, decide_false, Bool.and_false,
        Bool.false_eq_true, if_false, spanStep, hc], hspace.1, hspace.2,
        .put hspace.2 _, rfl, rfl⟩

/-- A line ends where it may end. -/
theorem run_newline {r : Region} (h : s.region.nextLine = some r) :
    ∃ s', s.run ['\n'] = .ok s' ∧ s'.region = r ∧ s'.brackets = s.brackets ∧
      s.Wrote s' (s.region.pending ++ ['\n']) := by
  obtain ⟨region, line, brackets, blanked⟩ := s
  cases region with
  | quoted mark => cases h
  | escaped mark => cases h
  | slash =>
      cases h
      have hslash : '/' ≠ '\n' := by decide
      exact ⟨_, rfl, rfl, rfl, (Wrote.put hslash .code).append (.putLineEnd .code)⟩
  | blockComment start star =>
      cases h
      refine ⟨Scan.putLineEnd _ (.blockComment start false), ?_, rfl, rfl, .putLineEnd _⟩
      cases star <;> rfl
  | _ =>
      cases h
      exact ⟨_, rfl, rfl, rfl, .putLineEnd _⟩

/-- A line ends after some blanks: the next line starts, or the line end is escaped and the literal
goes on. -/
theorem run_lineEnd {w : List Char} (hs : s.region.Marked)
    (hblank : ∀ c ∈ w, Text.isBlank c = true) (hw : '\n' ∉ w) (hrun : s.run (w ++ ['\n']) = .ok s') :
    s'.brackets = s.brackets ∧
      ((s.region.nextLine = some s'.region ∧ ∃ v, (∀ c ∈ v, Text.isBlank c = true) ∧ '\n' ∉ v ∧
          s.Wrote s' (s.region.pending ++ v ++ ['\n'])) ∨
        (w = [] ∧ ∃ mark, s.region = .escaped mark ∧ s'.region = .quoted mark ∧
          s.Wrote s' [' '])) := by
  induction w generalizing s with
  | nil =>
      cases hnext : s.region.nextLine with
      | some r =>
          obtain ⟨t, hrun', hregion, hbrackets, hwrote⟩ := run_newline hnext
          cases hrun'.symm.trans hrun
          exact ⟨hbrackets, .inl ⟨by rw [hregion], [], by simp, by simp, by simpa using hwrote⟩⟩
      | none =>
          obtain ⟨region, line, brackets, blanked⟩ := s
          cases region with
          | quoted mark => cases hrun
          | escaped mark =>
              cases hrun
              exact ⟨rfl, .inr ⟨rfl, mark, rfl, rfl, .put (by decide) _⟩⟩
          | _ => cases hnext
  | cons c rest ih =>
      rw [List.forall_mem_cons] at hblank
      rw [List.mem_cons, not_or] at hw
      obtain ⟨d, next, hstep, hd, hdline, hwrote, hbrackets, hregion⟩ :=
        step_blank hs hblank.1 (Ne.symm hw.1)
      rw [List.cons_append, run_cons, hstep] at hrun
      obtain ⟨hbrackets', hend⟩ := ih (hregion ▸ hs.behindBlank) hblank.2 hw.2 hrun
      refine ⟨hbrackets'.trans hbrackets, ?_⟩
      rw [hregion] at hend
      rcases hend with ⟨hnext, v, hv, hvline, hwrote'⟩ | ⟨-, mark, hmark, -⟩
      · refine .inl ⟨s.region.nextLine_behindBlank ▸ hnext, d :: v, ?_, ?_, ?_⟩
        · exact List.forall_mem_cons.2 ⟨hd, hv⟩
        · simp [hvline, Ne.symm hdline]
        · rw [Region.pending_behindBlank] at hwrote'
          simpa using hwrote.append hwrote'
      · exact absurd hmark (by cases s.region <;> simp [Region.behindBlank])

/-- A line that is read without the blanks at its end: it ends with fewer blanks, or it goes on
with the next line inside a literal. -/
theorem Over.run_line (h : s.Over base t) {line w : List Char} (hline : '\n' ∉ line)
    (hblank : ∀ c ∈ w, Text.isBlank c = true) (hw : '\n' ∉ w)
    (hrun : s.run (line ++ (w ++ ['\n'])) = .ok s') :
    ∃ t' code, t.run (line ++ ['\n']) = .ok t' ∧ s'.Over base t' ∧ s'.region.startsLine = true ∧
      '\n' ∉ code ∧
      ((s'.region.nextLine.isSome = true ∧ ∃ v, (∀ c ∈ v, Text.isBlank c = true) ∧ '\n' ∉ v ∧
          s.Wrote s' (code ++ v ++ ['\n']) ∧ t.Wrote t' (code ++ ['\n'])) ∨
        (s'.region.nextLine = none ∧ s.Wrote s' code ∧ t.Wrote t' code)) := by
  rw [run_append, bind_eq_ok_iff] at hrun
  obtain ⟨s₁, hfront, hrun⟩ := hrun
  obtain ⟨t₁, front, hfront', hover, hs, ht, hfrontline⟩ := h.run hfront
  obtain ⟨hbrackets, hend⟩ := run_lineEnd hover.region.marked hblank hw hrun
  obtain ⟨own, hown, hmap⟩ := hover.brackets
  rw [run_append_of_ok hfront']
  rcases hend with ⟨hnext, v, hv, hvline, hwrote⟩ | ⟨rfl, mark, hmark, hregion, hwrote⟩
  · obtain ⟨r, hnext', hsame⟩ := hover.region.nextLine hnext
    obtain ⟨t', hrun', hregion', hbrackets', hwrote'⟩ := run_newline hnext'
    refine ⟨t', front ++ s₁.region.pending, hrun', ⟨hregion' ▸ hsame, own, ?_, ?_⟩,
      Region.startsLine_of_nextLine hnext, ?_, .inl ⟨?_, v, hv, hvline, ?_, ?_⟩⟩
    · rw [hbrackets', hown]
    · rw [hbrackets, hmap]
    · simp [hfrontline hline, Region.newline_notMem_pending]
    · exact Region.isSome_nextLine_of_nextLine hnext
    · simpa using hs.append hwrote
    · rw [hover.region.pending_eq] at hwrote'
      simpa using ht.append hwrote'
  · -- Both readings write a blank for the escaped line end.
    obtain ⟨t', code, hrun', hover', hs', ht', -⟩ := hover.run hrun
    cases hs'.unique hwrote
    refine ⟨t', front ++ [' '], hrun', hover', by rw [hregion]; rfl, ?_, .inr ⟨?_, ?_, ?_⟩⟩
    · simp [hfrontline hline]
    · rw [hregion]
      rfl
    · exact hs.append hs'
    · exact ht.append ht'

/-- A blank line that is not read at all. -/
theorem Over.skip_line (h : s.Over base t) (hstart : s.region.startsLine = true) {w : List Char}
    (hblank : ∀ c ∈ w, Text.isBlank c = true) (hw : '\n' ∉ w) (hrun : s.run (w ++ ['\n']) = .ok s') :
    s'.Over base t ∧ s'.region = s.region ∧ s.region.nextLine.isSome = true ∧
      ∃ v, (∀ c ∈ v, Text.isBlank c = true) ∧ '\n' ∉ v ∧ s.Wrote s' (v ++ ['\n']) := by
  obtain ⟨own, hown, hmap⟩ := h.brackets
  obtain ⟨hbrackets, ⟨hnext, v, hv, hvline, hwrote⟩ | ⟨-, mark, hmark, -⟩⟩ :=
    run_lineEnd h.region.marked hblank hw hrun
  · have hregion := Region.nextLine_eq_self hstart hnext
    have hpending : s.region.pending = [] := by
      cases hs : s.region <;> rw [hs] at hstart <;> first | rfl | cases hstart
    refine ⟨⟨hregion ▸ h.region, own, hown, by rw [hbrackets, hmap]⟩, hregion, by rw [hnext]; rfl,
      v, hv, hvline, ?_⟩
    rwa [hpending] at hwrote
  · rw [hmark] at hstart
    cases hstart

end Scan

/-! ## Texts with fewer blanks -/

/-- Blanks at the end of a line are no text. -/
theorem textLines_append_blanks (line : List Char) {w : List Char}
    (hw : ∀ c ∈ w, Text.isBlank c = true) : textLines [line ++ w] = textLines [line] := by
  simp only [textLines, List.map_cons, List.map_nil, Text.trimEnd_append_blanks hw]

/-- The lines with text of a text, from its first line on. -/
theorem textLines_lines_line {line : List Char} (h : '\n' ∉ line) (s : List Char) :
    textLines (Text.lines (line ++ '\n' :: s)) = textLines [line] ++ textLines (Text.lines s) := by
  obtain ⟨first, hlines, rfl | rfl⟩ := Text.exists_lines_line h
  · rw [hlines, textLines_cons]
  · rw [hlines, textLines_cons, textLines_append_blanks first (List.forall_mem_singleton.2 rfl)]

/-- A text without some of its blanks is read like the text, and the code has the same lines with
text.  `front` is the code of a line that goes on with these lines. -/
theorem Scan.Over.run_thinned {s t s' : Scan} {base : List (Char × Nat)} {a b : List (List Char)}
    (hthin : Thinned a b) (hlines : ∀ line ∈ a, '\n' ∉ line) (h : s.Over base t)
    (hstart : s.region.startsLine = true) (hrun : s.run (unlines a) = .ok s') {front : List Char}
    (hfront : '\n' ∉ front) (hopen : s.region.nextLine.isSome = true → front = []) :
    ∃ t' code code', t.run (unlines b) = .ok t' ∧ s'.Over base t' ∧ s.Wrote s' code ∧
      t.Wrote t' code' ∧
      textLines (Text.lines (front ++ code)) = textLines (Text.lines (front ++ code')) ∧
      code.count '\n' + b.length = code'.count '\n' + a.length := by
  induction hthin generalizing s t front with
  | nil =>
      cases hrun
      exact ⟨t, [], [], rfl, h, .nil _, .nil t, rfl, rfl⟩
  | @line line w a b hw hthin ih =>
      rw [List.forall_mem_cons, List.mem_append, not_or] at hlines
      obtain ⟨⟨hline, hwline⟩, hlines⟩ := hlines
      have hcut : unlines ((line ++ w) :: a) = (line ++ (w ++ ['\n'])) ++ unlines a := by
        simp [unlines_cons]
      have hcut' : unlines (line :: b) = (line ++ ['\n']) ++ unlines b := by simp [unlines_cons]
      rw [hcut, Scan.run_append, bind_eq_ok_iff] at hrun
      obtain ⟨s₁, hfirst, hrun⟩ := hrun
      obtain ⟨t₁, first, hfirst', hover, hstart', hfirstline, hend⟩ :=
        h.run_line hline hw hwline hfirst
      rw [hcut', Scan.run_append_of_ok hfirst']
      rcases hend with ⟨hnext, v, hv, hvline, hs, ht⟩ | ⟨hnext, hs, ht⟩
      · -- The line ends here, and nothing is open in front of the next one.
        obtain ⟨t', code, code', hrun', hover', hs', ht', htext, hcount⟩ :=
          ih hlines hover hstart' hrun List.not_mem_nil fun _ => rfl
        refine ⟨t', _, _, hrun', hover', hs.append hs', ht.append ht', ?_, ?_⟩
        · have hcode : '\n' ∉ (front ++ first) ++ v := by simp [hfront, hfirstline, hvline]
          have hcode' : '\n' ∉ front ++ first := by simp [hfront, hfirstline]
          have hleft := textLines_lines_line hcode code
          have hright := textLines_lines_line hcode' code'
          rw [textLines_append_blanks _ hv] at hleft
          rw [List.nil_append, List.nil_append] at htext
          rw [← htext, ← hleft] at hright
          simpa using hright.symm
        · simp only [List.count_append, List.count_eq_zero.2 hfirstline,
            List.count_eq_zero.2 hvline, List.length_cons]
          omega
      · -- The line end is escaped, and the line goes on.
        have hfront' : '\n' ∉ front ++ first := by simp [hfront, hfirstline]
        obtain ⟨t', code, code', hrun', hover', hs', ht', htext, hcount⟩ :=
          ih hlines hover hstart' hrun hfront' fun hsome => by
            rw [hnext] at hsome
            cases hsome
        refine ⟨t', _, _, hrun', hover', hs.append hs', ht.append ht', ?_, ?_⟩
        · simpa using htext
        · simp only [List.count_append, List.length_cons]
          omega
  | @blank w a b hw hthin ih =>
      rw [List.forall_mem_cons] at hlines
      obtain ⟨hwline, hlines⟩ := hlines
      have hcut : unlines (w :: a) = (w ++ ['\n']) ++ unlines a := by simp [unlines_cons]
      rw [hcut, Scan.run_append, bind_eq_ok_iff] at hrun
      obtain ⟨s₁, hfirst, hrun⟩ := hrun
      obtain ⟨hover, hregion, hnext, v, hv, hvline, hs⟩ := h.skip_line hstart hw hwline hfirst
      cases hopen hnext
      obtain ⟨t', code, code', hrun', hover', hs', ht', htext, hcount⟩ :=
        ih hlines hover (hregion ▸ hstart) hrun List.not_mem_nil fun _ => rfl
      refine ⟨t', _, code', hrun', hover', hs.append hs', ht', ?_, ?_⟩
      · have hblank : textLines [v] = [] :=
          textLines_singleton_eq_nil_iff.2 (List.all_eq_true.2 hv)
        have hleft := textLines_lines_line hvline code
        rw [hblank, List.nil_append] at hleft
        rw [List.nil_append, List.nil_append] at htext
        simpa using hleft.trans htext
      · simp only [List.count_append, List.count_eq_zero.2 hvline, List.count_singleton_self,
          List.length_cons]
        omega

end Program
end Stackwright
