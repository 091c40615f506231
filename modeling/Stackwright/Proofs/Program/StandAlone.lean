import Mathlib
import Stackwright.Proofs.Program.Rereading

/-!
# Lines that stand alone

Lines stand alone if they are read alike from every place in the code.  Then what is
read before them does not matter, and lines that stand alone are put together and taken
apart.  A text consists of such lines if and only if it can be blanked.

Main results:

- Theorem `StandAlone.iff_blank`: lines stand alone exactly if their text can be blanked.
- Theorem `StandAlone.thinned`: lines with fewer blanks stand alone as well.
- Theorem `exists_standAlone_block`: an import block stands alone if its entries do.
-/

namespace Stackwright
namespace Program

/-- A text that ends with a line end, if it is not empty. -/
def WholeLines (text : List Char) : Prop :=
  text = [] ∨ ∃ front, text = front ++ ['\n']

/-! ## Blanking as a reading -/

namespace Scan

variable {s t s' : Scan} {base : List (Char × Nat)} {code : List Char}

/-- A text that ends well ends outside all literals and brackets. -/
theorem finish_eq_ok (h : s.finish = .ok code) :
    s.brackets = [] ∧ s.region.nextLine = some .code ∧
      code = s.blanked.reverse ++ s.region.pending := by
  obtain ⟨region, line, brackets, blanked⟩ := s
  cases brackets with
  | cons bracket rest => cases region <;> cases h
  | nil =>
      cases region with
      | slash =>
          cases h
          exact ⟨rfl, rfl, List.reverse_cons⟩
      | code | lineComment =>
          cases h
          exact ⟨rfl, rfl, (List.append_nil _).symm⟩
      | _ => cases h

/-- A reading that is back in the code. -/
theorem Over.of_code (hs : s.region = .code) (ht : t.region = .code) (hbrackets : s.brackets = []) :
    s.Over t.brackets t where
  region := by
    rw [hs, ht]
    exact .code
  brackets := ⟨[], rfl, by rw [hbrackets]⟩

/-- The reading of a text starts in the code. -/
theorem over_start : ({} : Scan).Over [] {} :=
  Over.of_code (s := {}) (t := {}) rfl rfl rfl

theorem Over.eq_of_code (h : s.Over base t) (hs : s.region = .code) (hbrackets : s.brackets = []) :
    t.region = .code ∧ t.brackets = base := by
  obtain ⟨hregion, own, hown, hmap⟩ := h
  rw [hbrackets, List.map_nil, List.map_eq_nil_iff] at hmap
  rw [hs] at hregion
  generalize t.region = r at hregion
  cases hregion
  exact ⟨rfl, by rw [hown, hmap, List.nil_append]⟩

theorem Over.code_of_eq (h : s.Over base t) (ht : t.region = .code) (hbrackets : t.brackets = base) :
    s.region = .code ∧ s.brackets = [] := by
  obtain ⟨hregion, own, hown, hmap⟩ := h
  have hnil : own = [] := by simpa [hbrackets] using hown
  rw [hnil, List.map_nil, eq_comm, List.map_eq_nil_iff] at hmap
  rw [ht] at hregion
  generalize s.region = r at hregion
  cases hregion
  exact ⟨rfl, hmap⟩

/-- After whole lines a line starts, and the code consists of whole lines, unless a literal goes
on. -/
theorem Over.startsLine_of_run (h : s.Over base t) (hstart : s.region.startsLine = true)
    {a : List (List Char)} (hlines : ∀ line ∈ a, '\n' ∉ line) (hrun : s.run (unlines a) = .ok s')
    (hwrote : s.Wrote s' code) :
    s'.region.startsLine = true ∧
      (s'.region.nextLine.isSome = true → WholeLines code) := by
  rcases List.eq_nil_or_concat a with rfl | ⟨front, line, rfl⟩
  · cases hrun
    exact ⟨hstart, fun _ => .inl (hwrote.unique (.nil _))⟩
  · rw [List.concat_eq_append] at *
    have hcut : unlines (front ++ [line]) = unlines front ++ (line ++ ([] ++ ['\n'])) := by
      simp [unlines]
    rw [hcut, run_append, bind_eq_ok_iff] at hrun
    obtain ⟨s₁, hfront, hrun⟩ := hrun
    obtain ⟨t₁, first, -, hover, hs, -, -⟩ := h.run hfront
    obtain ⟨t', last, -, -, hstart', -, hend⟩ :=
      hover.run_line (hlines line (by simp)) (by simp) List.not_mem_nil hrun
    refine ⟨hstart', fun hsome => ?_⟩
    rcases hend with ⟨-, v, -, -, hlast, -⟩ | ⟨hnone, -, -⟩
    · refine .inr ⟨first ++ (last ++ v), ?_⟩
      simpa using hwrote.unique (hs.append hlast)
    · rw [hnone] at hsome
      cases hsome

end Scan

/-- The reading of a text that can be blanked. -/
theorem exists_run_of_blank {text code : List Char} (h : blank text = .ok code) :
    ∃ s, Scan.run {} text = .ok s ∧ s.brackets = [] ∧ s.region.nextLine = some .code ∧
      code = s.blanked.reverse ++ s.region.pending := by
  rw [blank, bind_eq_ok_iff] at h
  obtain ⟨s, hrun, hfinish⟩ := h
  exact ⟨s, hrun, Scan.finish_eq_ok hfinish⟩

/-! ## Standing alone -/

/-- Lines that stand alone: from every place in the code, reading them writes `code` and leads back
into the code with the same open brackets. -/
def StandAlone (lines : List (List Char)) (code : List Char) : Prop :=
  ∀ s : Scan, s.region = .code →
    ∃ s' : Scan, s.run (unlines lines) = .ok s' ∧ s'.region = .code ∧ s'.brackets = s.brackets ∧
      s.Wrote s' code

namespace StandAlone

variable {a b : List (List Char)} {c d : List Char}

/-- Lines stand alone if they are read so from one place. -/
theorem of_run {s s' : Scan} (hs : s.region = .code) (hbrackets : s.brackets = [])
    (hrun : s.run (unlines a) = .ok s') (hs' : s'.region = .code) (hbrackets' : s'.brackets = [])
    (hwrote : s.Wrote s' c) : StandAlone a c := by
  intro t ht
  obtain ⟨t', code, hrun', hover, hwrote', htwrote, -⟩ := (Scan.Over.of_code hs ht hbrackets).run hrun
  obtain ⟨hregion, hclosed⟩ := hover.eq_of_code hs' hbrackets'
  cases hwrote.unique hwrote'
  exact ⟨t', hrun', hregion, hclosed, htwrote⟩

theorem append (ha : StandAlone a c) (hb : StandAlone b d) : StandAlone (a ++ b) (c ++ d) := by
  intro s hs
  obtain ⟨s₁, hrun₁, hs₁, hbrackets₁, hwrote₁⟩ := ha s hs
  obtain ⟨s₂, hrun₂, hs₂, hbrackets₂, hwrote₂⟩ := hb s₁ hs₁
  refine ⟨s₂, ?_, hs₂, hbrackets₂.trans hbrackets₁, hwrote₁.append hwrote₂⟩
  rw [unlines_append, Scan.run_append_of_ok hrun₁, hrun₂]

/-- What stands behind lines that stand alone stands alone. -/
theorem exists_append (h : StandAlone (a ++ b) d) (ha : StandAlone a c) :
    ∃ e, d = c ++ e ∧ StandAlone b e := by
  obtain ⟨s₁, hrun₁, hs₁, hbrackets₁, hwrote₁⟩ := ha {} rfl
  obtain ⟨s₂, hrun, hs₂, hbrackets₂, hwrote⟩ := h {} rfl
  rw [unlines_append, Scan.run_append_of_ok hrun₁] at hrun
  obtain ⟨-, e, -, -, hrest, -, -⟩ := (Scan.Over.of_code hs₁ hs₁ hbrackets₁).run hrun
  exact ⟨e, hwrote.unique (hwrote₁.append hrest),
    of_run hs₁ hbrackets₁ hrun hs₂ hbrackets₂ hrest⟩

/-- A text that reads as a text stands alone. -/
theorem of_reads (h : Reads (unlines a) c) (hcount : (unlines a).count '\n' = c.count '\n') :
    StandAlone a c := by
  intro s hs
  exact ⟨_, h s hs, hs, rfl, rfl, by rw [← hcount]; rfl⟩

/-- Lines that stand alone read as their code. -/
theorem reads (h : StandAlone a c) (hcount : (unlines a).count '\n' = c.count '\n') :
    Reads (unlines a) c := by
  intro s hs
  obtain ⟨⟨region, line, brackets, blanked⟩, hrun, hregion, hbrackets, hwrote⟩ := h s hs
  obtain ⟨hblanked, hline⟩ := hwrote
  simp only at hregion hbrackets hblanked hline
  rw [hrun, hcount, Scan.advance, hregion, hline, hblanked, hbrackets, ← hs]

/-- Thinned lines stand alone, with the same text in the code. -/
theorem thinned (h : StandAlone a c) (hlines : ∀ line ∈ a, '\n' ∉ line) (hthin : Thinned a b) :
    ∃ d, StandAlone b d ∧ textLines (Text.lines d) = textLines (Text.lines c) ∧
      c.count '\n' + b.length = d.count '\n' + a.length := by
  obtain ⟨s, hrun, hs, hbrackets, hwrote⟩ := h {} rfl
  obtain ⟨t, code, d, hrun', hover, hcode, hd, htext, hcount⟩ :=
    Scan.over_start.run_thinned hthin hlines rfl hrun List.not_mem_nil fun _ => rfl
  obtain ⟨ht, hclosed⟩ := hover.eq_of_code hs hbrackets
  cases hwrote.unique hcode
  exact ⟨d, of_run rfl rfl hrun' ht hclosed hd, htext.symm, hcount⟩

/-- Lines that are read in front of others stand alone if they do when they are thinned. -/
theorem of_thinned {rest : List (List Char)} {e : List Char} (h : StandAlone (a ++ rest) e)
    (hlines : ∀ line ∈ a, '\n' ∉ line) (hthin : Thinned a b) (hb : StandAlone b d) :
    ∃ c, StandAlone a c ∧ textLines (Text.lines c) = textLines (Text.lines d) ∧
      c.count '\n' + b.length = d.count '\n' + a.length := by
  obtain ⟨s', hrun, -⟩ := h {} rfl
  rw [unlines_append, Scan.run_append, bind_eq_ok_iff] at hrun
  obtain ⟨s, hfront, -⟩ := hrun
  obtain ⟨t, c, code, hrun', hover, hc, hcode, htext, hcount⟩ :=
    Scan.over_start.run_thinned hthin hlines rfl hfront List.not_mem_nil fun _ => rfl
  obtain ⟨t', hrunb, ht, hclosed, hd⟩ := hb {} rfl
  cases hrun'.symm.trans hrunb
  cases hd.unique hcode
  obtain ⟨hs, hbrackets⟩ := hover.code_of_eq ht hclosed
  exact ⟨c, of_run rfl rfl hfront hs hbrackets hc, htext, hcount⟩

/-- The code of lines that stand alone consists of whole lines. -/
theorem wholeLines (h : StandAlone a c) (hlines : ∀ line ∈ a, '\n' ∉ line) : WholeLines c := by
  obtain ⟨s, hrun, hs, -, hwrote⟩ := h {} rfl
  refine (Scan.over_start.startsLine_of_run rfl hlines hrun hwrote).2 ?_
  rw [hs]
  rfl

/-- The lines of a text that can be blanked stand alone. -/
theorem of_blank {source code : List Char} (h : blank source = .ok code)
    (ha : source ++ ['\n'] = unlines a) : StandAlone a (code ++ ['\n']) := by
  obtain ⟨s, hrun, hbrackets, hnext, rfl⟩ := exists_run_of_blank h
  obtain ⟨s', hrun', hs', hbrackets', hend⟩ := Scan.run_newline hnext
  obtain ⟨-, c, -, -, hwrote, -, -⟩ := Scan.over_start.run hrun
  have hblanked : s.blanked.reverse = c := by simp [hwrote.blanked]
  rw [hblanked, List.append_assoc]
  refine of_run rfl rfl ?_ hs' (hbrackets'.trans hbrackets) (hwrote.append hend)
  rw [← ha, Scan.run_append_of_ok hrun, hrun']

/-- Lines stand alone exactly if their text can be blanked. -/
theorem iff_blank (hlines : ∀ line ∈ a, '\n' ∉ line) :
    StandAlone a c ↔ blank (unlines a) = .ok c := by
  constructor
  · intro h
    obtain ⟨s, hrun, hs, hbrackets, hwrote⟩ := h {} rfl
    have hblanked : s.blanked = c.reverse := by simpa using hwrote.blanked
    rw [blank, hrun]
    obtain ⟨region, line, brackets, blanked⟩ := s
    cases hs
    cases hbrackets
    cases hblanked
    simp [Scan.finish, bind, Except.bind]
  · intro h
    obtain ⟨s, hrun, hbrackets, hnext, rfl⟩ := exists_run_of_blank h
    obtain ⟨-, code, -, -, hwrote, -, -⟩ := Scan.over_start.run hrun
    have hstart := (Scan.over_start.startsLine_of_run rfl hlines hrun hwrote).1
    have hs : s.region = .code := (Region.nextLine_eq_self hstart hnext).symm
    rw [hs, hwrote.blanked]
    simpa [Region.pending] using of_run rfl rfl hrun hs hbrackets hwrote

end StandAlone

/-! ## Lines as they stand in a text -/

/-- A line as it stands in a text: a carriage return at its end belongs to the line end. -/
def IsCut (raw line : List Char) : Prop :=
  raw = line ∨ raw = line ++ ['\r']

/-- A text consists of lines and what stands behind its last line end. -/
theorem exists_unlines (text : List Char) :
    ∃ raw tail, text = unlines raw ++ tail ∧ (∀ line ∈ raw, '\n' ∉ line) ∧ '\n' ∉ tail := by
  induction text with
  | nil => exact ⟨[], [], rfl, by simp, List.not_mem_nil⟩
  | cons c rest ih =>
      obtain ⟨raw, tail, rfl, hraw, htail⟩ := ih
      by_cases hc : c = '\n'
      · exact ⟨[] :: raw, tail, by simp [unlines, hc], by simpa using hraw, htail⟩
      · cases raw with
        | nil => exact ⟨[], c :: tail, rfl, by simp, by simp [Ne.symm hc, htail]⟩
        | cons line raw =>
            rw [List.forall_mem_cons] at hraw
            refine ⟨(c :: line) :: raw, tail, rfl, List.forall_mem_cons.2 ⟨?_, hraw.2⟩, htail⟩
            simp [Ne.symm hc, hraw.1]

/-- Every line has one line end. -/
theorem count_unlines {lines : List (List Char)} (h : ∀ line ∈ lines, '\n' ∉ line) :
    (unlines lines).count '\n' = lines.length := by
  induction lines with
  | nil => rfl
  | cons line rest ih =>
      rw [List.forall_mem_cons] at h
      rw [unlines_cons, List.count_append, List.count_eq_zero.2 h.1, List.count_cons_self, ih h.2,
        List.length_cons, Nat.zero_add]

/-- The lines that are cut out of lines with their line ends. -/
theorem exists_lines_unlines {raw : List (List Char)} (h : ∀ line ∈ raw, '\n' ∉ line) :
    ∃ cut, List.Forall₂ IsCut raw cut ∧
      ∀ s, Text.lines (unlines raw ++ s) = cut ++ Text.lines s := by
  induction raw with
  | nil => exact ⟨[], .nil, fun s => rfl⟩
  | cons line rest ih =>
      rw [List.forall_mem_cons] at h
      obtain ⟨cut, hcut, hlines⟩ := ih h.2
      have hcons : ∀ s, unlines (line :: rest) ++ s = line ++ '\n' :: (unlines rest ++ s) := by
        simp [unlines]
      by_cases hreturn : line.getLast? = some '\r'
      · obtain ⟨front, rfl⟩ := List.getLast?_eq_some_iff.1 hreturn
        refine ⟨front :: cut, .cons (.inr rfl) hcut, fun s => ?_⟩
        have hfront : '\n' ∉ front := fun hmem => h.1 (List.mem_append_left _ hmem)
        rw [hcons, List.append_assoc, List.singleton_append, Text.lines_return hfront, hlines]
        rfl
      · refine ⟨line :: cut, .cons (.inl rfl) hcut, fun s => ?_⟩
        rw [hcons, Text.lines_line h.1 hreturn, hlines]
        rfl

/-- Whole lines in front of a text are lines of the text. -/
theorem WholeLines.lines_append {front : List Char} (h : WholeLines front) (s : List Char) :
    Text.lines (front ++ s) = Text.lines front ++ Text.lines s ∧
      (Text.lines front).length = front.count '\n' := by
  obtain ⟨raw, hfront, hraw⟩ : ∃ raw, front = unlines raw ∧ ∀ line ∈ raw, '\n' ∉ line := by
    rcases h with rfl | ⟨text, rfl⟩
    · exact ⟨[], rfl, by simp⟩
    · obtain ⟨raw, tail, rfl, hraw, htail⟩ := exists_unlines text
      refine ⟨raw ++ [tail], by simp [unlines], ?_⟩
      rw [List.forall_mem_append]
      exact ⟨hraw, List.forall_mem_singleton.2 htail⟩
  obtain ⟨cut, hcut, hlines⟩ := exists_lines_unlines hraw
  have hself := hlines []
  rw [List.append_nil, Text.lines_nil, List.append_nil] at hself
  rw [hfront, hlines, hself, count_unlines hraw, hcut.length_eq]
  exact ⟨rfl, rfl⟩

/-- The lines of a text as they stand in it; the line that the closing line end may add is empty. -/
theorem exists_raw (source : List Char) :
    ∃ raw extra, source ++ ['\n'] = unlines (raw ++ extra) ∧ (∀ line ∈ raw ++ extra, '\n' ∉ line) ∧
      List.Forall₂ IsCut raw (Text.lines source) ∧ Thinned extra [] := by
  obtain ⟨raw, tail, rfl, hraw, htail⟩ := exists_unlines source
  obtain ⟨cut, hcut, hlines⟩ := exists_lines_unlines hraw
  have hall : ∀ line ∈ raw ++ [tail], '\n' ∉ line := by
    rw [List.forall_mem_append]
    exact ⟨hraw, List.forall_mem_singleton.2 htail⟩
  have hclosed : unlines raw ++ tail ++ ['\n'] = unlines (raw ++ [tail]) := by simp [unlines]
  rw [hlines]
  by_cases hempty : tail = []
  · refine ⟨raw, [tail], hclosed, hall, ?_, .blank (by simp [hempty]) .nil⟩
    rw [hempty, Text.lines_nil, List.append_nil]
    exact hcut
  · refine ⟨raw ++ [tail], [], by rw [List.append_nil, hclosed], by rwa [List.append_nil], ?_, .nil⟩
    rw [Text.lines_of_notMem htail hempty]
    exact List.rel_append hcut (.cons (.inl rfl) .nil)

/-- Lines are cut out of a text part by part. -/
theorem exists_cut_append {raw a b : List (List Char)} (h : List.Forall₂ IsCut raw (a ++ b)) :
    ∃ r₁ r₂, raw = r₁ ++ r₂ ∧ List.Forall₂ IsCut r₁ a ∧ List.Forall₂ IsCut r₂ b :=
  ⟨raw.take a.length, raw.drop a.length, (List.take_append_drop _ _).symm,
    List.forall₂_take_append raw a b h, List.forall₂_drop_append raw a b h⟩

theorem thinned_of_forall₂ {raw lines : List (List Char)} (h : List.Forall₂ IsCut raw lines) :
    Thinned raw lines := by
  induction h with
  | nil => exact .nil
  | cons hline _ ih =>
      rcases hline with rfl | rfl
      · exact .keep _ ih
      · exact .line _ (List.forall_mem_singleton.2 rfl) ih

/-- Lines that stand alone do so as they stand in a text, and so does what stands behind them
there. -/
theorem StandAlone.exists_cut {raw lines rest : List (List Char)} {c d : List Char}
    (h : StandAlone (raw ++ rest) c) (hraw : ∀ line ∈ raw, '\n' ∉ line)
    (hcut : List.Forall₂ IsCut raw lines) (hlines : StandAlone lines d) :
    ∃ front back, c = front ++ back ∧ StandAlone raw front ∧ StandAlone rest back ∧
      front.count '\n' = d.count '\n' ∧
      textLines (Text.lines front) = textLines (Text.lines d) := by
  obtain ⟨front, hfront, htext, hcount⟩ := h.of_thinned hraw (thinned_of_forall₂ hcut) hlines
  obtain ⟨back, hsplit, hback⟩ := h.exists_append hfront
  rw [hcut.length_eq] at hcount
  exact ⟨front, back, hsplit, hfront, hback, Nat.add_right_cancel hcount, htext⟩

/-! ## Blocks that stand alone -/

/-- A line of complete code stands alone, also without blanks at its end. -/
theorem exists_standAlone_line {line w code : List Char} (h : blank (line ++ w) = .ok code)
    (hline : '\n' ∉ line ++ w) (hw : ∀ c ∈ w, Text.isBlank c = true) :
    ∃ c, StandAlone [line] c ∧ c.count '\n' = 1 := by
  rw [List.mem_append, not_or] at hline
  obtain ⟨s, hrun, hbrackets, hnext, -⟩ := exists_run_of_blank h
  obtain ⟨s', hrun', hs', hbrackets', -⟩ := Scan.run_newline hnext
  have hclosed : Scan.run {} (line ++ (w ++ ['\n'])) = .ok s' := by
    rw [← List.append_assoc, Scan.run_append_of_ok hrun, hrun']
  obtain ⟨t', c, htrun, hover, -, hc, hend⟩ :=
    Scan.over_start.run_line hline.1 hw hline.2 hclosed
  rcases hend with ⟨-, v, -, -, -, hwrote⟩ | ⟨hnone, -, -⟩
  · obtain ⟨ht', hopen⟩ := hover.eq_of_code hs' (hbrackets'.trans hbrackets)
    refine ⟨c ++ ['\n'], .of_run rfl rfl ?_ ht' hopen hwrote, ?_⟩
    · simpa [unlines] using htrun
    · rw [List.count_append, List.count_eq_zero.2 hc]
      rfl
  · rw [hs'] at hnone
    cases hnone

/-- Lines each of which stands alone stand alone. -/
theorem exists_standAlone_lines {lines : List (List Char)}
    (h : ∀ line ∈ lines, ∃ c, StandAlone [line] c ∧ c.count '\n' = 1) :
    ∃ c, StandAlone lines c ∧ c.count '\n' = lines.length := by
  induction lines with
  | nil => exact ⟨[], fun s hs => ⟨s, rfl, hs, rfl, .nil s⟩, rfl⟩
  | cons line rest ih =>
      rw [List.forall_mem_cons] at h
      obtain ⟨c, hc, hone⟩ := h.1
      obtain ⟨d, hd, hcount⟩ := ih h.2
      refine ⟨c ++ d, hc.append hd, ?_⟩
      rw [List.count_append, hone, hcount, List.length_cons, Nat.add_comm]

/-- Blanks read as themselves. -/
theorem reads_blanks {w : List Char} (hw : ∀ c ∈ w, Text.isBlank c = true) : Reads w w :=
  .plain (List.all_eq_true.2 fun c hc => isPlain_of_isBlank (hw c hc))

/-- A block whose entries stand alone stands alone. -/
theorem exists_standAlone_block {b : ImportBlock} (hopening : opensImports b.opening = true)
    (hclosing : closesImports b.closing = true)
    (hlines : ∀ line ∈ b.opening :: (b.entries ++ [b.closing]), '\n' ∉ line)
    (hentries : ∀ line ∈ b.entries, ∃ c, StandAlone [line] c ∧ c.count '\n' = 1) :
    ∃ c, StandAlone (b.opening :: (b.entries ++ [b.closing])) c ∧
      c.count '\n' = b.entries.length + 2 := by
  obtain ⟨front, back, hopen, hfront, hback⟩ := Text.exists_blanks_trim b.opening
  obtain ⟨front', back', hclose, hfront', hback'⟩ := Text.exists_blanks_trim b.closing
  rw [opensImports, beq_iff_eq] at hopening
  rw [closesImports, beq_iff_eq] at hclosing
  obtain ⟨c, hc, hcount⟩ := exists_standAlone_lines hentries
  have hentrylines : ∀ line ∈ b.entries, '\n' ∉ line :=
    fun line hline => hlines line (by simp [hline])
  have hreads := hc.reads (by rw [count_unlines hentrylines, hcount])
  have hnewline : Reads ['\n'] ['\n'] := .char (by decide)
  have hword : Reads "import ".toList "import ".toList := .plain (by decide)
  have hblock := (((reads_blanks hfront).append hword).append
    (Reads.parentheses ((((reads_blanks hback).append hnewline).append hreads).append
      (reads_blanks hfront')))).append ((reads_blanks hback').append hnewline)
  have htext : unlines (b.opening :: (b.entries ++ [b.closing]))
      = front ++ "import ".toList ++ ('(' :: (back ++ ['\n'] ++ unlines b.entries ++ front') ++ [')'])
        ++ (back' ++ ['\n']) := by
    have hcut : unlines (b.opening :: (b.entries ++ [b.closing]))
        = b.opening ++ '\n' :: (unlines b.entries ++ (b.closing ++ ['\n'])) := by
      simp [unlines]
    rw [hcut, hopen, hclose, hopening, hclosing]
    simp
  have hwhole := count_unlines hlines
  rw [htext] at hwhole
  refine ⟨_, .of_reads (htext ▸ hblock) ?_, ?_⟩
  · rw [htext]
    simp only [List.count_append, List.count_cons, count_unlines hentrylines, hcount]
  · simp only [List.count_append, List.count_cons, count_unlines hentrylines, List.length_cons,
      List.length_append, List.length_nil] at hwhole
    simp only [List.count_append, List.count_cons, hcount]
    omega

end Program
end Stackwright
