import Mathlib
import Stackwright.Proofs.Program.Settling
import Stackwright.Proofs.Program.StandAlone

/-!
# Making a canonical text canonical again

The last pass drops lines of the import block and blanks.  If the block stands apart from
literals and comments, what is left can be read again, and the code outside the block has
the same lines with text; so every import that was used is used again.  A second run still
finds something to do in two cases: of several empty lines in front of the end of a block
the first run leaves one, and a block without a used import gives way to the next one.

Main results:

- Theorem `ImportBlock.StandsApart.exists_parts`: the parts of a text around its block.
- Theorem `exists_blank_canonicalize`: a canonical text can be read again, and the imports
  that it keeps are used.
- Theorem `canonicalize_idem_iff`: when a canonical text is its own canonical form.
-/

namespace Stackwright
namespace Program

/-! ## The parts of a text around its block -/

/-- A block of complete entries behind complete code.  The code has a line end for each line: none
is hidden by a backslash inside a literal. -/
structure ImportBlock.StandsApart (b : ImportBlock) : Prop where
  before : ∃ code, blank (unlines b.before) = .ok code ∧ code.count '\n' = b.before.length
  entries : ∀ line ∈ b.entries, ∃ code, blank line = .ok code

/-- Code with a line end at its end has the same lines with text, here and there. -/
theorem textLines_outside_concat (b : ImportBlock) (code : List Char) :
    textLines (b.outside (Text.lines (code ++ ['\n'])))
      = textLines (b.outside (Text.lines code)) := by
  obtain ⟨raw, tail, rfl, hraw, htail⟩ := exists_unlines code
  obtain ⟨cut, -, hlines⟩ := exists_lines_unlines hraw
  obtain ⟨first, hlines', hend⟩ := Text.exists_lines_line htail
  have hfirst := hlines' []
  rw [Text.lines_nil] at hfirst
  have hlast : (Text.lines tail).length ≤ 1 ∧ textLines [first] = textLines (Text.lines tail) := by
    by_cases hempty : tail = []
    · rcases hend with hend | hend
      · rw [← hend, hempty]
        exact ⟨Nat.zero_le 1, rfl⟩
      · rw [hempty] at hend
        simp at hend
    · rw [Text.lines_of_notMem htail hempty]
      refine ⟨le_refl 1, ?_⟩
      rcases hend with rfl | rfl
      · rfl
      · exact (textLines_append_blanks first (List.forall_mem_singleton.2 rfl)).symm
  have htake : ∀ k, textLines ([first].take k) = textLines ((Text.lines tail).take k) := by
    intro k
    cases k with
    | zero => rfl
    | succ k =>
        rw [List.take_of_length_le (by simp), List.take_of_length_le (by omega)]
        exact hlast.2
  have hdrop : ∀ k, textLines ([first].drop k) = textLines ((Text.lines tail).drop k) := by
    intro k
    cases k with
    | zero => exact hlast.2
    | succ k => rw [List.drop_of_length_le (by simp), List.drop_of_length_le (by omega)]
  rw [List.append_assoc, hlines, hlines, hfirst, ImportBlock.outside, ImportBlock.outside]
  simp only [List.take_append, List.drop_append, textLines_append, htake, hdrop]

/-- The code outside a block, if the code of the block has as many lines as the block. -/
theorem ImportBlock.outside_lines {b : ImportBlock} {head block rest : List Char}
    (hhead : WholeLines head) (hheight : head.count '\n' = b.before.length)
    (hblock : WholeLines block) (hcount : block.count '\n' = b.entries.length + 2) :
    b.outside (Text.lines (head ++ (block ++ rest))) = Text.lines head ++ Text.lines rest := by
  obtain ⟨hfirst, hheadlines⟩ := hhead.lines_append (block ++ rest)
  obtain ⟨hsecond, hblocklines⟩ := hblock.lines_append rest
  rw [outside, hfirst, hsecond, List.take_left' (hheadlines.trans hheight), ← List.append_assoc,
    List.drop_left']
  rw [List.length_append, hheadlines, hblocklines, hheight, hcount]
  omega

/-- The lines of a text around its block, as they stand in the text. -/
structure ImportBlock.Cuts (b : ImportBlock) (source : List Char)
    (r₁ r₂ r₃ : List (List Char)) : Prop where
  eq : source ++ ['\n'] = unlines (r₁ ++ (r₂ ++ r₃))
  lines : ∀ line ∈ r₁ ++ (r₂ ++ r₃), '\n' ∉ line
  before : List.Forall₂ IsCut r₁ b.before
  block : List.Forall₂ IsCut r₂ (b.opening :: (b.entries ++ [b.closing]))
  after : ∃ raw extra, r₃ = raw ++ extra ∧ List.Forall₂ IsCut raw b.after ∧ Thinned extra []

theorem ImportBlock.Splits.exists_cuts {b : ImportBlock} {source : List Char}
    (h : b.Splits (Text.lines source)) : ∃ r₁ r₂ r₃, b.Cuts source r₁ r₂ r₃ := by
  have hparts : Text.lines source
      = b.before ++ ((b.opening :: (b.entries ++ [b.closing])) ++ b.after) := by
    rw [h.eq]
    simp
  obtain ⟨raw, extra, hraw, hrawlines, hcut, hextra⟩ := exists_raw source
  rw [hparts] at hcut
  obtain ⟨r₁, r, rfl, hcut₁, hcut⟩ := exists_cut_append hcut
  obtain ⟨r₂, r₃, rfl, hcut₂, hcut₃⟩ := exists_cut_append hcut
  rw [List.append_assoc, List.append_assoc] at hraw hrawlines
  exact ⟨r₁, r₂, r₃ ++ extra, hraw, hrawlines, hcut₁, hcut₂, r₃, extra, rfl, hcut₃, hextra⟩

/-- The lines of a block. -/
theorem ImportBlock.Splits.subset {b : ImportBlock} {lines : List (List Char)}
    (h : b.Splits lines) : b.opening :: (b.entries ++ [b.closing]) ⊆ lines := by
  intro line hline
  rw [h.eq]
  simp only [List.mem_cons, List.mem_append, List.not_mem_nil, or_false] at hline ⊢
  tauto

/-- A block stands alone if its entries are those of a block that stands apart, with or without the
blanks at their ends. -/
theorem ImportBlock.StandsApart.exists_standAlone {b b' : ImportBlock}
    {lines out : List (List Char)} (hapart : b.StandsApart) (hsplits : b.Splits lines)
    (hlines : ∀ line ∈ lines, '\n' ∉ line) (hsplits' : b'.Splits out)
    (hout : ∀ line ∈ out, '\n' ∉ line)
    (hentries : ∀ line ∈ b'.entries,
      ∃ w, (∀ c ∈ w, Text.isBlank c = true) ∧ line ++ w ∈ b.entries) :
    ∃ c, StandAlone (b'.opening :: (b'.entries ++ [b'.closing])) c ∧
      c.count '\n' = b'.entries.length + 2 := by
  refine exists_standAlone_block hsplits'.opening hsplits'.closing
    (fun line hline => hout line (hsplits'.subset hline)) fun line hline => ?_
  obtain ⟨w, hw, hmem⟩ := hentries line hline
  obtain ⟨c, hc⟩ := hapart.entries _ hmem
  exact exists_standAlone_line hc (hlines _ (hsplits.subset (by simp [hmem]))) hw

/-- The lines around a block that stands apart stand alone, and so does the block. -/
theorem ImportBlock.StandsApart.exists_code {b : ImportBlock} {source code : List Char}
    {r₁ r₂ r₃ : List (List Char)} (hapart : b.StandsApart)
    (hsplits : b.Splits (Text.lines source)) (hcuts : b.Cuts source r₁ r₂ r₃)
    (hcode : blank source = .ok code) :
    ∃ head front block rest, StandAlone b.before head ∧ head.count '\n' = b.before.length ∧
      code ++ ['\n'] = front ++ (block ++ rest) ∧ StandAlone r₁ front ∧ StandAlone r₂ block ∧
      StandAlone r₃ rest ∧ front.count '\n' = b.before.length ∧
      textLines (Text.lines front) = textLines (Text.lines head) ∧
      block.count '\n' = b.entries.length + 2 := by
  have hlines : ∀ line ∈ Text.lines source, '\n' ∉ line :=
    fun line hline => Text.newline_notMem_of_mem_lines hline
  have hcutlines := hcuts.lines
  rw [List.forall_mem_append, List.forall_mem_append] at hcutlines
  -- The text before the block stands alone, and so does the block.
  obtain ⟨head, hblank, hheight⟩ := hapart.before
  have hbefore : ∀ line ∈ b.before, '\n' ∉ line :=
    fun line hline => hlines line (by simp [hsplits.eq, hline])
  have hhead := (StandAlone.iff_blank hbefore).2 hblank
  obtain ⟨block, hblock, hblockcount⟩ := hapart.exists_standAlone hsplits hlines hsplits hlines
    fun line hline => ⟨[], by simp, by rwa [List.append_nil]⟩
  -- Both do as they stand in the text, which leaves the text after the block.
  obtain ⟨front, rest, hcut, hfront, hrest, hcount, htext⟩ :=
    (StandAlone.of_blank hcode hcuts.eq).exists_cut hcutlines.1 hcuts.before hhead
  obtain ⟨middle, back, rfl, hmiddle, hback, hcount', -⟩ :=
    hrest.exists_cut hcutlines.2.1 hcuts.block hblock
  exact ⟨head, front, middle, back, hhead, hheight, hcut, hfront, hmiddle, hback,
    hcount.trans hheight, htext, hcount'.trans hblockcount⟩

/-- The lines of a text with a block that stands apart, as they stand in the text: what stands
before the block and what stands after it stand alone. -/
theorem ImportBlock.StandsApart.exists_parts {b : ImportBlock} {source code : List Char}
    (hapart : b.StandsApart) (hsplits : b.Splits (Text.lines source))
    (hcode : blank source = .ok code) :
    ∃ head rest after, StandAlone b.before head ∧ head.count '\n' = b.before.length ∧
      StandAlone after rest ∧ (∀ line ∈ after, '\n' ∉ line) ∧ Thinned after b.after ∧
      textLines (b.outside (Text.lines code)) = textLines (Text.lines head ++ Text.lines rest) := by
  obtain ⟨r₁, r₂, r₃, hcuts⟩ := hsplits.exists_cuts
  obtain ⟨head, front, block, rest, hhead, hheight, hcut, hfront, hblock, hrest, hcount, htext,
    hblockcount⟩ := hapart.exists_code hsplits hcuts hcode
  have hcutlines := hcuts.lines
  rw [List.forall_mem_append, List.forall_mem_append] at hcutlines
  refine ⟨head, rest, r₃, hhead, hheight, hrest, hcutlines.2.2, ?_, ?_⟩
  · obtain ⟨raw, extra, rfl, hraw, hextra⟩ := hcuts.after
    simpa using (thinned_of_forall₂ hraw).append hextra
  · rw [← textLines_outside_concat, hcut, ImportBlock.outside_lines
      (hfront.wholeLines hcutlines.1) hcount (hblock.wholeLines hcutlines.2.1) hblockcount,
      textLines_append, htext, ← textLines_append]

/-! ## The second run -/

/-- Thinned lines that stood alone can be blanked. -/
theorem StandAlone.exists_blank {a b : List (List Char)} {c : List Char} (h : StandAlone a c)
    (hlines : ∀ line ∈ a, '\n' ∉ line) (hthin : Thinned a b) :
    ∃ code, blank (unlines b) = .ok code := by
  obtain ⟨d, hd, -⟩ := h.thinned hlines hthin
  exact ⟨d, (StandAlone.iff_blank (hthin.newline_notMem hlines)).1 hd⟩

/-- A used import is not unused. -/
theorem isUnusedImport_of_isUsedImport {outside : List (List Char)} {line : List Char}
    (h : isUsedImport outside line = true) : isUnusedImport outside line = false := by
  unfold isUsedImport at h
  unfold isUnusedImport
  split at h
  · cases h
  · rw [h]
    rfl

/-- The imports that stay of a block with a used import are used. -/
theorem Thinned.used {entries kept outside outside' : List (List Char)}
    (h : Thinned (entries.filter (!isUnusedImport outside ·)) kept)
    (htext : textLines outside' = textLines outside)
    (hused : entries.any (isUsedImport outside) = true) :
    kept.any (isUsedImport outside') = true ∧
      ∀ line ∈ kept, isUnusedImport outside' line = false := by
  refine ⟨?_, fun line hline => ?_⟩
  · obtain ⟨line, hline, hlineused⟩ := List.any_eq_true.1 hused
    have hstays : (!isUnusedImport outside line) = true := by
      rw [isUnusedImport_of_isUsedImport hlineused]
      rfl
    obtain ⟨line', w, hw, rfl, hmem⟩ := h.exists_of_mem (List.mem_filter.2 ⟨hline, hstays⟩)
      (isWorthKeeping_of_isUsedImport hlineused).2
    rw [isUsedImport_append_blanks _ line' hw] at hlineused
    exact List.any_eq_true.2 ⟨line', hmem, by rw [isUsedImport_congr htext, hlineused]⟩
  · obtain ⟨w, hw, hmem⟩ := h.exists_mem hline
    rw [isUnusedImport_congr htext, ← isUnusedImport_append_blanks _ line hw]
    simpa using (List.mem_filter.1 hmem).2

namespace ImportBlock

variable {b : ImportBlock} {source code : List Char} {out : List (List Char)}

/-- What stays of a text without its block can be blanked. -/
theorem StandsApart.exists_blank_of_removed (hapart : b.StandsApart)
    (hsplits : b.Splits (Text.lines source)) (hcode : blank source = .ok code)
    (hthin : Thinned (b.before ++ b.after) out) : ∃ code', blank (unlines out) = .ok code' := by
  have hlines : ∀ line ∈ b.before, '\n' ∉ line := by
    intro line hline
    refine Text.newline_notMem_of_mem_lines (s := source) ?_
    rw [hsplits.eq]
    exact List.mem_append_left _ hline
  obtain ⟨head, rest, after, hhead, -, hrest, hafterlines, hafter, -⟩ :=
    hapart.exists_parts hsplits hcode
  exact (hhead.append hrest).exists_blank (List.forall_mem_append.2 ⟨hlines, hafterlines⟩)
    (((Thinned.refl b.before).append hafter).trans hthin)

/-- The block of what stays of a text with its block. -/
theorem Splits.exists_kept {lines code out : List (List Char)} (h : b.Splits lines)
    (hused : b.entries.any (isUsedImport (b.outside code)) = true)
    (hthin : Thinned (b.dropUnused code) out) :
    ∃ b' : ImportBlock, b'.Splits out ∧ Thinned b.before b'.before ∧
      Thinned (b.entries.filter (!isUnusedImport (b.outside code) ·)) b'.entries ∧
      Thinned b.after b'.after := by
  have hkept : ImportBlock.Splits
      { b with entries := b.entries.filter (!isUnusedImport (b.outside code) ·) }
      (b.dropUnused code) := by
    refine ⟨?_, h.before, h.opening, fun line hline => ?_, h.closing⟩
    · simp [dropUnused, hused]
    · exact h.entries line (List.mem_filter.1 hline).1
  obtain ⟨b', hsplits, hbefore, -, hentries, -, hafter⟩ := hkept.thinned hthin
  exact ⟨b', hsplits, hbefore, hentries, hafter⟩

/-- What stays of a text with its block can be blanked, and it uses the imports that stay. -/
theorem StandsApart.exists_blank_of_kept (hapart : b.StandsApart)
    (hsplits : b.Splits (Text.lines source)) (hcode : blank source = .ok code)
    (hused : b.entries.any (isUsedImport (b.outside (Text.lines code))) = true)
    (hthin : Thinned (b.dropUnused (Text.lines code)) out) :
    ∃ code', ∃ b' : ImportBlock, blank (unlines out) = .ok code' ∧ b'.Splits out ∧
      b'.entries.any (isUsedImport (b'.outside (Text.lines code'))) = true ∧
      ∀ line ∈ b'.entries, isUnusedImport (b'.outside (Text.lines code')) line = false := by
  have hlines : ∀ line ∈ Text.lines source, '\n' ∉ line :=
    fun line hline => Text.newline_notMem_of_mem_lines hline
  have houtlines := hthin.newline_notMem fun line hline =>
    hlines line ((hsplits.dropUnused_sublist _).subset hline)
  obtain ⟨head, rest, after, hhead, hheight, hrest, hafterlines, hafter, houtside⟩ :=
    hapart.exists_parts hsplits hcode
  obtain ⟨b', hsplits', hbefore, hentries, hafter'⟩ := hsplits.exists_kept hused hthin
  obtain ⟨block, hblock, hblockcount⟩ := hapart.exists_standAlone hsplits hlines hsplits' houtlines
    fun line hline => by
      obtain ⟨w, hw, hmem⟩ := hentries.exists_mem hline
      exact ⟨w, hw, (List.mem_filter.1 hmem).1⟩
  have hout : out = b'.before ++ ((b'.opening :: (b'.entries ++ [b'.closing])) ++ b'.after) := by
    rw [hsplits'.eq]
    simp
  rw [hsplits.eq, List.forall_mem_append] at hlines
  rw [hout] at houtlines
  obtain ⟨hbeforelines, hrestlines⟩ := List.forall_mem_append.1 houtlines
  have hblocklines := (List.forall_mem_append.1 hrestlines).1
  -- What stands before the block and what stands after it stand alone, too.
  obtain ⟨d, hd, htext, hcount⟩ := hhead.thinned hlines.1 hbefore
  obtain ⟨e, he, htext', -⟩ := hrest.thinned hafterlines (hafter.trans hafter')
  have hblank := (StandAlone.iff_blank houtlines).1 (hd.append (hblock.append he))
  rw [← hout] at hblank
  have houtside' : textLines (b'.outside (Text.lines (d ++ (block ++ e))))
      = textLines (b.outside (Text.lines code)) := by
    rw [outside_lines (hd.wholeLines hbeforelines) (by omega)
      (hblock.wholeLines hblocklines) hblockcount, textLines_append, htext, htext',
      ← textLines_append, houtside]
  exact ⟨_, b', hblank, hsplits', hentries.used houtside' hused⟩

end ImportBlock

/-- Whether a text has an import that the code outside its block refers to. -/
def UsesImport (text : List Char) : Prop :=
  ∃ code b, blank text = .ok code ∧ ImportBlock.find? (Text.lines text) = some b ∧
    b.entries.any (isUsedImport (b.outside (Text.lines code))) = true

/-- Whether a text has a block with a used import and without unused ones. -/
def KeepsImports (text : List Char) : Prop :=
  ∃ code b, blank text = .ok code ∧ ImportBlock.find? (Text.lines text) = some b ∧
    b.entries.any (isUsedImport (b.outside (Text.lines code))) = true ∧
    ∀ line ∈ b.entries, isUnusedImport (b.outside (Text.lines code)) line = false

/-- Nothing of a text is dropped with its imports exactly if it has a used import and no unused
one. -/
theorem ImportBlock.Splits.dropUnused_eq_iff {b : ImportBlock} {lines code : List (List Char)}
    (h : b.Splits lines) :
    b.dropUnused code = lines ↔
      b.entries.any (isUsedImport (b.outside code)) = true ∧
        ∀ line ∈ b.entries, isUnusedImport (b.outside code) line = false := by
  constructor
  · intro hdrop
    have heq := h.eq
    rw [← hdrop, ImportBlock.dropUnused_eq_append] at heq
    by_cases hany : b.entries.any (isUsedImport (b.outside code)) = true
    · have hcut : b.before ++ b.opening :: (b.entries ++ b.closing :: b.after)
          = b.before ++ (b.opening :: b.entries ++ [b.closing]) ++ b.after := by simp
      rw [if_pos hany, hcut, List.append_cancel_right_eq, List.append_cancel_left_eq,
        List.append_cancel_right_eq, List.cons_inj_right, List.filter_eq_self] at heq
      exact ⟨hany, fun line hline => by simpa using heq line hline⟩
    · -- Without the block the lines are fewer.
      have hlength := congrArg List.length heq
      rw [if_neg hany] at hlength
      simp only [List.length_append, List.length_cons, List.length_nil] at hlength
      omega
  · rintro ⟨hany, hall⟩
    rw [ImportBlock.dropUnused_eq (List.any_eq_true.1 hany) hall, ← h.eq]

/-- A text keeps its imports exactly if nothing is dropped with them. -/
theorem keepsImports_iff {text code : List Char} {b : ImportBlock} (hcode : blank text = .ok code)
    (hfind : ImportBlock.find? (Text.lines text) = some b) :
    KeepsImports text ↔ b.dropUnused (Text.lines code) = Text.lines text := by
  rw [(ImportBlock.find?_eq_some_iff.1 hfind).dropUnused_eq_iff]
  constructor
  · rintro ⟨code', b', hcode', hfind', hkeeps⟩
    cases hcode.symm.trans hcode'
    cases hfind.symm.trans hfind'
    exact hkeeps
  · exact fun hkeeps => ⟨code, b, hcode, hfind, hkeeps⟩

/-- The canonical form of a text can be made canonical again, and it uses the imports that it
keeps. -/
theorem exists_blank_canonicalize {source out : List Char} (hout : canonicalize source = .ok out)
    (hapart : ∀ b, ImportBlock.find? (Text.lines source) = some b → b.StandsApart) :
    (∃ code, blank out = .ok code) ∧ (UsesImport source → KeepsImports out) := by
  obtain ⟨code, hcode, hunlines, hlines⟩ := lines_canonicalize hout
  cases hfind : ImportBlock.find? (Text.lines source) with
  | none =>
      obtain ⟨raw, extra, hraw, hrawlines, hcut, hextra⟩ := exists_raw source
      have hthin := (thinned_of_forall₂ hcut).append hextra
      rw [List.append_nil] at hthin
      rw [pruneImports, hfind] at hlines
      refine ⟨?_, ?_⟩
      · rw [hunlines, hlines]
        exact (StandAlone.of_blank hcode hraw).exists_blank hrawlines
          (hthin.trans (thinned_settle _))
      · rintro ⟨-, b, -, hb, -⟩
        rw [hfind] at hb
        cases hb
  | some b =>
      have hsplits := ImportBlock.find?_eq_some_iff.1 hfind
      rw [pruneImports, hfind] at hlines
      simp only at hlines
      have hthin := (thinned_tighten (b.dropUnused (Text.lines code))).trans (thinned_settle _)
      rw [← hlines] at hthin
      by_cases hused : b.entries.any (isUsedImport (b.outside (Text.lines code))) = true
      · obtain ⟨code', b', hcode', hsplits', hany, hall⟩ :=
          (hapart b hfind).exists_blank_of_kept hsplits hcode hused hthin
        rw [← hunlines] at hcode'
        exact ⟨⟨code', hcode'⟩, fun _ =>
          ⟨code', b', hcode', ImportBlock.find?_eq_some_iff.2 hsplits', hany, hall⟩⟩
      · refine ⟨?_, ?_⟩
        · rw [ImportBlock.dropUnused, if_neg hused] at hthin
          rw [hunlines]
          exact (hapart b hfind).exists_blank_of_removed hsplits hcode hthin
        · rintro ⟨code', b', hcode', hfind', hused'⟩
          cases hcode.symm.trans hcode'
          cases hfind.symm.trans hfind'
          exact absurd hused' hused

/-- A second run accepts the canonical form of a text.  It changes nothing exactly if no block is
left, or if no empty line stands in front of the end of a block and the imports that are left are
used: those of a block with a used import are, those of a block behind a dropped one may not be. -/
theorem canonicalize_idem_iff {source out : List Char} (hout : canonicalize source = .ok out)
    (hapart : ∀ b, ImportBlock.find? (Text.lines source) = some b → b.StandsApart) :
    ∃ again, canonicalize out = .ok again ∧
      (again = out ↔ ImportBlock.find? (Text.lines out) = none ∨
        (NoGap (Text.lines out) ∧ (UsesImport source ∨ KeepsImports out))) := by
  obtain ⟨⟨code', hcode'⟩, hkeeps⟩ := exists_blank_canonicalize hout hapart
  obtain ⟨code, hcode, hunlines, hlines⟩ := lines_canonicalize hout
  have hlines' : ∀ line ∈ pruneImports (Text.lines out) (Text.lines code'), '\n' ∉ line :=
    fun line hline => Text.newline_notMem_of_mem_lines ((pruneImports_sublist _ _).subset hline)
  refine ⟨unlines (settle (pruneImports (Text.lines out) (Text.lines code'))), ?_, ?_⟩
  · rw [canonicalize, hcode']
    rfl
  have hsame : unlines (settle (pruneImports (Text.lines out) (Text.lines code'))) = out ↔
      settle (pruneImports (Text.lines out) (Text.lines code')) = Text.lines out := by
    refine ⟨fun h => ?_, fun h => by rw [h, ← hunlines]⟩
    rw [← lines_unlines_settle hlines', h]
  rw [hsame]
  cases hfind : ImportBlock.find? (Text.lines source) with
  | none =>
      rw [pruneImports, hfind] at hlines
      have hnone : ImportBlock.find? (Text.lines out) = none := by
        rw [hlines]
        exact (thinned_settle _).find?_eq_none hfind
      rw [pruneImports, hnone]
      simp only [true_or, iff_true]
      rw [hlines, settle_idem]
  | some b =>
      have hsublist := (ImportBlock.find?_eq_some_iff.1 hfind).dropUnused_sublist (Text.lines code)
      rw [pruneImports, hfind] at hlines
      rw [settle_pruneImports_eq_iff
        (fun line hline => Text.newline_notMem_of_mem_lines (hsublist.subset hline)) hlines]
      cases hfind' : ImportBlock.find? (Text.lines out) with
      | none => simp
      | some b' =>
          have hdrop := keepsImports_iff hcode' hfind'
          simp only [Option.some.injEq, forall_eq', reduceCtorEq, false_or, ← hdrop]
          exact ⟨fun h => ⟨h.2, .inr h.1⟩, fun h => ⟨h.2.elim hkeeps id, h.1⟩⟩

/-- A text with an import of each kind, with empty lines at the ends of the block and blanks at the
ends of lines. -/
def looseSource : List Char :=
  "package a\n\n\nimport (\n\n\t\"b\"\n\t_ \"c\"\n\t\"d\" \n\n)\n// a\nd.X\n\n".toList

/-- The text without the unused import and with its white space settled. -/
def settledSource : List Char :=
  "package a\n\nimport (\n\t_ \"c\"\n\t\"d\"\n)\n// a\nd.X\n".toList

/-- The canonical form of the text is its own canonical form. -/
theorem canonicalize_idem_iff_looseSource :
    canonicalize looseSource = .ok settledSource ∧
      (∀ b, ImportBlock.find? (Text.lines looseSource) = some b → b.StandsApart) ∧
      canonicalize settledSource = .ok settledSource := by
  have hout : canonicalize looseSource = .ok settledSource := rfl
  have hfind : ImportBlock.find? (Text.lines looseSource) = some
      { before := ["package a".toList, [], []]
        opening := "import (".toList
        entries := [[], "\t\"b\"".toList, "\t_ \"c\"".toList, "\t\"d\" ".toList, []]
        closing := [')']
        after := ["// a".toList, "d.X".toList, []] } := rfl
  have hapart : ∀ b, ImportBlock.find? (Text.lines looseSource) = some b → b.StandsApart := by
    rw [hfind]
    rintro b ⟨⟩
    refine ⟨⟨_, rfl, rfl⟩, ?_⟩
    simp only [List.forall_mem_cons]
    exact ⟨⟨_, rfl⟩, ⟨_, rfl⟩, ⟨_, rfl⟩, ⟨_, rfl⟩, ⟨_, rfl⟩, by simp⟩
  have hgap : NoGap (Text.lines settledSource) := noGap_of_tighten_eq rfl
  have hused : UsesImport looseSource := ⟨_, _, rfl, hfind, rfl⟩
  obtain ⟨again, hagain, hiff⟩ := canonicalize_idem_iff hout hapart
  refine ⟨hout, hapart, ?_⟩
  rw [hagain, hiff.2 (.inr ⟨hgap, .inl hused⟩)]

/-- A text with two empty lines in front of the end of its block. -/
def gapSource : List Char :=
  "import (\n\t\"os\"\n\n\n)\nos.X\n".toList

/-- A text with two blocks of unused imports. -/
def twoBlockSource : List Char :=
  "import (\n\t\"a\"\n)\nimport (\n\t\"b\"\n)\n".toList

/-- A text with a comment that starts on a line of an unused import. -/
def commentedSource : List Char :=
  "import (\n\t\"os\"\n\t/*x \"a\"\n\t\x7d */\n)\nos.X\n".toList

/-- A second run drops the other empty line or the other block, or it meets the rest of the
comment. -/
theorem canonicalize_not_idem :
    (canonicalize gapSource = .ok "import (\n\t\"os\"\n\n)\nos.X\n".toList ∧
      canonicalize "import (\n\t\"os\"\n\n)\nos.X\n".toList
        = .ok "import (\n\t\"os\"\n)\nos.X\n".toList) ∧
    (canonicalize twoBlockSource = .ok "import (\n\t\"b\"\n)\n".toList ∧
      canonicalize "import (\n\t\"b\"\n)\n".toList = .ok []) ∧
    (canonicalize commentedSource = .ok "import (\n\t\"os\"\n\t\x7d */\n)\nos.X\n".toList ∧
      canonicalize "import (\n\t\"os\"\n\t\x7d */\n)\nos.X\n".toList
        = .error (.unbalanced '\x7d' 3)) :=
  ⟨⟨rfl, rfl⟩, ⟨rfl, rfl⟩, ⟨rfl, rfl⟩⟩

end Program
end Stackwright
