import Mathlib
import Stackwright.Proofs.Program.Settling

/-!
# Canonical form without loss

A canonical text is made of lines that are trimmed and well spaced, and its lines with
text are those of the source: the import block may lose lines, and nothing else does.

Main results:

- Theorem `canonicalLines_settle`: settled lines are trimmed and well spaced.
- Theorem `ImportBlock.exists_kept`: what is left of a text is what stands around its
  block and a selection of the lines of the block.
- Theorem `canonicalize_keeps_text`: the form of a canonical text, and the lines with text
  that it keeps.
-/

namespace Stackwright
namespace Program

/-- Lines without blanks at their ends and without two blank lines in a row, the first and the last
of which have text. -/
structure CanonicalLines (lines : List (List Char)) : Prop where
  trimmed : ∀ line ∈ lines, IsTrimmed line
  head : ∀ line ∈ lines.head?, Text.isAllBlank line = false
  chain : lines.IsChain fun a b => Text.isAllBlank a = true → Text.isAllBlank b = false
  last : ∀ line ∈ lines.getLast?, Text.isAllBlank line = false

/-- A trimmed line is blank only if it is empty. -/
theorem IsTrimmed.isAllBlank_eq_false {line : List Char} (h : IsTrimmed line) (hne : line ≠ []) :
    Text.isAllBlank line = false := by
  rw [← Bool.not_eq_true]
  exact fun hblank => hne (h.eq_nil hblank)

/-- Settled lines are trimmed and well spaced. -/
theorem canonicalLines_settle {lines : List (List Char)} (h : ∀ line ∈ lines, '\n' ∉ line) :
    CanonicalLines (settle lines) := by
  have htrimmed : ∀ line ∈ settle lines, IsTrimmed line := by
    intro line hline
    obtain ⟨raw, hraw, rfl⟩ := List.mem_map.1 ((settle_sublist lines).subset hline)
    exact isTrimmed_trimEnd (h raw hraw)
  obtain ⟨hchain, hlast⟩ := settle_spec lines
  refine ⟨htrimmed, fun line hline => ?_, ?_, fun line hline => ?_⟩
  · exact (htrimmed line (List.mem_of_head? hline)).isAllBlank_eq_false
      (ne_nil_of_mem_head?_settle lines line hline)
  · rw [List.isChain_iff_forall_rel_of_append_cons_cons] at hchain ⊢
    intro a b front back heq hblank
    have ha : a = [] := (htrimmed a (by simp [heq])).eq_nil hblank
    exact (htrimmed b (by simp [heq])).isAllBlank_eq_false (hchain heq ha)
  · exact (htrimmed line (List.mem_of_getLast? hline)).isAllBlank_eq_false (hlast line hline)

/-- A text of such lines is empty or ends with one line end. -/
theorem CanonicalLines.unlines_ending {lines : List (List Char)} (h : CanonicalLines lines) :
    unlines lines = [] ∨ ∃ front c, unlines lines = front ++ [c, '\n'] ∧ c ≠ '\n' := by
  rcases List.eq_nil_or_concat lines with rfl | ⟨front, line, rfl⟩
  · exact .inl rfl
  · rw [List.concat_eq_append] at h ⊢
    have htext : Text.isAllBlank line = false := h.last line (by simp)
    rcases List.eq_nil_or_concat line with rfl | ⟨start, c, rfl⟩
    · cases htext
    · rw [List.concat_eq_append] at h ⊢
      refine .inr ⟨unlines front ++ start, c, by simp [unlines], ?_⟩
      rintro rfl
      exact (h.trimmed (start ++ ['\n']) (by simp)).newline_notMem (by simp)

/-- What is left of a text is what stands around its block and a selection of the lines of the
block. -/
theorem ImportBlock.exists_kept (b : ImportBlock) (code : List (List Char)) :
    ∃ kept, kept.Sublist (b.opening :: b.entries ++ [b.closing]) ∧
      b.dropUnused code = b.before ++ kept ++ b.after := by
  rw [dropUnused_eq_append]
  refine ⟨_, ?_, rfl⟩
  split
  · exact ((List.filter_sublist).cons_cons _).append_right _
  · exact List.nil_sublist _

/-- A canonical text has no line that ends with a blank, no blank first line and no two blank lines
in a row, and it is empty or ends with one line end.  Its lines with text are those of the source
without some of the lines from the start of the import block to its end. -/
theorem canonicalize_keeps_text {source out : List Char} (h : canonicalize source = .ok out) :
    out = unlines (Text.lines out) ∧ CanonicalLines (Text.lines out) ∧
      (out = [] ∨ ∃ front c, out = front ++ [c, '\n'] ∧ c ≠ '\n') ∧
      ((∀ b : ImportBlock, ¬ b.Splits (Text.lines source)) →
        textLines (Text.lines out) = textLines (Text.lines source)) ∧
      ∀ b : ImportBlock, b.Splits (Text.lines source) →
        ∃ kept, kept.Sublist (b.opening :: b.entries ++ [b.closing]) ∧
          textLines (Text.lines out) = textLines b.before ++ textLines kept ++ textLines b.after := by
  obtain ⟨code, hcode, hunlines, hlines⟩ := lines_canonicalize h
  have hcanonical : CanonicalLines (Text.lines out) := by
    rw [hlines]
    exact canonicalLines_settle fun line hline =>
      Text.newline_notMem_of_mem_lines ((pruneImports_sublist _ _).subset hline)
  refine ⟨hunlines, hcanonical, ?_, fun hnone => ?_, fun b hb => ?_⟩
  · rw [hunlines]
    exact hcanonical.unlines_ending
  · have hfind : ImportBlock.find? (Text.lines source) = none := by
      rw [Option.eq_none_iff_forall_ne_some]
      exact fun b hb => hnone b (ImportBlock.find?_eq_some_iff.1 hb)
    rw [hlines, textLines_settle, pruneImports, hfind]
  · obtain ⟨kept, hkept, hdrop⟩ := b.exists_kept (Text.lines code)
    refine ⟨kept, hkept, ?_⟩
    rw [textLines_canonicalize h hcode (ImportBlock.find?_eq_some_iff.2 hb), hdrop,
      textLines_append, textLines_append]

/-- A text with both kinds of line ends and with blanks of several kinds. -/
def untidySource : List Char :=
  "\r\n \npackage a\u3000\r\nimport (\n\n\t\"b\"\n\t\"c\" \n\n)\n\n\u2028\n\nc.X\t\n\n".toList

/-- The text without its unused import and in canonical form. -/
theorem canonicalize_keeps_text_untidySource :
    canonicalize untidySource = .ok "package a\nimport (\n\t\"c\"\n)\n\nc.X\n".toList ∧
      CanonicalLines ["package a".toList, "import (".toList, "\t\"c\"".toList, [')'], [],
        "c.X".toList] := by
  have h : canonicalize untidySource
      = .ok "package a\nimport (\n\t\"c\"\n)\n\nc.X\n".toList := by decide +kernel
  exact ⟨h, (canonicalize_keeps_text h).2.1⟩

end Program
end Stackwright
