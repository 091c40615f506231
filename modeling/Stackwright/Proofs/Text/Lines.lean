import Stackwright.Text.Lines

/-!
# Cutting a text into lines

A line feed cuts a text.  What stands before the first one is the first line, less
a carriage return at its end, and the other lines are those of the rest.

Main results:

- Theorem `lines_line`: the first line of a text.
- Theorem `exists_lines_line`: the first line when it may end with a carriage return.
- Theorem `lines_of_notMem`: a text without a line feed is one line.
-/

namespace Stackwright
namespace Text

@[simp]
theorem lines_newline (s : List Char) : lines ('\n' :: s) = [] :: lines s :=
  rfl

/-- The flag of the reading says that a line feed comes next. -/
theorem flag_eq_true_iff (s : List Char) :
    (s.foldr lineStep (false, [])).1 = true ↔ s.head? = some '\n' := by
  cases s with
  | nil => simp
  | cons c rest =>
      rw [List.foldr_cons, lineStep]
      by_cases hc : c = '\n'
      · simp [hc]
      · rw [if_neg hc]
        split <;> simp [hc]

/-- A character that belongs to a line is put in front of it. -/
theorem lines_cons {c : Char} {s : List Char} (hc : c ≠ '\n')
    (hreturn : c = '\r' → s.head? ≠ some '\n') : lines (c :: s) = consLine c (lines s) := by
  rw [lines, List.foldr_cons, lineStep, if_neg hc, if_neg]
  · rfl
  · rw [Bool.and_eq_true, decide_eq_true_eq, flag_eq_true_iff]
    exact fun h => hreturn h.1 h.2

/-- The first line of a text. -/
theorem lines_line {line : List Char} (hline : '\n' ∉ line) (hreturn : line.getLast? ≠ some '\r')
    (s : List Char) : lines (line ++ '\n' :: s) = line :: lines s := by
  induction line with
  | nil => rfl
  | cons c rest ih =>
      have hc : c ≠ '\n' := fun h => hline (h ▸ List.mem_cons_self)
      have hrest : '\n' ∉ rest := fun h => hline (List.mem_cons_of_mem _ h)
      cases rest with
      | nil =>
          have hne : c ≠ '\r' := by simpa using hreturn
          rw [List.cons_append, lines_cons hc (fun h => absurd h hne)]
          rfl
      | cons d rest =>
          have hd : d ≠ '\n' := fun h => hrest (h ▸ List.mem_cons_self)
          rw [List.getLast?_cons_cons] at hreturn
          rw [List.cons_append, lines_cons hc (by simpa using fun _ => hd), ih hrest hreturn]
          rfl

/-- A carriage return in front of a line feed belongs to the line end. -/
theorem lines_return {line : List Char} (hline : '\n' ∉ line) (s : List Char) :
    lines (line ++ '\r' :: '\n' :: s) = line :: lines s := by
  induction line with
  | nil => rfl
  | cons c rest ih =>
      have hc : c ≠ '\n' := fun h => hline (h ▸ List.mem_cons_self)
      have hrest : '\n' ∉ rest := fun h => hline (List.mem_cons_of_mem _ h)
      have hhead : (rest ++ '\r' :: '\n' :: s).head? ≠ some '\n' := by
        cases rest with
        | nil => simp
        | cons d rest =>
            have hd : d ≠ '\n' := fun h => hrest (h ▸ List.mem_cons_self)
            simpa using hd
      rw [List.cons_append, lines_cons hc fun _ => hhead, ih hrest]
      rfl

/-- What stands before the first line feed becomes the first line, less a carriage return at its
end. -/
theorem exists_lines_line {line : List Char} (hline : '\n' ∉ line) :
    ∃ first, (∀ s, lines (line ++ '\n' :: s) = first :: lines s) ∧
      (line = first ∨ line = first ++ ['\r']) := by
  by_cases hreturn : line.getLast? = some '\r'
  · obtain ⟨front, rfl⟩ := List.getLast?_eq_some_iff.1 hreturn
    have hfront : '\n' ∉ front := fun h => hline (List.mem_append_left _ h)
    refine ⟨front, fun s => ?_, .inr rfl⟩
    rw [List.append_assoc, List.singleton_append, lines_return hfront]
  · exact ⟨line, lines_line hline hreturn, .inl rfl⟩

/-- A text without a line feed is one line. -/
theorem lines_of_notMem {s : List Char} (h : '\n' ∉ s) (hne : s ≠ []) : lines s = [s] := by
  induction s with
  | nil => exact absurd rfl hne
  | cons c rest ih =>
      have hc : c ≠ '\n' := fun heq => h (heq ▸ List.mem_cons_self)
      have hrest : '\n' ∉ rest := fun hmem => h (List.mem_cons_of_mem _ hmem)
      have hhead : rest.head? ≠ some '\n' := fun heq => hrest (List.mem_of_head? heq)
      rw [lines_cons hc fun _ => hhead]
      by_cases hempty : rest = []
      · rw [hempty]
        rfl
      · rw [ih hrest hempty]
        rfl

/-- No line of a text has a line feed in it. -/
theorem newline_notMem_of_mem_lines {s line : List Char} (h : line ∈ lines s) : '\n' ∉ line := by
  induction s generalizing line with
  | nil => cases h
  | cons c rest ih =>
      by_cases hc : c = '\n'
      · rw [hc, lines_newline, List.mem_cons] at h
        rcases h with rfl | h
        · exact List.not_mem_nil
        · exact ih h
      · by_cases hreturn : c = '\r' ∧ rest.head? = some '\n'
        · obtain ⟨rfl, hhead⟩ := hreturn
          obtain ⟨tail, rfl⟩ := List.head?_eq_some_iff.1 hhead
          exact ih h
        · rw [lines_cons hc fun h h' => hreturn ⟨h, h'⟩] at h
          cases hlines : lines rest with
          | nil =>
              rw [hlines, consLine, List.mem_singleton] at h
              rw [h]
              simpa using Ne.symm hc
          | cons first others =>
              rw [hlines, consLine, List.mem_cons] at h
              rw [hlines] at ih
              rcases h with rfl | h
              · rw [List.mem_cons]
                exact not_or.2 ⟨Ne.symm hc, ih List.mem_cons_self⟩
              · exact ih (List.mem_cons_of_mem _ h)

end Text
end Stackwright
