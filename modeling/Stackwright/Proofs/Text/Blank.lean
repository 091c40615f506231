import Mathlib.Data.List.TakeWhile
import Stackwright.Text.Blank

/-!
# Trimmed texts

A text is trimmed exactly if it neither starts nor ends with a blank.

Main results:

- Theorem `trimEnd_eq_self`: a text that does not end with a blank stays as it is.
- Theorem `trim_eq_self`: neither does a text without blanks at both ends change.
- Theorem `head?_trim` and `getLast?_trim`: the ends of a trimmed text.
- Theorem `trim_append_cons`: trimming goes no further than a character that is no
  blank.
-/

namespace Stackwright
namespace Text

/-- A text that does not start with a blank keeps its front. -/
theorem trimStart_eq_self {s : List Char} (h : ∀ c ∈ s.head?, isBlank c = false) :
    trimStart s = s := by
  cases s with
  | nil => rfl
  | cons c rest =>
      have hc := h c rfl
      rw [trimStart, List.dropWhile_cons_of_neg (by simp [hc])]

/-- A text that does not end with a blank keeps its back. -/
theorem trimEnd_eq_self {s : List Char} (h : ∀ c ∈ s.getLast?, isBlank c = false) :
    trimEnd s = s := by
  have hstart : trimStart s.reverse = s.reverse := by
    refine trimStart_eq_self fun c hc => h c ?_
    rwa [List.head?_reverse] at hc
  rw [trimStart] at hstart
  rw [trimEnd, hstart, List.reverse_reverse]

/-- A text without blanks at its ends is trimmed. -/
theorem trim_eq_self {s : List Char} (hhead : ∀ c ∈ s.head?, isBlank c = false)
    (hlast : ∀ c ∈ s.getLast?, isBlank c = false) : trim s = s := by
  rw [trim, trimStart_eq_self hhead, trimEnd_eq_self hlast]

/-- Trimming takes a part of a text. -/
theorem trim_infix (s : List Char) : trim s <:+: s := by
  have hstart : trimStart s <:+: s := (List.dropWhile_suffix isBlank).isInfix
  have hend : trimEnd (trimStart s) <:+: trimStart s := by
    rw [← List.reverse_infix, trimEnd, List.reverse_reverse]
    exact (List.dropWhile_suffix isBlank).isInfix
  exact hend.trans hstart

/-- Blanks in front of a text do not count. -/
theorem trim_append {blanks : List Char} (h : ∀ c ∈ blanks, isBlank c = true) (s : List Char) :
    trim (blanks ++ s) = trim s := by
  rw [trim, trimStart, List.dropWhile_append_of_pos h, trim, trimStart]

/-- The first character of a trimmed text. -/
theorem head?_trim {c : Char} (hc : isBlank c = false) (s : List Char) :
    (trim (c :: s)).head? = some c := by
  have hstart : trimStart (c :: s) = c :: s := by
    apply trimStart_eq_self
    intro d hd
    cases hd
    exact hc
  rw [trim, hstart, trimEnd, List.reverse_cons, List.head?_reverse]
  rw [List.dropWhile_append]
  split
  · rw [List.dropWhile_cons_of_neg (by simp [hc])]
    rfl
  · rw [List.getLast?_concat]

/-- The last character of a trimmed text. -/
theorem getLast?_trim {c : Char} {s : List Char} (hc : isBlank c = false)
    (hlast : s.getLast? = some c) : (trim s).getLast? = some c := by
  obtain ⟨front, rfl⟩ := List.getLast?_eq_some_iff.1 hlast
  have hstart : (trimStart (front ++ [c])).getLast? = some c := by
    rw [trimStart, List.dropWhile_append]
    split
    · rw [List.dropWhile_cons_of_neg (by simp [hc])]
      rfl
    · exact List.getLast?_concat
  rw [trim, trimEnd_eq_self, hstart]
  intro d hd
  rw [hstart] at hd
  cases hd
  exact hc

/-! ## Trimming around a character that is no blank -/

/-- Blanks in front of a character that is none are all that is dropped from the front. -/
theorem trimStart_append {c : Char} (hc : isBlank c = false) (a b : List Char) :
    trimStart (a ++ c :: b) = trimStart a ++ c :: b := by
  rw [trimStart, List.dropWhile_append]
  split
  · rename_i hempty
    rw [List.dropWhile_cons_of_neg (by simp [hc]), trimStart, List.isEmpty_iff.1 hempty]
    rfl
  · rfl

/-- Trimming the back goes no further than a character that is no blank. -/
theorem trimEnd_append {c : Char} (hc : isBlank c = false) (a b : List Char) :
    trimEnd (a ++ c :: b) = a ++ c :: trimEnd b := by
  have hreverse : (a ++ c :: b).reverse = b.reverse ++ c :: a.reverse := by simp
  have hstart := trimStart_append hc b.reverse a.reverse
  rw [trimStart, trimStart] at hstart
  rw [trimEnd, hreverse, hstart, trimEnd]
  simp

/-- A text that is trimmed around a character that is no blank. -/
theorem trim_append_cons {c : Char} (hc : isBlank c = false) (a b : List Char) :
    trim (a ++ c :: b) = trimStart a ++ c :: trimEnd b := by
  rw [trim, trimStart_append hc, trimEnd_append hc]

theorem trimEnd_eq_nil_iff {s : List Char} : trimEnd s = [] ↔ ∀ c ∈ s, isBlank c = true := by
  simp [trimEnd, List.dropWhile_eq_nil_iff]

/-- A text has a first character that is no blank, unless it is blank. -/
theorem isAllBlank_or_exists (s : List Char) :
    (∀ c ∈ s, isBlank c = true) ∨
      ∃ front c back, s = front ++ c :: back ∧ isBlank c = false ∧ ∀ d ∈ front, isBlank d = true := by
  by_cases h : ∀ c ∈ s, isBlank c = true
  · exact .inl h
  · right
    have hne : s.dropWhile isBlank ≠ [] := fun hnil => h (List.dropWhile_eq_nil_iff.1 hnil)
    obtain ⟨c, back, hback⟩ := List.exists_cons_of_ne_nil hne
    refine ⟨s.takeWhile isBlank, c, back, ?_, ?_, fun d hd => List.mem_takeWhile_imp hd⟩
    · rw [← hback, List.takeWhile_append_dropWhile]
    · have hhead := List.head?_dropWhile_not isBlank s
      rw [hback] at hhead
      simpa using hhead

theorem trim_of_isBlank {s : List Char} (h : ∀ c ∈ s, isBlank c = true) : trim s = [] := by
  have hstart : trimStart s = [] := List.dropWhile_eq_nil_iff.2 h
  rw [trim, hstart]
  rfl

/-- Trimming a text after its back was trimmed. -/
theorem trim_trimEnd (s : List Char) : trim (trimEnd s) = trim s := by
  rcases isAllBlank_or_exists s with h | ⟨front, c, back, rfl, hc, hfront⟩
  · rw [trimEnd_eq_nil_iff.2 h, trim_of_isBlank h]
    rfl
  · rw [trimEnd_append hc, trim_append_cons hc, trim_append_cons hc, trimEnd_idem]

/-- Blanks at the back of a text do not count. -/
theorem trimEnd_append_blanks {blanks : List Char} (h : ∀ c ∈ blanks, isBlank c = true)
    (s : List Char) : trimEnd (s ++ blanks) = trimEnd s := by
  rw [trimEnd, List.reverse_append, List.dropWhile_append_of_pos (by simpa using h), trimEnd]

/-- Blanks behind a text do not count. -/
theorem trim_append_blanks {blanks : List Char} (h : ∀ c ∈ blanks, isBlank c = true)
    (s : List Char) : trim (s ++ blanks) = trim s := by
  rw [← trim_trimEnd, trimEnd_append_blanks h, trim_trimEnd]

/-- A text that is trimmed does not start with a blank. -/
theorem isBlank_head_of_trim_eq {s : List Char} (h : trim s = s) :
    ∀ c ∈ s.head?, isBlank c = false := by
  rcases isAllBlank_or_exists s with hblank | ⟨front, c, back, rfl, hc, hfront⟩
  · rw [trim_of_isBlank hblank] at h
    simp [← h]
  · have hstart : trimStart front = [] := List.dropWhile_eq_nil_iff.2 hfront
    rw [trim_append_cons hc, hstart, List.nil_append] at h
    rw [← h]
    simpa using hc

/-- Trimming the back keeps every character that is no blank. -/
theorem mem_trimEnd_iff {c : Char} (hc : isBlank c = false) {s : List Char} :
    c ∈ trimEnd s ↔ c ∈ s := by
  constructor
  · intro hmem
    rw [trimEnd, List.mem_reverse] at hmem
    exact List.mem_reverse.1 ((List.dropWhile_sublist isBlank).mem hmem)
  · intro hmem
    obtain ⟨front, back, rfl⟩ := List.append_of_mem hmem
    rw [trimEnd_append hc]
    exact List.mem_append_right _ List.mem_cons_self

theorem trimEnd_prefix (s : List Char) : trimEnd s <+: s := by
  rw [← List.reverse_suffix, trimEnd, List.reverse_reverse]
  exact List.dropWhile_suffix isBlank

/-- A text that is trimmed at its back does not end with a blank. -/
theorem isBlank_getLast_trimEnd (s : List Char) :
    ∀ c ∈ (trimEnd s).getLast?, isBlank c = false := by
  intro c hc
  rw [trimEnd, List.getLast?_reverse] at hc
  have hhead := List.head?_dropWhile_not isBlank s.reverse
  rw [hc] at hhead
  simpa using hhead

/-- A text is its trimmed form with blanks behind it. -/
theorem exists_blanks_trimEnd (s : List Char) :
    ∃ back, (∀ c ∈ back, isBlank c = true) ∧ s = trimEnd s ++ back := by
  refine ⟨(s.reverse.takeWhile isBlank).reverse, fun c hc => ?_, ?_⟩
  · exact List.mem_takeWhile_imp (List.mem_reverse.1 hc)
  · rw [trimEnd, ← List.reverse_append, List.takeWhile_append_dropWhile, List.reverse_reverse]

/-- A text is its trimmed form between blanks. -/
theorem exists_blanks_trim (s : List Char) :
    ∃ front back, s = front ++ trim s ++ back ∧ (∀ c ∈ front, isBlank c = true) ∧
      ∀ c ∈ back, isBlank c = true := by
  obtain ⟨back, hback, heq⟩ := exists_blanks_trimEnd (trimStart s)
  refine ⟨s.takeWhile isBlank, back, ?_, fun c hc => List.mem_takeWhile_imp hc, hback⟩
  rw [trim, List.append_assoc, ← heq, trimStart, List.takeWhile_append_dropWhile]

end Text
end Stackwright
