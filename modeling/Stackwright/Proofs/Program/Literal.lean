import Stackwright.Proofs.Program.Layout

/-!
# The texts of literals

What the later modules need to know about the texts of literals: numbers are
written with few characters, and a duration is written as `0`, as a unit of time,
or as a number of units.

Main results:

- Theorem `isNumber_float`: the text of a float keeps to the characters of numbers.
- Theorem `printDuration_cases`: the shapes of a duration.
-/

namespace Stackwright
namespace Program

/-- Whether a character can stand in the text of a number. -/
def isNumberChar (c : Char) : Bool :=
  c.isDigit || ['.', '-', 'e', 'N', 'a', 'i', 'n', 'f'].contains c

/-- A text of a number: not empty, and with the characters of numbers only. -/
structure IsNumber (text : List Char) : Prop where
  ne_nil : text ≠ []
  chars : ∀ c ∈ text, isNumberChar c = true

theorem isNumberChar_of_isDigit {c : Char} (h : c.isDigit = true) : isNumberChar c = true := by
  simp [isNumberChar, h]

/-- The digits of a number in a base up to ten. -/
theorem isNumber_toDigits {base : Nat} (hpos : 0 < base) (hbase : base ≤ 10) (n : Nat) :
    IsNumber (Nat.toDigits base n) where
  ne_nil := by
    intro hnil
    have hlen := Nat.length_toDigits_pos (b := base) (n := n)
    simp [hnil] at hlen
  chars c hc := isNumberChar_of_isDigit (Nat.isDigit_of_mem_toDigits hpos hbase hc)

theorem isNumber_decimal (n : Nat) : IsNumber (Text.decimal n) :=
  isNumber_toDigits (by decide) (by decide) n

/-- A character of numbers in front of a text of them. -/
theorem isNumber_cons {c : Char} {text : List Char} (hc : isNumberChar c = true)
    (h : ∀ d ∈ text, isNumberChar d = true) : IsNumber (c :: text) where
  ne_nil := List.cons_ne_nil c text
  chars := List.forall_mem_cons.2 ⟨hc, h⟩

/-- A whole number is printed as a number, with its sign. -/
theorem isNumber_decimalInt (n : Int) : IsNumber (Text.decimalInt n) := by
  cases n with
  | ofNat n => exact isNumber_decimal n
  | negSucc n => exact isNumber_cons (by decide) (isNumber_decimal (n + 1)).chars

/-- A file mode is printed as a number. -/
theorem isNumber_printFileMode (mode : Nat) : IsNumber (printFileMode mode) := by
  unfold printFileMode
  split
  · exact isNumber_cons (by decide) (by simp)
  · exact isNumber_cons (by decide) (isNumber_toDigits (by decide) (by decide) mode).chars

/-! ## Floats -/

/-- The characters that remain after zeros are dropped were there before. -/
theorem mem_of_mem_stripZeros {digits : List Char} {c : Char} (h : c ∈ Decimal.stripZeros digits) :
    c ∈ digits := by
  simp only [Decimal.stripZeros, List.mem_reverse] at h
  exact List.mem_reverse.1 ((List.dropWhile_sublist _).mem h)

/-- Digits written in place keep to the characters of numbers. -/
theorem isNumber_inPlace {digits : List Char} (h : ∀ c ∈ digits, isNumberChar c = true)
    (point : Int) : IsNumber (Decimal.inPlace .literal digits point) := by
  have hzero : isNumberChar '0' = true := by decide
  have hpoint : isNumberChar '.' = true := by decide
  unfold Decimal.inPlace
  split
  · rw [List.cons_append]
    apply isNumber_cons hzero
    intro c hc
    rw [List.cons_append, List.mem_cons, List.mem_append, List.mem_replicate] at hc
    rcases hc with rfl | ⟨-, rfl⟩ | hc
    · exact hpoint
    · exact hzero
    · exact h c hc
  · split
    · refine ⟨by simp [Decimal.Style.literal], ?_⟩
      intro c hc
      simp only [Decimal.Style.literal, if_true, List.mem_append, List.mem_replicate,
        List.mem_cons, List.not_mem_nil, or_false] at hc
      rcases hc with (hc | ⟨-, rfl⟩) | rfl | rfl
      · exact h c hc
      · exact hzero
      · exact hpoint
      · exact hzero
    · refine ⟨by simp, ?_⟩
      intro c hc
      simp only [List.mem_append, List.mem_cons] at hc
      rcases hc with hc | rfl | hc
      · exact h c (List.mem_of_mem_take hc)
      · exact hpoint
      · exact h c (List.mem_of_mem_drop hc)

/-- Digits written with an exponent keep to the characters of numbers. -/
theorem isNumber_withExponent {digits : List Char} (h : ∀ c ∈ digits, isNumberChar c = true)
    (exponent : Int) : IsNumber (Decimal.withExponent digits exponent) := by
  refine ⟨by simp [Decimal.withExponent], ?_⟩
  intro c hc
  simp only [Decimal.withExponent, List.mem_append, List.mem_cons] at hc
  rcases hc with (hc | hc) | rfl | hc
  · exact h c (List.mem_of_mem_take hc)
  · split at hc
    · simp at hc
    · rcases List.mem_cons.1 hc with rfl | hc
      · decide
      · exact h c (List.mem_of_mem_drop hc)
  · decide
  · exact (isNumber_decimalInt exponent).chars c hc

/-- The text of a float keeps to the characters of numbers, also where it is no
finite number. -/
theorem isNumber_float (x : Float) : IsNumber (Decimal.Style.literal.text x) := by
  have hmagnitude : ∀ m q, IsNumber (Decimal.Style.literal.magnitude m q) := by
    intro m q
    have hdigits : ∀ n, ∀ c ∈ Decimal.stripZeros (Text.decimal n), isNumberChar c = true :=
      fun n c hc => (isNumber_decimal n).chars c (mem_of_mem_stripZeros hc)
    simp only [Decimal.Style.magnitude]
    split
    · exact isNumber_inPlace (hdigits _) _
    · exact isNumber_withExponent (hdigits _) _
  have hsign : ∀ (negative : Bool) {text : List Char}, IsNumber text →
      IsNumber ((if negative then ['-'] else []) ++ text) := by
    intro negative text h
    cases negative with
    | false => exact h
    | true => exact isNumber_cons (by decide) h.chars
  unfold Decimal.Style.text
  split
  · exact ⟨by decide, List.all_eq_true.1 (by decide)⟩
  · exact hsign _ ⟨by decide, List.all_eq_true.1 (by decide)⟩
  · apply hsign _
    split
    · exact ⟨by decide, List.all_eq_true.1 (by decide)⟩
    · exact hmagnitude _ _

/-! ## Durations -/

/-- The names of the units of time. -/
def timeUnitNames : List String :=
  timeUnits.map (·.2)

/-- A duration that is not zero is written as a unit of time, with a number of
units in front of it unless it is one. -/
theorem printDuration_cases {d : Duration} (h : d.isZero = false) :
    ∃ unit ∈ timeUnitNames,
      printDuration d = qualifier .time ++ unit.toList ∨
        ∃ n, printDuration d
          = Text.decimal n ++ [' ', '*', ' '] ++ qualifier .time ++ unit.toList := by
  have hne : d.nanoseconds ≠ 0 := by
    simpa [Duration.isZero] using h
  generalize hchosen :
    (timeUnits.find? fun u => d.nanoseconds % u.1 == 0).getD (1, "Nanosecond") = chosen
  have hmem : chosen ∈ timeUnits := by
    subst hchosen
    cases hfind : timeUnits.find? fun u => d.nanoseconds % u.1 == 0 with
    | none => decide
    | some u => exact List.mem_of_find?_eq_some hfind
  obtain ⟨size, unit⟩ := chosen
  refine ⟨unit, List.mem_map_of_mem hmem, ?_⟩
  simp only [printDuration, hne, if_false, hchosen]
  split
  · exact .inl rfl
  · exact .inr ⟨d.nanoseconds / size, by simp⟩

theorem printDuration_of_isZero {d : Duration} (h : d.isZero = true) : printDuration d = ['0'] := by
  have hzero : d.nanoseconds = 0 := by
    simpa [Duration.isZero] using h
  simp [printDuration, hzero]

end Program
end Stackwright
