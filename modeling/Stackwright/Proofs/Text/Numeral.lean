import Mathlib.Tactic.IntervalCases
import Stackwright.Proofs.Text.Blank
import Stackwright.Proofs.Text.Digits
import Stackwright.Text.Digits

/-!
# Numerals

A numeral is a text of digits that does not start with a zero.  It is read as its value
in its base, and its value in base ten is written with the same digits again.  Digits
that are read in a smaller base than the one they are written in give a smaller number,
except for a number of one digit.

Main results:

- Theorem `readDigits_eq_some_of_digits`: digits of a base are read as their value.
- Theorem `IsNumeral.decimal_value`: the decimal digits of the value of a numeral.
- Theorem `readDigits_decimal_iff`: the decimal digits of a number are read as the number
  in a smaller base exactly if there is only one.
-/

namespace Stackwright
namespace Text

/-- Whether a character is one of the digits of a base up to ten. -/
def IsDigitIn (base : Nat) (c : Char) : Prop :=
  '0' ≤ c ∧ c.toNat - '0'.toNat < base

instance (base : Nat) (c : Char) : Decidable (IsDigitIn base c) :=
  inferInstanceAs (Decidable (_ ∧ _))

/-- A text of digits of a base that has a first digit other than zero. -/
structure IsNumeral (base : Nat) (s : List Char) : Prop where
  digits : ∀ c ∈ s, IsDigitIn base c
  head : ∃ c ∈ s.head?, c ≠ '0'

/-- The value of digits in a base. -/
abbrev valueIn (base : Nat) (s : List Char) : Nat :=
  Nat.ofDigitChars base s 0

variable {base : Nat} {c : Char} {s : List Char}

/-! ## Digits of a base -/

/-- A digit of one base is one of every larger base. -/
theorem IsDigitIn.mono {larger : Nat} (h : IsDigitIn base c) (hle : base ≤ larger) :
    IsDigitIn larger c :=
  ⟨h.1, Nat.lt_of_lt_of_le h.2 hle⟩

theorem toNat_zero_le {c : Char} (h : '0' ≤ c) : 48 ≤ c.toNat := by
  rw [Char.le_def, UInt32.le_iff_toNat_le] at h
  exact h

theorem IsDigitIn.toNat_lt (h : IsDigitIn base c) (hbase : base ≤ 10) : c.toNat < 58 := by
  have hdigit : c.toNat - 48 < base := h.2
  omega

theorem IsDigitIn.le_nine (h : IsDigitIn base c) (hbase : base ≤ 10) : c ≤ '9' := by
  have hlt := h.toNat_lt hbase
  rw [Char.le_def, UInt32.le_iff_toNat_le]
  exact Nat.le_of_lt_succ hlt

/-- The value of a digit up to nine is how far it is from zero. -/
theorem IsDigitIn.digitValue_eq (h : IsDigitIn base c) (hbase : base ≤ 10) :
    digitValue c = some (c.toNat - '0'.toNat) := by
  simp [digitValue, h.1, h.le_nine hbase]

/-- A digit is the character of its value. -/
theorem IsDigitIn.digitChar_eq (h : IsDigitIn base c) (hbase : base ≤ 10) :
    Nat.digitChar (c.toNat - '0'.toNat) = c := by
  have hge := toNat_zero_le h.1
  have hlt := h.toNat_lt hbase
  obtain ⟨n, hn⟩ : ∃ n, c.toNat = n := ⟨_, rfl⟩
  have hc : c = Char.ofNat n := by rw [← hn, Char.ofNat_toNat]
  rw [hn] at hge hlt
  subst hc
  interval_cases n <;> rfl

/-- No digit is blank. -/
theorem IsDigitIn.isBlank_eq (h : IsDigitIn base c) (hbase : base ≤ 10) : isBlank c = false := by
  have hge := toNat_zero_le h.1
  have hlt := h.toNat_lt hbase
  simp only [isBlank, Bool.or_eq_false_iff, Bool.and_eq_false_iff, decide_eq_false_iff_not,
    beq_eq_false_iff_ne]
  omega

/-! ## Reading digits -/

/-- A digit is pushed behind a number. -/
theorem pushDigit_eq_some (h : IsDigitIn base c) (hbase : base ≤ 10) (value : Nat) :
    pushDigit base value c = some (base * value + (c.toNat - '0'.toNat)) := by
  rw [pushDigit, h.digitValue_eq hbase]
  simp only [h.2, if_true, Nat.mul_comm]

/-- What is appended to a value is a digit of the base. -/
theorem eq_of_pushDigit {value n : Nat} (hbase : base ≤ 10) (h : pushDigit base value c = some n) :
    n = base * value + (c.toNat - '0'.toNat) := by
  unfold pushDigit digitValue at h
  split at h
  · rename_i d hd
    split at h
    · split at hd
      · cases hd
        rw [Nat.mul_comm]
        exact (Option.some.inj h).symm
      · -- Letters are digits from ten on only.
        split at hd
        · cases hd
          omega
        · split at hd
          · cases hd
            omega
          · cases hd
    · cases h
  · cases h

/-- Digits are pushed one by one. -/
theorem foldlM_pushDigit (h : ∀ c ∈ s, IsDigitIn base c) (hbase : base ≤ 10) (value : Nat) :
    s.foldlM (pushDigit base) value = some (Nat.ofDigitChars base s value) := by
  induction s generalizing value with
  | nil => rfl
  | cons c s ih =>
      obtain ⟨hc, hs⟩ := List.forall_mem_cons.1 h
      rw [List.foldlM_cons, pushDigit_eq_some hc hbase, Nat.ofDigitChars_cons]
      exact ih hs _

/-- What digits are read as is their value. -/
theorem eq_of_foldlM_pushDigit {value n : Nat} (hbase : base ≤ 10)
    (h : s.foldlM (pushDigit base) value = some n) : n = Nat.ofDigitChars base s value := by
  induction s generalizing value with
  | nil => exact (Option.some.inj h).symm
  | cons c s ih =>
      rw [List.foldlM_cons] at h
      obtain ⟨pushed, hpush, hrest⟩ := Option.bind_eq_some_iff.1 h
      rw [Nat.ofDigitChars_cons, ← eq_of_pushDigit hbase hpush]
      exact ih hrest

/-- Digits of a base are read as their value. -/
theorem readDigits_eq_some_of_digits (h : ∀ c ∈ s, IsDigitIn base c) (hne : s ≠ [])
    (hbase : base ≤ 10) : readDigits base s = some (valueIn base s) := by
  rw [readDigits, if_neg (by simpa using hne)]
  exact foldlM_pushDigit h hbase 0

theorem eq_of_readDigits {n : Nat} (hbase : base ≤ 10) (h : readDigits base s = some n) :
    n = valueIn base s := by
  unfold readDigits at h
  split at h
  · cases h
  · exact eq_of_foldlM_pushDigit hbase h

/-- A zero in front of other digits does not count. -/
theorem readDigits_zero_cons (hbase : 0 < base) (hne : s ≠ []) :
    readDigits base ('0' :: s) = readDigits base s := by
  have hzero : pushDigit base 0 '0' = some 0 := by simp [pushDigit, digitValue, hbase]
  rw [readDigits, readDigits, if_neg (by simp), if_neg (by simpa using hne), List.foldlM_cons,
    hzero]
  rfl

/-- A number is written in decimal digits. -/
theorem isDigitIn_of_mem_decimal {n : Nat} (h : c ∈ decimal n) : IsDigitIn 10 c := by
  have hdigit := isDigit_of_mem_decimal h
  simp only [Decimal.isDigit, Bool.and_eq_true, decide_eq_true_eq, Char.le_def,
    UInt32.le_iff_toNat_le] at hdigit
  obtain ⟨hge, hle⟩ := hdigit
  refine ⟨by rwa [Char.le_def, UInt32.le_iff_toNat_le], ?_⟩
  have hnine : c.toNat ≤ 57 := hle
  have hzero : '0'.toNat = 48 := rfl
  omega

/-! ## Digits after a value -/

/-- Each digit moves the value before it up by one place. -/
theorem pow_mul_le_ofDigitChars (base : Nat) (s : List Char) (value : Nat) :
    base ^ s.length * value ≤ Nat.ofDigitChars base s value := by
  induction s generalizing value with
  | nil => simp
  | cons c s ih =>
      rw [Nat.ofDigitChars_cons, List.length_cons, Nat.pow_succ, Nat.mul_assoc]
      exact Nat.le_trans (Nat.mul_le_mul_left _ (Nat.le_add_right _ _)) (ih _)

/-- A number of some digits is less than the power of the base that has one digit more. -/
theorem ofDigitChars_lt_pow_mul (h : ∀ c ∈ s, IsDigitIn base c) (value : Nat) :
    Nat.ofDigitChars base s value < base ^ s.length * (value + 1) := by
  induction s generalizing value with
  | nil => simp
  | cons c s ih =>
      obtain ⟨hc, hs⟩ := List.forall_mem_cons.1 h
      have hdigit : c.toNat - '0'.toNat < base := hc.2
      have hstep : base * value + (c.toNat - '0'.toNat) + 1 ≤ base * (value + 1) := by
        rw [Nat.mul_add, Nat.mul_one]
        omega
      rw [Nat.ofDigitChars_cons, List.length_cons, Nat.pow_succ, Nat.mul_assoc]
      exact Nat.lt_of_lt_of_le (ih hs _) (Nat.mul_le_mul_left _ hstep)

/-- Decimal digits that are appended to a value are written behind its digits. -/
theorem decimal_ofDigitChars (h : ∀ c ∈ s, IsDigitIn 10 c) {value : Nat} (hpos : 0 < value) :
    decimal (Nat.ofDigitChars 10 s value) = decimal value ++ s := by
  induction s generalizing value with
  | nil => simp
  | cons c s ih =>
      obtain ⟨hc, hs⟩ := List.forall_mem_cons.1 h
      have hdigit : Nat.toDigits 10 (c.toNat - '0'.toNat) = [c] := by
        rw [Nat.toDigits_of_lt_base hc.2, hc.digitChar_eq (Nat.le_refl 10)]
      rw [Nat.ofDigitChars_cons, ih hs (by omega), decimal, decimal,
        ← Nat.toDigits_append_toDigits (by decide) hpos hc.2, hdigit, List.append_assoc]
      rfl

/-! ## Numerals -/

namespace IsNumeral

theorem mono {larger : Nat} (h : IsNumeral base s) (hle : base ≤ larger) : IsNumeral larger s :=
  ⟨fun c hc => (h.digits c hc).mono hle, h.head⟩

theorem ne_nil (h : IsNumeral base s) : s ≠ [] := by
  obtain ⟨c, hc, -⟩ := h.head
  rintro rfl
  cases hc

/-- The first digit of a numeral, which is not zero, and the digits after it. -/
theorem exists_cons (h : IsNumeral base s) (hbase : base ≤ 10) :
    ∃ c rest, s = c :: rest ∧ IsDigitIn base c ∧ 0 < c.toNat - '0'.toNat
      ∧ ∀ d ∈ rest, IsDigitIn base d := by
  obtain ⟨c, hc, hzero⟩ := h.head
  obtain ⟨rest, rfl⟩ := List.head?_eq_some_iff.1 hc
  obtain ⟨hdigit, hrest⟩ := List.forall_mem_cons.1 h.digits
  refine ⟨c, rest, rfl, hdigit, Nat.pos_of_ne_zero fun heq => hzero ?_, hrest⟩
  rw [← hdigit.digitChar_eq hbase, heq]
  rfl

/-- The value of a numeral is at least that of its first place. -/
theorem pow_le_value (h : IsNumeral base s) (hbase : base ≤ 10) :
    base ^ (s.length - 1) ≤ valueIn base s := by
  obtain ⟨c, rest, rfl, -, hpos, -⟩ := h.exists_cons hbase
  rw [valueIn, Nat.ofDigitChars_cons, Nat.mul_zero, Nat.zero_add, List.length_cons,
    Nat.add_sub_cancel]
  exact Nat.le_trans (Nat.le_mul_of_pos_right _ hpos) (pow_mul_le_ofDigitChars base rest _)

/-- The value of a numeral is less than that of the place above its first one. -/
theorem value_lt_pow (h : IsNumeral base s) (hbase : base ≤ 10) :
    valueIn base s < base ^ s.length := by
  obtain ⟨c, rest, rfl, hc, -, hrest⟩ := h.exists_cons hbase
  rw [valueIn, Nat.ofDigitChars_cons, Nat.mul_zero, Nat.zero_add, List.length_cons, Nat.pow_succ]
  exact Nat.lt_of_lt_of_le (ofDigitChars_lt_pow_mul hrest _) (Nat.mul_le_mul_left _ hc.2)

/-- The value of a numeral in base ten is written with its digits. -/
theorem decimal_value (h : IsNumeral 10 s) : decimal (valueIn 10 s) = s := by
  obtain ⟨c, rest, rfl, hc, hpos, hrest⟩ := h.exists_cons (Nat.le_refl 10)
  rw [valueIn, Nat.ofDigitChars_cons, Nat.mul_zero, Nat.zero_add,
    decimal_ofDigitChars hrest hpos, decimal, Nat.toDigits_of_lt_base hc.2,
    hc.digitChar_eq (Nat.le_refl 10)]
  rfl

end IsNumeral

/-- The digits of a number in a base, a zero only if the number is zero. -/
theorem isNumeral_toDigits (hone : 1 < base) (hbase : base ≤ 10) {n : Nat} (hpos : 0 < n) :
    IsNumeral base (Nat.toDigits base n) := by
  have hdigit : ∀ d < base, IsDigitIn base (Nat.digitChar d) ∧ (d ≠ 0 → Nat.digitChar d ≠ '0') := by
    intro d hd
    have hten : d < 10 := Nat.lt_of_lt_of_le hd hbase
    refine ⟨⟨?_, ?_⟩, ?_⟩ <;> interval_cases d <;> first | decide | exact hd
  induction n using Nat.strongRecOn with
  | ind n ih =>
      rcases Nat.lt_or_ge n base with hlt | hge
      · obtain ⟨hmem, hzero⟩ := hdigit n hlt
        rw [Nat.toDigits_of_lt_base hlt]
        exact ⟨by simpa using hmem, _, rfl, hzero (Nat.ne_of_gt hpos)⟩
      · have hfront := ih (n / base) (Nat.div_lt_self hpos hone)
          (Nat.div_pos hge (Nat.lt_of_succ_lt hone))
        obtain ⟨c, hc, hne⟩ := hfront.head
        rw [Nat.toDigits_of_base_le hone hge]
        refine ⟨fun d hd => ?_, c, ?_, hne⟩
        rcases List.mem_append.1 hd with hd | hd
        · exact hfront.digits d hd
        · rw [List.mem_singleton.1 hd]
          exact (hdigit _ (Nat.mod_lt n (Nat.lt_of_succ_lt hone))).1
        · rw [List.head?_append, Option.mem_def.1 hc]
          rfl

/-- The digits of a number in a base are read as the number. -/
theorem readDigits_toDigits (hone : 1 < base) (hbase : base ≤ 10) (n : Nat) :
    readDigits base (Nat.toDigits base n) = some n := by
  rcases Nat.eq_zero_or_pos n with rfl | hpos
  · simp [readDigits, pushDigit, digitValue, Nat.lt_of_succ_lt hone]
  · have hnumeral := isNumeral_toDigits hone hbase hpos
    rw [readDigits_eq_some_of_digits hnumeral.digits hnumeral.ne_nil hbase, valueIn,
      Nat.ofDigitChars_toDigits hone hbase]

/-! ## Decimal digits in a smaller base -/

/-- Decimal digits that are read in a smaller base give a smaller number. -/
theorem valueIn_decimal_le (hbase : base ≤ 10) (n : Nat) : valueIn base (decimal n) ≤ n := by
  induction n using Nat.strongRecOn with
  | ind n ih =>
      rcases Nat.lt_or_ge n 10 with hlt | hge
      · rw [decimal, Nat.toDigits_of_lt_base hlt, valueIn,
          Nat.ofDigitChars_cons_digitChar_of_lt_ten hlt, Nat.ofDigitChars_nil]
        omega
      · have hfront : valueIn base (decimal (n / 10)) ≤ n / 10 := ih (n / 10) (by omega)
        rw [decimal, Nat.toDigits_of_base_le (by decide) hge, valueIn, Nat.ofDigitChars_append,
          Nat.ofDigitChars_cons_digitChar_of_lt_ten (Nat.mod_lt n (by decide)),
          Nat.ofDigitChars_nil]
        have hscaled := Nat.mul_le_mul hbase hfront
        rw [valueIn, decimal] at hscaled
        omega

/-- Two digits or more give less in a smaller base. -/
theorem valueIn_decimal_lt {n : Nat} (hbase : base < 10) (hn : 10 ≤ n) :
    valueIn base (decimal n) < n := by
  have hfront := valueIn_decimal_le (Nat.le_of_lt hbase) (n / 10)
  rw [decimal, Nat.toDigits_of_base_le (by decide) hn, valueIn, Nat.ofDigitChars_append,
    Nat.ofDigitChars_cons_digitChar_of_lt_ten (Nat.mod_lt n (by decide)), Nat.ofDigitChars_nil]
  have hscaled := Nat.mul_le_mul (Nat.le_of_lt_succ hbase) hfront
  rw [valueIn, decimal] at hscaled
  omega

/-- The decimal digits of a number are read as the number in a smaller base exactly if there
is only one. -/
theorem readDigits_decimal_iff (hbase : base < 10) (n : Nat) :
    readDigits base (decimal n) = some n ↔ n < base := by
  constructor
  · intro h
    have hvalue := eq_of_readDigits (Nat.le_of_lt hbase) h
    rcases Nat.lt_or_ge n 10 with hlt | hge
    · -- The only digit has to be one of the base.
      rw [decimal, Nat.toDigits_of_lt_base hlt] at h
      have hdigit : digitValue (Nat.digitChar n) = some n := by interval_cases n <;> rfl
      simp only [readDigits, List.isEmpty_cons, Bool.false_eq_true, if_false, List.foldlM_cons,
        pushDigit, hdigit] at h
      split at h
      · assumption
      · cases h
    · exact absurd hvalue (Nat.ne_of_gt (valueIn_decimal_lt hbase hge))
  · intro hlt
    have hten : n < 10 := Nat.lt_trans hlt hbase
    have hdigit : IsDigitIn base (Nat.digitChar n) ∧ (Nat.digitChar n).toNat - '0'.toNat = n := by
      constructor
      · refine ⟨?_, ?_⟩ <;> interval_cases n <;> first | decide | exact hlt
      · interval_cases n <;> rfl
    rw [decimal, Nat.toDigits_of_lt_base hten,
      readDigits_eq_some_of_digits (by simpa using hdigit.1) (by simp) (Nat.le_of_lt hbase),
      valueIn, Nat.ofDigitChars_cons_digitChar_of_lt_ten hten, Nat.ofDigitChars_nil]
    simp

end Text
end Stackwright
