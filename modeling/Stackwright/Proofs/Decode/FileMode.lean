import Stackwright.Decode.Scalar
import Stackwright.Document.Scalar
import Stackwright.Proofs.Decode.Forms
import Stackwright.Proofs.Text.Numeral

/-!
# Spellings of a file mode

A file mode is a number in base eight.  Its digits may be written as they are, behind a
zero or behind the mark `0o`, and in quotes.  Unquoted digits are an integer in base ten
to a document, digits behind a zero are a text, and digits behind the mark are the integer
that they write in base eight.  A mode is read by the digits of its text, and the text of
an integer is its digits in base ten.  So bare digits are taken as they were written, but
an unquoted mark is lost together with the digits behind it: what is read in base eight
then are the digits of the mode in base ten.

Main results:

- Theorems `resolve_digits`, `resolve_zeroLed` and `resolve_marked`: what the unquoted
  spellings are to a document.
- Theorem `fileMode_spellings_iff`: all spellings but one give the mode, and the unquoted
  mark does exactly if the mode has one digit.
-/

namespace Stackwright

open Document (Tree)
open Text

/-! ## Unquoted spellings in a document -/

namespace Document.Scalar

variable {digits rest : List Char} {c : Char}

/-- A text that starts with a digit is neither null nor a truth value. -/
theorem readWord_of_digit (h : IsDigitIn 10 c) (rest : List Char) :
    isNull (String.ofList (c :: rest)) = false ∧ readBool (String.ofList (c :: rest)) = none := by
  -- A bounded test, since a quantifier over characters would be decided for all of them.
  have hword : ∀ word : String, word.toList.head?.all ('9' < ·) = true → word.toList ≠ [] →
      (String.ofList (c :: rest) == word) = false := by
    intro word hhead hne
    rw [beq_eq_false_iff_ne]
    rintro rfl
    have hlt : '9' < c := by simpa using hhead
    exact Char.not_lt.2 (h.le_nine (Nat.le_refl 10)) hlt
  have hempty : (String.ofList (c :: rest)).isEmpty = false := by simp
  constructor
  · rw [isNull, hempty, hword _ (by decide) (by decide), hword _ (by decide) (by decide),
      hword _ (by decide) (by decide), hword _ (by decide) (by decide)]
    rfl
  · rw [readBool, hword _ (by decide) (by decide), hword _ (by decide) (by decide),
      hword _ (by decide) (by decide), hword _ (by decide) (by decide),
      hword _ (by decide) (by decide), hword _ (by decide) (by decide)]
    rfl

/-- A word that starts with a digit is a whole number unless a zero leads it. -/
theorem readInt_of_digit (h : IsDigitIn 10 c) :
    readInt (c :: rest)
      = if isZeroLed (c :: rest) then none else (readMagnitude (c :: rest)).map Int.ofNat := by
  have hge := toNat_zero_le h.1
  unfold readInt
  split
  · rename_i heq
    obtain ⟨rfl, -⟩ := List.cons.inj heq
    exact absurd hge (by decide)
  · rename_i heq
    obtain ⟨rfl, -⟩ := List.cons.inj heq
    exact absurd hge (by decide)
  · rfl

theorem startsSigned_of_digit (h : IsDigitIn 10 c) : startsSigned (c :: rest) = false := by
  have hge := toNat_zero_le h.1
  simp only [startsSigned, List.head?_cons, Option.any_some, Bool.or_eq_false_iff,
    beq_eq_false_iff_ne]
  constructor <;> rintro rfl <;> exact absurd hge (by decide)

/-- An integer that a text spells is its value, if it fits. -/
theorem resolve_of_readInt {n : Nat} (h : IsDigitIn 10 c)
    (hint : readInt (c :: rest) = some (n : Int)) (hn : n < 2 ^ 63) :
    resolve (String.ofList (c :: rest)) = .ok (.int n) := by
  obtain ⟨hnull, hbool⟩ := readWord_of_digit h rest
  have hnearly : nearlyFits n = true := by
    simp only [nearlyFits, Nat.pow_eq, Bool.and_eq_true, decide_eq_true_eq]
    omega
  have hfits : fits n = true := by
    simp only [fits, Nat.pow_eq, Bool.and_eq_true, decide_eq_true_eq]
    omega
  simp only [resolve, hnull, hbool, String.toList_ofList, hint, Option.filter_some, hnearly,
    hfits, if_true, Bool.false_eq_true, if_false]

/-- Unquoted digits are an integer in base ten. -/
theorem resolve_digits (h : IsNumeral 10 digits) (hvalue : valueIn 10 digits < 2 ^ 63) :
    resolve (String.ofList digits) = .ok (.int (valueIn 10 digits)) := by
  obtain ⟨c, rest, rfl, hc, hpos, -⟩ := h.exists_cons (Nat.le_refl 10)
  have hzero : c ≠ '0' := by
    rintro rfl
    exact absurd hpos (by decide)
  have hled : isZeroLed (c :: rest) = false := by
    simp [isZeroLed, startsSigned_of_digit hc, hzero]
  have hbased : readBased (c :: rest) = none := by
    simp [readBased, basedMarks, Ne.symm hzero]
  have hread : readDigits 10 (c :: rest) = some (valueIn 10 (c :: rest)) :=
    readDigits_eq_some_of_digits h.digits h.ne_nil (Nat.le_refl 10)
  refine resolve_of_readInt hc ?_ hvalue
  rw [readInt_of_digit hc, hled, readMagnitude, hbased]
  simp only [startsSigned_of_digit hc, hread, Bool.false_eq_true, if_false]
  rfl

/-- Unquoted digits behind a zero are a text. -/
theorem resolve_zeroLed (h : ∀ c ∈ digits, IsDigitIn 10 c) (hne : digits ≠ []) :
    resolve (String.ofList ('0' :: digits)) = .ok (.text (String.ofList ('0' :: digits))) := by
  have hc : IsDigitIn 10 '0' := ⟨by decide, by decide⟩
  obtain ⟨hnull, hbool⟩ := readWord_of_digit hc digits
  have hdigits : digits.all Char.isDigit = true := by
    rw [List.all_eq_true]
    intro c hmem
    have hle := (h c hmem).le_nine (Nat.le_refl 10)
    have hge := (h c hmem).1
    simpa [Char.isDigit, Char.le_def] using ⟨hge, hle⟩
  have hled : isZeroLed ('0' :: digits) = true := by
    simp [isZeroLed, startsSigned_of_digit hc, hdigits, List.length_pos_iff.2 hne]
  simp only [resolve, hnull, hbool, String.toList_ofList, readInt_of_digit hc, hled, if_true,
    Option.filter_none, Bool.false_eq_true, if_false]

/-- Unquoted digits behind the mark of base eight are an integer in base eight. -/
theorem resolve_marked (h : IsNumeral 8 digits) (hvalue : valueIn 8 digits < 2 ^ 63) :
    resolve (String.ofList ('0' :: 'o' :: digits)) = .ok (.int (valueIn 8 digits)) := by
  have hc : IsDigitIn 10 '0' := ⟨by decide, by decide⟩
  have hmark : Char.isDigit 'o' = false := rfl
  have hled : isZeroLed ('0' :: 'o' :: digits) = false := by
    simp [isZeroLed, startsSigned_of_digit hc, hmark]
  have hbased : readBased ('0' :: 'o' :: digits) = some (8, digits) := by
    simp [readBased, basedMarks]
  have hread : readDigits 8 digits = some (valueIn 8 digits) :=
    readDigits_eq_some_of_digits h.digits h.ne_nil (by decide)
  refine resolve_of_readInt hc ?_ hvalue
  rw [readInt_of_digit hc, hled, readMagnitude, hbased]
  simp only [hread, Bool.false_eq_true, if_false]
  rfl

end Document.Scalar

/-! ## Reading modes -/

namespace Decode

/-- A mode is read from an unquoted scalar. -/
def ReadsPlainMode (place : Place) (written : List Char) (mode : Nat) : Prop :=
  ∃ t, Document.Scalar.resolve (String.ofList written) = .ok t
    ∧ Reader.optFileMode place t = .ok (some mode)

/-- A mode is read from a scalar in quotes. -/
def ReadsQuotedMode (place : Place) (written : List Char) (mode : Nat) : Prop :=
  Reader.optFileMode place (.text (String.ofList written)) = .ok (some mode)

namespace Reader

variable {digits : List Char} {mode : Nat}

/-- A mode that is written as a text is read from this text. -/
theorem optFileMode_text (place : Place) (s : String) :
    optFileMode place (.text s) = (fileModeOf (.text s)).map some :=
  rfl

/-- An integer of sixty-four bits is a scalar. -/
theorem scalar_int (place : Place) {n : Nat} (h : n < 2 ^ 63) :
    scalar place (.int n) = .ok (.int n) := by
  have hrange : -(Nat.pow 2 63 : Int) ≤ n ∧ (n : Int) < Nat.pow 2 63 := by
    simp only [Nat.pow_eq]
    omega
  have hbool : bool.map Scalar.bool .buffered (.int n) = .error .shape := rfl
  have hint : int64.map Scalar.int .buffered (.int n) = .ok (.int n) := by
    simp only [map, int64, intIn, Place.view, hrange]
    rfl
  have htag : (Tree.int n).hasTag = false := rfl
  rw [scalar, oneOf, htag, if_neg Bool.false_ne_true]
  exact (first_of_error hbool).trans (first_of_ok hint)

/-- A mode that is written as a number is read from the number. -/
theorem optFileMode_int (place : Place) {n : Nat} (h : n < 2 ^ 63) :
    optFileMode place (.int n) = (fileModeOf (.int n)).map some := by
  rw [optFileMode, check, optional_of_not_null _ _ rfl, scalar_int place h]
  rfl

/-- A mode is what stands behind its mark, read in base eight. -/
theorem fileModeOf_eq_ok_iff (scalar : Scalar) :
    fileModeOf scalar = .ok mode
      ↔ readNat 8 (Nat.pow 2 32) (modeDigits (trim scalar.string.toList)) = some mode := by
  unfold fileModeOf
  split
  · rename_i read hread
    simp [hread]
  · rename_i hread
    simp [hread]

/-- Digits are read in base eight. -/
theorem readNat_digits (h : ∀ c ∈ digits, IsDigitIn 10 c) :
    readNat 8 (Nat.pow 2 32) digits = some mode
      ↔ readDigits 8 digits = some mode ∧ mode < 2 ^ 32 := by
  have hsign : readNat 8 (Nat.pow 2 32) digits
      = (readDigits 8 digits).filter (· < Nat.pow 2 32) := by
    unfold readNat
    split
    · exact absurd (toNat_zero_le (h '+' (by simp)).1) (by decide)
    · rfl
  rw [hsign, Option.filter_eq_some_iff]
  simp

/-- Digits have no mark in front of them. -/
theorem modeDigits_digits (h : ∀ c ∈ digits, IsDigitIn 10 c) : modeDigits digits = digits := by
  unfold modeDigits
  split
  · exact absurd ((h 'o' (by simp)).le_nine (Nat.le_refl 10)) (by decide)
  · exact absurd ((h 'O' (by simp)).le_nine (Nat.le_refl 10)) (by decide)
  · rfl

theorem trim_of_no_blank {s : List Char} (h : ∀ c ∈ s, isBlank c = false) : trim s = s :=
  trim_eq_self (fun c hc => h c (List.mem_of_mem_head? hc))
    (fun c hc => h c (List.mem_of_mem_getLast? hc))

/-- A scalar whose text is digits gives what these are in base eight. -/
theorem fileModeOf_digits {scalar : Scalar} (h : ∀ c ∈ scalar.string.toList, IsDigitIn 10 c) :
    fileModeOf scalar = .ok mode
      ↔ readDigits 8 scalar.string.toList = some mode ∧ mode < 2 ^ 32 := by
  have htrim := trim_of_no_blank fun c hc => (h c hc).isBlank_eq (Nat.le_refl 10)
  rw [fileModeOf_eq_ok_iff, htrim, modeDigits_digits h, readNat_digits h]

/-- The mark of base eight in a text is dropped. -/
theorem fileModeOf_marked (h : ∀ c ∈ digits, IsDigitIn 10 c) :
    fileModeOf (.text (String.ofList ('0' :: 'o' :: digits))) = .ok mode
      ↔ readDigits 8 digits = some mode ∧ mode < 2 ^ 32 := by
  have hblank : ∀ c ∈ '0' :: 'o' :: digits, isBlank c = false := by
    intro c hc
    simp only [List.mem_cons] at hc
    rcases hc with rfl | rfl | hc
    · rfl
    · rfl
    · exact (h c hc).isBlank_eq (Nat.le_refl 10)
  rw [fileModeOf_eq_ok_iff, Scalar.string, String.toList_ofList, trim_of_no_blank hblank,
    modeDigits, readNat_digits h]

end Reader

variable {digits : List Char} {mode : Nat}

theorem map_some_eq_ok_iff {α : Type} {x : Except Fault α} {a : α} :
    x.map some = .ok (some a) ↔ x = .ok a := by
  cases x <;> simp [Except.map]

/-! ## Spellings -/

/-- A quoted mode is read in base eight. -/
theorem readsQuotedMode_iff (place : Place) (h : ∀ c ∈ digits, IsDigitIn 10 c) :
    ReadsQuotedMode place digits mode ↔ readDigits 8 digits = some mode ∧ mode < 2 ^ 32 := by
  rw [ReadsQuotedMode, Reader.optFileMode_text, map_some_eq_ok_iff, Reader.fileModeOf_digits]
  · rw [Scalar.string, String.toList_ofList]
  · rwa [Scalar.string, String.toList_ofList]

/-- So is one that has a mark in front of its digits. -/
theorem readsQuotedMode_marked_iff (place : Place) (h : ∀ c ∈ digits, IsDigitIn 10 c) :
    ReadsQuotedMode place ('0' :: 'o' :: digits) mode
      ↔ readDigits 8 digits = some mode ∧ mode < 2 ^ 32 := by
  rw [ReadsQuotedMode, Reader.optFileMode_text, map_some_eq_ok_iff, Reader.fileModeOf_marked h]

/-- A plain mode is read from the scalar that the word stands for. -/
theorem readsPlainMode_iff (place : Place) {written : List Char} {t : Tree}
    (h : Document.Scalar.resolve (String.ofList written) = .ok t) :
    ReadsPlainMode place written mode ↔ Reader.optFileMode place t = .ok (some mode) := by
  simp [ReadsPlainMode, h]

/-- An integer gives what its digits in base ten are in base eight. -/
theorem readsPlainMode_int_iff (place : Place) {written : List Char} {n : Nat} (hn : n < 2 ^ 63)
    (h : Document.Scalar.resolve (String.ofList written) = .ok (.int n)) :
    ReadsPlainMode place written mode ↔ readDigits 8 (decimal n) = some mode ∧ mode < 2 ^ 32 := by
  have hstring : (Scalar.int n).string.toList = decimal n := String.toList_ofList
  rw [readsPlainMode_iff place h, Reader.optFileMode_int place hn, map_some_eq_ok_iff,
    Reader.fileModeOf_digits, hstring]
  rw [hstring]
  exact fun c hc => isDigitIn_of_mem_decimal hc

/-- A mode of thirty-two bits has eleven digits at most, so they fit into sixty-three bits as
an integer in base ten. -/
theorem decimal_value_lt (h : IsNumeral 8 digits) (hvalue : valueIn 8 digits < 2 ^ 32) :
    valueIn 10 digits < 2 ^ 63 := by
  have hplaces : 8 ^ (digits.length - 1) < 8 ^ 11 :=
    calc 8 ^ (digits.length - 1) ≤ valueIn 8 digits := h.pow_le_value (by decide)
      _ < 2 ^ 32 := hvalue
      _ < 8 ^ 11 := by decide
  have hlength : digits.length ≤ 11 := by
    have := (Nat.pow_lt_pow_iff_right (by decide)).1 hplaces
    omega
  calc valueIn 10 digits
      < 10 ^ digits.length := (h.mono (by decide)).value_lt_pow (Nat.le_refl 10)
    _ ≤ 10 ^ 11 := Nat.pow_le_pow_right (by decide) hlength
    _ < 2 ^ 63 := by decide

/-- The digits of a mode are read as the mode with or without a zero in front of them, and in
quotes with the mark of base eight too.  Without quotes, the mark gives the mode exactly if
the mode has one digit. -/
theorem fileMode_spellings_iff (place : Place) (h : IsNumeral 8 digits)
    (hvalue : valueIn 8 digits = mode) (hmode : mode < 2 ^ 32) :
    ReadsPlainMode place digits mode ∧ ReadsPlainMode place ('0' :: digits) mode ∧
      ReadsQuotedMode place digits mode ∧ ReadsQuotedMode place ('0' :: 'o' :: digits) mode ∧
      (ReadsPlainMode place ('0' :: 'o' :: digits) mode ↔ mode < 8) := by
  have hten := h.mono (by decide : 8 ≤ 10)
  have hread : readDigits 8 digits = some mode :=
    hvalue ▸ readDigits_eq_some_of_digits h.digits h.ne_nil (by decide)
  have hzeroLed : ∀ c ∈ '0' :: digits, IsDigitIn 10 c :=
    List.forall_mem_cons.2 ⟨⟨by decide, by decide⟩, hten.digits⟩
  refine ⟨?_, ?_, ?_, ?_, ?_⟩
  · have hdecimal := decimal_value_lt h (hvalue.symm ▸ hmode)
    rw [readsPlainMode_int_iff place hdecimal (Document.Scalar.resolve_digits hten hdecimal),
      hten.decimal_value]
    exact ⟨hread, hmode⟩
  · rw [readsPlainMode_iff place (Document.Scalar.resolve_zeroLed hten.digits h.ne_nil)]
    refine (readsQuotedMode_iff place hzeroLed).2 ⟨?_, hmode⟩
    rw [readDigits_zero_cons (by decide) h.ne_nil, hread]
  · exact (readsQuotedMode_iff place hten.digits).2 ⟨hread, hmode⟩
  · exact (readsQuotedMode_marked_iff place hten.digits).2 ⟨hread, hmode⟩
  · have hsmall : mode < 2 ^ 63 := Nat.lt_trans hmode (by decide)
    have hresolve := Document.Scalar.resolve_marked h (hvalue.symm ▸ hsmall)
    rw [hvalue] at hresolve
    rw [readsPlainMode_int_iff place hsmall hresolve, readDigits_decimal_iff (by decide)]
    exact and_iff_left hmode

theorem fileMode_spellings_iff_ownerOnly :
    IsNumeral 8 ['6', '0', '0'] ∧ valueIn 8 ['6', '0', '0'] = 384 ∧
      ReadsPlainMode .buffered ['6', '0', '0'] 384 ∧
      ReadsPlainMode .buffered ['0', '6', '0', '0'] 384 ∧
      ReadsQuotedMode .buffered ['0', 'o', '6', '0', '0'] 384 := by
  have hnumeral : IsNumeral 8 ['6', '0', '0'] := ⟨by simp [IsDigitIn], '6', rfl, by decide⟩
  obtain ⟨hplain, hzeroLed, -, hquoted, -⟩ :=
    fileMode_spellings_iff .buffered hnumeral (by decide : _ = 384) (by decide)
  exact ⟨hnumeral, by decide, hplain, hzeroLed, hquoted⟩

/-- The unquoted mark loses the mode `0o100`, which is read as `0o64`. -/
theorem fileMode_spellings_iff_plainMark :
    IsNumeral 8 ['1', '0', '0'] ∧ valueIn 8 ['1', '0', '0'] = 64 ∧
      ReadsPlainMode .buffered ['0', 'o', '1', '0', '0'] 52 ∧
      ¬ ReadsPlainMode .buffered ['0', 'o', '1', '0', '0'] 64 := by
  have hnumeral : IsNumeral 8 ['1', '0', '0'] := ⟨by simp [IsDigitIn], '1', rfl, by decide⟩
  have hresolve := Document.Scalar.resolve_marked hnumeral (by decide)
  refine ⟨hnumeral, by decide, ?_, ?_⟩
  · exact (readsPlainMode_int_iff .buffered (by decide) hresolve).2 ⟨by decide, by decide⟩
  · rw [readsPlainMode_int_iff .buffered (by decide) hresolve]
    decide

end Decode
end Stackwright
