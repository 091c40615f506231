import Mathlib.Data.List.TakeWhile
import Stackwright.Proofs.Outcome
import Stackwright.Quantity.Bytes
import Stackwright.Quantity.Duration

/-!
# The grammar of compact texts

A duration is written as amounts with units, and a byte size as one amount, with or without a
unit.  The readers take as much as they can and give nothing back: the digits of an amount, its
fraction, the longer one of two units.  No text of the grammar is lost by that.  An amount ends
where its unit starts, for a unit starts with neither a digit nor a point, and behind a unit
there is a digit or nothing, so that an `m` is never taken for the front of `ms`.

Main results:

- Theorems `Quantity.readAmount_append` and `Quantity.readAmount_eq_some`: an amount is read
  exactly as it is written.
- Theorem `Duration.readParts_written`: so are the parts of a duration.
- Theorem `Duration.written_injective`: a text has at most one cut into parts.
- Theorem `compactTexts_read_iff`: what is read are the texts of the grammar, and nothing else.
-/

namespace Stackwright

/-! ## Amounts -/

namespace Quantity

/-- How an amount is written: its digits, and if it has a fraction a point and more digits. -/
def Amount.text (a : Amount) : List Char :=
  a.whole ++ if a.fraction = [] then [] else '.' :: a.fraction

/-- The number that is written, as the nearest float. -/
def Amount.number (a : Amount) : Float :=
  Decimal.scale (a.whole ++ a.fraction) (-(a.fraction.length : Int))

/-- An amount of digits, with one in front of the point at least. -/
structure Amount.IsNumber (a : Amount) : Prop where
  whole_ne_nil : a.whole ≠ []
  whole : ∀ c ∈ a.whole, Decimal.isDigit c = true
  fraction : ∀ c ∈ a.fraction, Decimal.isDigit c = true

/-- A text that takes no part in a number in front of it. -/
def EndsNumber (rest : List Char) : Prop :=
  ∀ c ∈ rest.head?, Decimal.isDigit c = false ∧ c ≠ '.'

/-- Digits in front of a text that does not start with one. -/
theorem span_digits {digits rest : List Char} (h : ∀ c ∈ digits, Decimal.isDigit c = true)
    (hrest : ∀ c ∈ rest.head?, Decimal.isDigit c = false) :
    (digits ++ rest).takeWhile Decimal.isDigit = digits ∧
      (digits ++ rest).dropWhile Decimal.isDigit = rest := by
  rw [List.takeWhile_append_of_pos h, List.dropWhile_append_of_pos h]
  cases rest with
  | nil => simp
  | cons c rest => simp [hrest c rfl]

/-- What is taken for a fraction is one, and nothing is lost. -/
theorem readFraction_spec (s : List Char) :
    (∀ c ∈ (readFraction s).1, Decimal.isDigit c = true) ∧
      s = (if (readFraction s).1 = [] then [] else '.' :: (readFraction s).1)
        ++ (readFraction s).2 := by
  unfold readFraction
  split
  · rename_i more
    split
    · simp
    · rename_i hne
      refine ⟨fun c hc => List.mem_takeWhile_imp hc, ?_⟩
      rw [if_neg (by simpa using hne), List.cons_append, List.takeWhile_append_dropWhile]
  · simp

theorem readFraction_append {fraction rest : List Char}
    (h : ∀ c ∈ fraction, Decimal.isDigit c = true) (hrest : EndsNumber rest) :
    readFraction ((if fraction = [] then [] else '.' :: fraction) ++ rest) = (fraction, rest) := by
  split
  · rename_i hnil
    subst hnil
    -- What follows is not taken for a fraction, because it does not start with a point.
    unfold readFraction
    split
    · rename_i hpoint
      exact absurd rfl (hrest '.' (by rw [← List.nil_append rest, hpoint]; rfl)).2
    · rfl
  · rename_i hne
    obtain ⟨htake, hdrop⟩ := span_digits h fun c hc => (hrest c hc).1
    rw [List.cons_append, readFraction, htake, hdrop, if_neg (by simpa using hne)]

/-- A text that starts with a digit starts with an amount. -/
theorem readAmount_of_digits {s : List Char} (h : s.takeWhile Decimal.isDigit ≠ []) :
    readAmount s =
      some (⟨s.takeWhile Decimal.isDigit, (readFraction (s.dropWhile Decimal.isDigit)).1⟩,
        (readFraction (s.dropWhile Decimal.isDigit)).2) := by
  rw [readAmount, if_neg (by simpa using h)]

/-- What is read as an amount is one, and nothing is lost. -/
theorem readAmount_eq_some {s rest : List Char} {a : Amount} (h : readAmount s = some (a, rest)) :
    a.IsNumber ∧ s = a.text ++ rest := by
  by_cases hne : s.takeWhile Decimal.isDigit = []
  · rw [readAmount, if_pos (by simpa using hne)] at h
    cases h
  · rw [readAmount_of_digits hne] at h
    obtain ⟨hdigits, hfraction⟩ := readFraction_spec (s.dropWhile Decimal.isDigit)
    cases h
    refine ⟨⟨hne, fun c hc => List.mem_takeWhile_imp hc, hdigits⟩, ?_⟩
    rw [Amount.text, List.append_assoc, ← hfraction, List.takeWhile_append_dropWhile]

/-- A written amount is read where it ends. -/
theorem readAmount_append {a : Amount} (h : a.IsNumber) {rest : List Char}
    (hrest : EndsNumber rest) : readAmount (a.text ++ rest) = some (a, rest) := by
  have hafter : ∀ c ∈ ((if a.fraction = [] then [] else '.' :: a.fraction) ++ rest).head?,
      Decimal.isDigit c = false := by
    split
    · exact fun c hc => (hrest c hc).1
    · intro c hc
      cases hc
      decide
  obtain ⟨htake, hdrop⟩ := span_digits h.whole hafter
  rw [Amount.text, List.append_assoc, readAmount, htake, hdrop,
    readFraction_append h.fraction hrest, if_neg (by simpa using h.whole_ne_nil)]

end Quantity

/-! ## Durations -/

namespace Duration

open Quantity (EndsNumber readAmount readAmount_append readAmount_eq_some)

/-- The ways to write a unit of time. -/
def Unit.spellings : Unit → List (List Char)
  | .nanosecond => [['n', 's']]
  | .microsecond => [['u', 's'], ['µ', 's']]
  | .millisecond => [['m', 's']]
  | .second => [['s']]
  | .minute => [['m']]
  | .hour => [['h']]

/-- How long a unit of time is, in nanoseconds. -/
def Unit.length : Unit → Float
  | .nanosecond => 1.0
  | .microsecond => 1000.0
  | .millisecond => 1000000.0
  | .second => 1000000000.0
  | .minute => 60000000000.0
  | .hour => 3600000000000.0

/-- An amount with a unit, as it is written. -/
structure Part where
  amount : Quantity.Amount
  unit : Unit
  spelling : List Char
  isNumber : amount.IsNumber
  spelled : spelling ∈ unit.spellings

namespace Part

def text (p : Part) : List Char :=
  p.amount.text ++ p.spelling

/-- The amount and the unit that are meant. -/
def value (p : Part) : Quantity.Amount × Unit :=
  (p.amount, p.unit)

/-- How long a part is, in nanoseconds. -/
def length (p : Part) : Float :=
  p.amount.number * p.unit.length

end Part

/-- How a duration is written. -/
def written (parts : List Part) : List Char :=
  parts.flatMap Part.text

/-- How long the parts are together, added from the first one on. -/
def totalLength (parts : List Part) : Float :=
  (parts.map Part.length).foldl (· + ·) 0.0

/-- A compact text stands for no time, or for the sum of its parts, which is rounded to whole
nanoseconds and cut off at sixty-four bits. -/
inductive Denotes : List Char → Duration → Prop where
  | zero : Denotes ['0'] ⟨0⟩
  | sum {parts : List Part} : parts ≠ [] →
      Denotes (written parts) ⟨(totalLength parts).round.toUInt64.toNat⟩

/-- The sum that is read is that of the parts. -/
theorem ofParts_values (parts : List Part) :
    ofParts (parts.map Part.value) = ⟨(totalLength parts).round.toUInt64.toNat⟩ := by
  have hscale (unit : Unit) : unit.scale = unit.length := by cases unit <;> rfl
  have hpart (p : Part) : p.value.1.value * p.value.2.scale = p.length := by
    rw [hscale]
    rfl
  simp only [ofParts, totalLength, List.foldl_map, hpart]

theorem Unit.endsNumber_spelling {unit : Unit} {spelling : List Char}
    (h : spelling ∈ unit.spellings) (rest : List Char) : EndsNumber (spelling ++ rest) := by
  have hletters : ∀ spelling ∈ unit.spellings, ∃ c more, spelling = c :: more ∧
      Decimal.isDigit c = false ∧ c ≠ '.' := by
    cases unit <;> simp [spellings, Decimal.isDigit]
  obtain ⟨c, more, rfl, hc⟩ := hletters spelling h
  intro d hd
  cases hd
  exact hc

/-- A unit is read where none that is longer fits. -/
theorem readUnit_append {unit : Unit} {spelling : List Char} (h : spelling ∈ unit.spellings)
    {rest : List Char} (hrest : ∀ c ∈ rest.head?, c ≠ 's') :
    readUnit (spelling ++ rest) = some (unit, rest) := by
  cases unit with
  | minute =>
      cases List.mem_singleton.1 h
      cases rest with
      | nil => rfl
      | cons c rest =>
          have hc : c ≠ 's' := hrest c rfl
          simp [readUnit, hc]
  | microsecond =>
      rcases List.mem_pair.1 h with rfl | rfl <;> rfl
  | nanosecond | millisecond | second | hour =>
      cases List.mem_singleton.1 h
      rfl

theorem readUnit_eq_some {s rest : List Char} {unit : Unit} (h : readUnit s = some (unit, rest)) :
    ∃ spelling ∈ unit.spellings, s = spelling ++ rest := by
  unfold readUnit at h
  split at h <;> cases h <;> simp [Unit.spellings]

/-- Behind a part there is a digit or nothing. -/
theorem isDigit_of_mem_head?_written {parts : List Part} {c : Char}
    (hc : c ∈ (written parts).head?) : Decimal.isDigit c = true := by
  cases parts with
  | nil => cases hc
  | cons p parts =>
      obtain ⟨d, digits, hwhole⟩ := List.exists_cons_of_ne_nil p.isNumber.whole_ne_nil
      have hd := p.isNumber.whole d (by simp [hwhole])
      have hhead : (written (p :: parts)).head? = some d := by
        simp [written, Part.text, Quantity.Amount.text, hwhole]
      rw [hhead] at hc
      cases hc
      exact hd

/-- One part is read off the front of a written duration. -/
theorem read_front (p : Part) (parts : List Part) :
    readAmount (written (p :: parts)) = some (p.amount, p.spelling ++ written parts) ∧
      readUnit (p.spelling ++ written parts) = some (p.unit, written parts) := by
  constructor
  · rw [written, List.flatMap_cons, Part.text, List.append_assoc]
    exact readAmount_append p.isNumber (p.unit.endsNumber_spelling p.spelled _)
  · refine readUnit_append p.spelled fun c hc => ?_
    rintro rfl
    exact absurd (isDigit_of_mem_head?_written hc) (by decide)

/-- The parts of a text that starts with an amount and a unit. -/
theorem readParts_of_front {s afterAmount rest : List Char} {amount : Quantity.Amount} {unit : Unit}
    (hamount : readAmount s = some (amount, afterAmount))
    (hunit : readUnit afterAmount = some (unit, rest)) :
    readParts s = (readParts rest).map ((amount, unit) :: ·) := by
  cases s with
  | nil => cases hamount
  | cons c s =>
      rw [readParts]
      split
      · rename_i hnone
        rw [hnone] at hamount
        cases hamount
      · rename_i amount' afterAmount' hamount'
        cases hamount.symm.trans hamount'
        split
        · rename_i hnone
          rw [hnone] at hunit
          cases hunit
        · rename_i hunit'
          cases hunit.symm.trans hunit'
          rfl

/-- A written duration is read part by part. -/
theorem readParts_written (parts : List Part) :
    readParts (written parts) = some (parts.map Part.value) := by
  induction parts with
  | nil => rw [written, List.flatMap_nil, readParts, List.map_nil]
  | cons p parts ih =>
      obtain ⟨hamount, hunit⟩ := read_front p parts
      rw [readParts_of_front hamount hunit, ih]
      rfl

/-- What is read as parts is written so, and nothing is left over. -/
theorem exists_written {s : List Char} {values : List (Quantity.Amount × Unit)}
    (h : readParts s = some values) :
    ∃ parts, s = written parts ∧ values = parts.map Part.value := by
  fun_induction readParts s generalizing values with
  | case1 =>
      cases h
      exact ⟨[], rfl, rfl⟩
  | case2 => cases h
  | case3 => cases h
  | case4 c s amount afterAmount hamount unit rest hunit ih =>
      obtain ⟨more, hmore, rfl⟩ := Option.map_eq_some_iff.1 h
      obtain ⟨parts, rfl, rfl⟩ := ih hmore
      obtain ⟨hnumber, htext⟩ := readAmount_eq_some hamount
      obtain ⟨spelling, hspelling, rfl⟩ := readUnit_eq_some hunit
      refine ⟨⟨amount, unit, spelling, hnumber, hspelling⟩ :: parts, ?_, rfl⟩
      rw [htext, ← List.append_assoc]
      rfl

/-- A text is cut into parts in one way at most. -/
theorem written_injective : Function.Injective written := by
  intro parts others h
  induction parts generalizing others with
  | nil =>
      cases others with
      | nil => rfl
      | cons q others =>
          have hamount := (read_front q others).1
          rw [← h] at hamount
          cases hamount
  | cons p parts ih =>
      obtain ⟨hamount, hunit⟩ := read_front p parts
      cases others with
      | nil =>
          rw [h] at hamount
          cases hamount
      | cons q others =>
          -- The same amount is read off both, then the same unit, and so the same text is left.
          obtain ⟨hamount', hunit'⟩ := read_front q others
          rw [h, hamount', Option.some.injEq, Prod.mk.injEq] at hamount
          rw [← hamount.2, hunit', Option.some.injEq, Prod.mk.injEq] at hunit
          obtain ⟨amount, unit, spelling, hnumber, hspelled⟩ := p
          obtain ⟨amount', unit', spelling', hnumber', hspelled'⟩ := q
          obtain ⟨hamounts, hspellings⟩ := hamount
          obtain ⟨hunits, hrests⟩ := hunit
          cases hamounts
          cases hunits
          cases ih hrests.symm
          cases List.append_cancel_right hspellings
          rfl

/-- A written duration has a unit, so it is more than a zero. -/
theorem written_ne_zero (parts : List Part) : written parts ≠ ['0'] := by
  intro hzero
  cases parts with
  | nil => cases hzero
  | cons p parts =>
      obtain ⟨hamount, hunit⟩ := read_front p parts
      rw [hzero] at hamount
      have hrest : p.spelling ++ written parts = [] :=
        congrArg Prod.snd (Option.some.inj hamount).symm
      rw [hrest] at hunit
      cases hunit

/-- A text is read exactly if it stands for a duration, which is the one that is read. -/
theorem parse_eq_ok_iff {text : String} {d : Duration} :
    parse text = .ok d ↔ Denotes (Text.trim text.toList) d := by
  simp only [parse]
  generalize Text.trim text.toList = s
  constructor
  · intro h
    split at h
    · rename_i hzero
      cases h
      rw [hzero]
      exact .zero
    · split at h
      · rename_i part more hparts
        cases h
        obtain ⟨parts, rfl, hvalues⟩ := exists_written hparts
        rw [hvalues, ofParts_values]
        refine .sum fun hnil => ?_
        rw [hnil] at hvalues
        cases hvalues
      · cases h
  · rintro (_ | @⟨parts, hne⟩)
    · rw [if_pos rfl]
    · obtain ⟨p, more, rfl⟩ := List.exists_cons_of_ne_nil hne
      rw [if_neg (written_ne_zero _), readParts_written, ← ofParts_values]
      rfl

/-- A text that stands for no duration is refused as it was, untrimmed. -/
theorem parse_eq_error_iff {text : String} {fault : Fault} :
    parse text = .error fault ↔ (∀ d, ¬ Denotes (Text.trim text.toList) d) ∧ fault = ⟨text⟩ := by
  simp only [← parse_eq_ok_iff]
  refine eq_error_iff (fun fault h => ?_) fault
  simp only [parse] at h
  split at h
  · cases h
  · split at h <;> cases h
    rfl

end Duration

/-! ## Byte sizes -/

namespace ByteSize

open Quantity (EndsNumber readAmount readAmount_append readAmount_eq_some)

/-- The ways to write a unit of size in lower case; bytes need no unit. -/
def Unit.spellings : Unit → List (List Char)
  | .byte => [[], ['b']]
  | .kibi => [['k'], ['k', 'b']]
  | .mebi => [['m'], ['m', 'b']]
  | .gibi => [['g'], ['g', 'b']]

/-- How large a unit of size is, in bytes. -/
def Unit.size : Unit → Float
  | .byte => 1.0
  | .kibi => 1024.0
  | .mebi => 1048576.0
  | .gibi => 1073741824.0

/-- Whether two texts have the same letters, the first in lower case and the second in any. -/
def SameLetters (word s : List Char) : Prop :=
  List.Forall₂ (fun letter c => c = letter ∨ c = letter.toUpper) word s

/-- A compact text stands for no limit, or for an amount of a unit, which is rounded to whole bytes
and cut off at sixty-three bits. -/
inductive Denotes : List Char → Int → Prop where
  | unlimited : Denotes ['-', '1'] (-1)
  | amount {amount : Quantity.Amount} {unit : Unit} {word spelling : List Char} :
      amount.IsNumber → word ∈ unit.spellings → SameLetters word spelling →
        Denotes (amount.text ++ spelling) (amount.number * unit.size).round.toInt64.toInt

/-- The size that is read is that of the amount and its unit. -/
theorem ofParts_eq (amount : Quantity.Amount) (unit : Unit) :
    ofParts amount unit = (amount.number * unit.size).round.toInt64.toInt := by
  have hscale : unit.scale = unit.size := by cases unit <;> rfl
  rw [ofParts, hscale]
  rfl

/-- The letters of units. -/
def unitLetters : List Char :=
  ['b', 'k', 'm', 'g']

theorem toLower_eq_iff {letter : Char} (h : letter ∈ unitLetters) (c : Char) :
    c.toLower = letter ↔ c = letter ∨ c = letter.toUpper := by
  simp only [unitLetters, List.mem_cons, List.not_mem_nil, or_false] at h
  unfold Char.toLower
  split
  · rename_i hupper
    rcases h with rfl | rfl | rfl | rfl <;>
      simp only [Char.ext_iff, UInt32.ext_iff, UInt32.toNat_add, ge_iff_le,
        UInt32.le_iff_toNat_le] at hupper ⊢ <;>
      simp at hupper ⊢ <;> omega
  · rename_i hlower
    rcases h with rfl | rfl | rfl | rfl <;> simp <;> rintro rfl <;> simp at hlower

theorem map_toLower_eq_iff {word : List Char} (h : ∀ letter ∈ word, letter ∈ unitLetters)
    (s : List Char) : s.map Char.toLower = word ↔ SameLetters word s := by
  have hletters : List.Forall₂ (fun letter c => c.toLower = letter) word s ↔
      SameLetters word s :=
    forall₂_congr_of_mem fun letter hletter c => toLower_eq_iff (h letter hletter) c
  have hequal : List.Forall₂ (fun letter c => Char.toLower c = id letter) word s ↔
      s.map Char.toLower = word.map id :=
    forall₂_eq_iff
  rw [← hletters]
  simpa using hequal.symm

theorem Unit.mem_unitLetters {unit : Unit} {word : List Char} (h : word ∈ unit.spellings) :
    ∀ letter ∈ word, letter ∈ unitLetters := by
  cases unit <;> rcases List.mem_pair.1 h with rfl | rfl <;> simp [unitLetters]

/-- A text is read as a unit exactly if it spells it. -/
theorem readUnit_eq_some_iff {s : List Char} {unit : Unit} :
    readUnit s = some unit ↔ ∃ word ∈ unit.spellings, SameLetters word s := by
  have hlower : readUnit s = some unit ↔ s.map Char.toLower ∈ unit.spellings := by
    unfold readUnit
    generalize s.map Char.toLower = word
    constructor
    · intro h
      split at h <;> cases h <;> simp [Unit.spellings]
    · intro h
      cases unit <;> rcases List.mem_pair.1 h with rfl | rfl <;> rfl
  rw [hlower]
  constructor
  · exact fun h => ⟨_, h, (map_toLower_eq_iff (Unit.mem_unitLetters h) s).1 rfl⟩
  · rintro ⟨word, hword, hsame⟩
    rwa [(map_toLower_eq_iff (Unit.mem_unitLetters hword) s).2 hsame]

/-- No unit takes part in the number in front of it. -/
theorem endsNumber_of_sameLetters {unit : Unit} {word spelling : List Char}
    (h : word ∈ unit.spellings) (hsame : SameLetters word spelling) : EndsNumber spelling := by
  intro c hc
  cases hsame with
  | nil => cases hc
  | @cons letter _ _ _ hletter =>
      cases hc
      have hmem := Unit.mem_unitLetters h letter List.mem_cons_self
      simp only [unitLetters, List.mem_cons, List.not_mem_nil, or_false] at hmem
      rcases hmem with rfl | rfl | rfl | rfl <;> rcases hletter with rfl | rfl <;> decide

/-- The amount and the unit that are read are written one after the other. -/
theorem readParts_eq_some_iff {s : List Char} {amount : Quantity.Amount} {unit : Unit} :
    readParts s = some (amount, unit) ↔ amount.IsNumber ∧ ∃ word ∈ unit.spellings, ∃ spelling,
      SameLetters word spelling ∧ s = amount.text ++ spelling := by
  constructor
  · intro h
    unfold readParts at h
    split at h
    · cases h
    · rename_i rest hamount
      obtain ⟨unit, hunit, hpair⟩ := Option.map_eq_some_iff.1 h
      cases hpair
      obtain ⟨hnumber, htext⟩ := readAmount_eq_some hamount
      obtain ⟨word, hword, hsame⟩ := readUnit_eq_some_iff.1 hunit
      exact ⟨hnumber, word, hword, rest, hsame, htext⟩
  · rintro ⟨hnumber, word, hword, spelling, hsame, rfl⟩
    have hamount := readAmount_append hnumber (endsNumber_of_sameLetters hword hsame)
    have hunit := readUnit_eq_some_iff.2 ⟨word, hword, hsame⟩
    rw [readParts, hamount]
    simp only [hunit, Option.map_some]

/-- A text is read exactly if it stands for a size, which is the one that is read. -/
theorem parse_eq_ok_iff {text : String} {n : Int} :
    parse text = .ok n ↔ Denotes (Text.trim text.toList) n := by
  simp only [parse]
  generalize Text.trim text.toList = s
  constructor
  · intro h
    split at h
    · rename_i hunlimited
      cases h
      rw [hunlimited]
      exact .unlimited
    · split at h
      · rename_i amount unit hparts
        cases h
        obtain ⟨hnumber, word, hword, spelling, hsame, rfl⟩ := readParts_eq_some_iff.1 hparts
        rw [ofParts_eq]
        exact .amount hnumber hword hsame
      · cases h
  · rintro (_ | @⟨amount, unit, word, spelling, hnumber, hword, hsame⟩)
    · rw [if_pos rfl]
    · have hparts := readParts_eq_some_iff.2 ⟨hnumber, word, hword, spelling, hsame, rfl⟩
      -- An amount starts with a digit, so the text is not the one for no limit.
      have hlimited : amount.text ++ spelling ≠ ['-', '1'] := by
        intro heq
        rw [heq] at hparts
        cases hparts
      rw [if_neg hlimited, hparts, ← ofParts_eq]

/-- A text that stands for no size is refused as it was, untrimmed. -/
theorem parse_eq_error_iff {text : String} {fault : Fault} :
    parse text = .error fault ↔ (∀ n, ¬ Denotes (Text.trim text.toList) n) ∧ fault = ⟨text⟩ := by
  simp only [← parse_eq_ok_iff]
  refine eq_error_iff (fun fault h => ?_) fault
  simp only [parse] at h
  split at h
  · cases h
  · split at h <;> cases h
    rfl

end ByteSize

/-! ## Both readers -/

/-- A compact text is read exactly if it belongs to its grammar, as what it stands for there.  The
parts of a duration are those of the only cut of its text, and a fault has the text untrimmed. -/
theorem compactTexts_read_iff :
    ((∀ text d, Duration.parse text = .ok d ↔ Duration.Denotes (Text.trim text.toList) d) ∧
      Function.Injective Duration.written ∧
      ∀ text fault, Duration.parse text = .error fault ↔
        (∀ d, ¬ Duration.Denotes (Text.trim text.toList) d) ∧ fault = ⟨text⟩) ∧
    (∀ text n, ByteSize.parse text = .ok n ↔ ByteSize.Denotes (Text.trim text.toList) n) ∧
      ∀ text fault, ByteSize.parse text = .error fault ↔
        (∀ n, ¬ ByteSize.Denotes (Text.trim text.toList) n) ∧ fault = ⟨text⟩ := by
  refine ⟨⟨fun _ _ => ?_, Duration.written_injective, fun _ _ => ?_⟩, fun _ _ => ?_, fun _ _ => ?_⟩
  · exact Duration.parse_eq_ok_iff
  · exact Duration.parse_eq_error_iff
  · exact ByteSize.parse_eq_ok_iff
  · exact ByteSize.parse_eq_error_iff

end Stackwright
