import Stackwright.Program.Printer
import Stackwright.Proofs.Text.Numeral

/-!
# Numbers as they are read

The text of a number is an integer literal of the program, and a literal that starts with a zero
is no decimal one.  So a file mode, which has a zero in front of its octal digits, is read in
octal, and no other number is, because only the number zero has a decimal digit zero in front.
A duration is a number of the largest unit that measures it, and the unit and the number give it
back.

Main results:

- Theorems `readInteger_decimal` and `readInteger_printFileMode`: numbers and file modes are
  read as they were.
- Theorem `exists_largest_unit`: the unit that is chosen measures the duration, and no larger
  one does.
- Theorem `numbers_denote`: all texts of numbers stand for their values.
-/

namespace Stackwright

/-! ## Units of time -/

namespace Duration

/-- Nanoseconds in a unit, as a multiple of the next smaller one. -/
def Unit.nanoseconds : Unit → Nat
  | .nanosecond => 1
  | .microsecond => 1000 * 1
  | .millisecond => 1000 * (1000 * 1)
  | .second => 1000 * (1000 * (1000 * 1))
  | .minute => 60 * (1000 * (1000 * (1000 * 1)))
  | .hour => 60 * (60 * (1000 * (1000 * (1000 * 1))))

/-- The name of a unit in a program. -/
def Unit.constant : Unit → String
  | .nanosecond => "Nanosecond"
  | .microsecond => "Microsecond"
  | .millisecond => "Millisecond"
  | .second => "Second"
  | .minute => "Minute"
  | .hour => "Hour"

/-- Whether no larger unit measures a number of nanoseconds. -/
def Unit.IsLargest (unit : Unit) (n : Nat) : Prop :=
  ∀ larger : Unit, unit.nanoseconds < larger.nanoseconds → ¬ larger.nanoseconds ∣ n

/-- All units, the largest one first. -/
def descendingUnits : List Unit :=
  [.hour, .minute, .second, .millisecond, .microsecond, .nanosecond]

theorem mem_descendingUnits (unit : Unit) : unit ∈ descendingUnits := by
  cases unit <;> decide

theorem pairwise_descendingUnits :
    descendingUnits.Pairwise fun unit later => later.nanoseconds < unit.nanoseconds := by
  decide

end Duration

namespace Program

/-! ## Integer literals -/

/-- The base of an integer literal and its digits.  A zero in front of other digits stands for
base eight, unless a letter behind it names the base. -/
def splitBase : List Char → Nat × List Char
  | '0' :: mark :: rest =>
      if mark = 'x' ∨ mark = 'X' then (16, rest)
      else if mark = 'o' ∨ mark = 'O' then (8, rest)
      else if mark = 'b' ∨ mark = 'B' then (2, rest)
      else (8, mark :: rest)
  | digits => (10, digits)

/-- The value of an integer literal. -/
def readInteger (s : List Char) : Option Nat :=
  Text.readDigits (splitBase s).1 (splitBase s).2

/-- The value of an integer literal with an optional minus sign. -/
def readSigned : List Char → Option Int
  | '-' :: s => (readInteger s).map fun n => -(n : Int)
  | s => (readInteger s).map Int.ofNat

/-- A literal that does not start with a zero is decimal. -/
theorem splitBase_of_head {s : List Char} (h : ∃ c ∈ s.head?, c ≠ '0') : splitBase s = (10, s) := by
  obtain ⟨c, hc, hne⟩ := h
  unfold splitBase
  split
  · exact absurd (Option.some.inj hc).symm hne
  · rfl

/-- A number is read as it is written. -/
theorem readInteger_decimal (n : Nat) : readInteger (Text.decimal n) = some n := by
  rcases Nat.eq_zero_or_pos n with rfl | hpos
  · rfl
  · have hnumeral := Text.isNumeral_toDigits (by decide) (Nat.le_refl 10) hpos
    rw [readInteger, Text.decimal, splitBase_of_head hnumeral.head]
    exact Text.readDigits_toDigits (by decide) (Nat.le_refl 10) n

/-- A file mode is read as it is written, in octal. -/
theorem readInteger_printFileMode (mode : Nat) : readInteger (printFileMode mode) = some mode := by
  rcases Nat.eq_zero_or_pos mode with rfl | hpos
  · rfl
  · have hnumeral : Text.IsNumeral 8 (Nat.toDigits 8 mode) :=
      Text.isNumeral_toDigits (by decide) (by decide) hpos
    obtain ⟨c, rest, hdigits, hc, -, -⟩ := hnumeral.exists_cons (by decide)
    have hnine := hc.le_nine (by decide)
    -- The first octal digit is no letter, so it is no mark of a base.
    have hbase : splitBase ('0' :: c :: rest) = (8, c :: rest) := by
      have hmark : ∀ letter : Char, '9' < letter → c ≠ letter := by
        rintro letter hlt rfl
        exact absurd hnine (by simpa using hlt)
      simp [splitBase, hmark]
    have hread : Text.readDigits 8 (Nat.toDigits 8 mode) = some mode :=
      Text.readDigits_toDigits (by decide) (by decide) mode
    rw [printFileMode, if_neg (Nat.ne_of_gt hpos), readInteger, hdigits, hbase, ← hdigits]
    exact hread

/-- An integer is read as it is written. -/
theorem readSigned_decimalInt (n : Int) : readSigned (Text.decimalInt n) = some n := by
  cases n with
  | ofNat n =>
      have hsign : ∀ s, Text.decimal n ≠ '-' :: s := by
        intro s hs
        exact Text.notMem_decimal (by decide) n (hs ▸ List.mem_cons_self)
      rw [Text.decimalInt, readSigned, readInteger_decimal]
      · rfl
      · exact hsign
  | negSucc n =>
      rw [Text.decimalInt, readSigned, readInteger_decimal]
      rfl

/-! ## Durations -/

theorem timeUnits_eq :
    timeUnits = Duration.descendingUnits.map fun unit => (unit.nanoseconds, unit.constant) := by
  decide

/-- The unit that is found for a duration measures it, and no larger one does. -/
theorem exists_largest_unit (n : Nat) :
    ∃ unit : Duration.Unit,
      timeUnits.find? (fun u => n % u.1 == 0) = some (unit.nanoseconds, unit.constant) ∧
      unit.nanoseconds ∣ n ∧ unit.IsLargest n := by
  have hmeasures : ∀ unit : Duration.Unit,
      (n % unit.nanoseconds == 0) = true ↔ unit.nanoseconds ∣ n := by
    simp [Nat.dvd_iff_mod_eq_zero]
  obtain ⟨unit, hfind⟩ :
      ∃ unit, Duration.descendingUnits.find? (n % ·.nanoseconds == 0) = some unit := by
    rw [← Option.isSome_iff_exists, List.find?_isSome]
    exact ⟨.nanosecond, by decide, (hmeasures .nanosecond).2 (Nat.one_dvd n)⟩
  obtain ⟨hunit, before, after, hsplit, hbefore⟩ := List.find?_eq_some_iff_append.1 hfind
  refine ⟨unit, ?_, (hmeasures unit).1 hunit, fun larger hlarger hdvd => ?_⟩
  · rw [timeUnits_eq, List.find?_map]
    exact congrArg (Option.map _) hfind
  · -- A larger unit stands before the one that is found, so it was tried and did not measure.
    have hmem := Duration.mem_descendingUnits larger
    have hsorted := Duration.pairwise_descendingUnits
    rw [hsplit] at hmem hsorted
    rcases List.mem_append.1 hmem with hmem | hmem
    · exact absurd ((hmeasures larger).2 hdvd) (by simpa using hbefore larger hmem)
    · rcases List.mem_cons.1 hmem with rfl | hmem
      · exact Nat.lt_irrefl _ hlarger
      · have hlater := List.rel_of_pairwise_cons (List.pairwise_append.1 hsorted).2.1 hmem
        exact Nat.lt_asymm hlarger hlater

/-- A duration that is not zero is written as its largest unit, or as a multiple of it. -/
theorem printDuration_of_ne_zero {d : Duration} (h : d.nanoseconds ≠ 0) :
    ∃ (unit : Duration.Unit) (n : Nat), n * unit.nanoseconds = d.nanoseconds ∧
      unit.IsLargest d.nanoseconds ∧
      (n = 1 ∧ printDuration d = "time.".toList ++ unit.constant.toList ∨
        2 ≤ n ∧ printDuration d
          = Text.decimal n ++ " * time.".toList ++ unit.constant.toList) := by
  obtain ⟨unit, hfind, hdvd, hlargest⟩ := exists_largest_unit d.nanoseconds
  obtain ⟨n, hn⟩ := hdvd
  have hsize : 0 < unit.nanoseconds := by
    cases unit <;> decide
  have hquotient : d.nanoseconds / unit.nanoseconds = n := by
    rw [hn, Nat.mul_div_cancel_left n hsize]
  refine ⟨unit, n, by rw [hn, Nat.mul_comm], hlargest, ?_⟩
  rw [printDuration, if_neg h, hfind]
  simp only [Option.getD_some, hquotient]
  split
  · rename_i hone
    exact .inl ⟨hone, rfl⟩
  · rename_i hone
    have hpos : n ≠ 0 := by
      rintro rfl
      exact h (by rw [hn, Nat.mul_zero])
    refine .inr ⟨by omega, ?_⟩
    simp only [List.append_assoc]
    rfl

theorem printDuration_eq_zero_iff {d : Duration} : printDuration d = ['0'] ↔ d.nanoseconds = 0 := by
  constructor
  · intro hzero
    by_contra hne
    have hletter : 't' ∈ printDuration d := by
      obtain ⟨unit, n, -, -, ⟨-, htext⟩ | ⟨-, htext⟩⟩ := printDuration_of_ne_zero hne <;>
        simp [htext]
    rw [hzero] at hletter
    exact absurd hletter (by decide)
  · intro hzero
    rw [printDuration, if_pos hzero]

/-! ## All numbers -/

/-- The text of a duration is `0` exactly if there is none, and otherwise its largest unit or a
multiple of it, which makes the same number of nanoseconds.  File modes, integers and whole
numbers have texts that are read as their values. -/
theorem numbers_denote :
    (∀ d : Duration, ∃ text, (Literal.duration d).print = .ok text ∧
      (text = ['0'] ↔ d.nanoseconds = 0) ∧
      (d.nanoseconds ≠ 0 → ∃ (unit : Duration.Unit) (n : Nat),
        n * unit.nanoseconds = d.nanoseconds ∧ unit.IsLargest d.nanoseconds ∧
        (n = 1 ∧ text = "time.".toList ++ unit.constant.toList ∨
          2 ≤ n ∧ ∃ digits, readInteger digits = some n ∧
            text = digits ++ " * time.".toList ++ unit.constant.toList))) ∧
    (∀ mode, ∃ text, (Literal.fileMode mode).print = .ok text ∧ readInteger text = some mode) ∧
    (∀ value, ∃ text, (Literal.int value).print = .ok text ∧ readSigned text = some value) ∧
    ∀ value, ∃ text, (Literal.uint value).print = .ok text ∧ readInteger text = some value := by
  refine ⟨fun d => ⟨_, rfl, printDuration_eq_zero_iff, fun hne => ?_⟩, fun mode => ⟨_, rfl, ?_⟩,
    fun value => ⟨_, rfl, ?_⟩, fun value => ⟨_, rfl, ?_⟩⟩
  · obtain ⟨unit, n, hn, hlargest, hprint⟩ := printDuration_of_ne_zero hne
    refine ⟨unit, n, hn, hlargest, hprint.imp id fun ⟨htwo, htext⟩ => ?_⟩
    exact ⟨htwo, _, readInteger_decimal n, htext⟩
  · exact readInteger_printFileMode mode
  · exact readSigned_decimalInt value
  · exact readInteger_decimal value

end Program
end Stackwright
