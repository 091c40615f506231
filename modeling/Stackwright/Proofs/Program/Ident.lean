import Mathlib
import Stackwright.Program.Ident

/-!
# Exported identifiers

Whatever a name holds, its exported identifier is an identifier: it starts with
a letter, and letters and digits follow.

Main results:

- Theorem `isIdentifier_exported`: an exported identifier is an identifier.
- Theorem `isIdentifier_append`: an identifier stays one with a suffix.
-/

namespace Stackwright
namespace Program

/-- A capital letter or digit is a letter or digit. -/
theorem isAlphanum_toUpper {c : Char} (h : c.isAlphanum = true) : c.toUpper.isAlphanum = true := by
  unfold Char.toUpper
  split
  · rename_i hlower
    simp only [Char.isAlphanum, Char.isAlpha, Char.isUpper, Char.isLower, Char.isDigit,
      Bool.or_eq_true, Bool.and_eq_true, decide_eq_true_eq, UInt32.le_iff_toNat_le,
      UInt32.toNat_add, ge_iff_le] at hlower ⊢
    have hlow : 97 ≤ c.val.toNat := hlower.1
    have hhigh : c.val.toNat ≤ 122 := hlower.2
    have hshift : ('A'.val - 'a'.val).toNat = 2 ^ 32 - 32 := by decide
    refine .inl (.inl ⟨?_, ?_⟩)
    · change 65 ≤ (c.val.toNat + ('A'.val - 'a'.val).toNat) % 2 ^ 32
      omega
    · change (c.val.toNat + ('A'.val - 'a'.val).toNat) % 2 ^ 32 ≤ 90
      omega
  · exact h

theorem isAlphanum_of_mem_joinRuns {start : Bool} {name : List Char} {c : Char}
    (h : c ∈ joinRuns start name) : c.isAlphanum = true := by
  induction name generalizing start with
  | nil => simp [joinRuns] at h
  | cons first rest ih =>
      unfold joinRuns at h
      by_cases hfirst : first.isAlphanum = true
      · rw [if_pos hfirst] at h
        rcases List.mem_cons.1 h with rfl | hrest
        · cases start with
          | false => exact hfirst
          | true => exact isAlphanum_toUpper hfirst
        · exact ih hrest
      · rw [if_neg hfirst] at h
        exact ih h

/-- An exported identifier has letters and digits only. -/
theorem isAlphanum_of_mem_exported {name : List Char} {c : Char} (h : c ∈ exported name) :
    c.isAlphanum = true := by
  have hlead : identLead.all Char.isAlphanum = true := by decide
  dsimp only [exported] at h
  split at h
  · rcases List.mem_append.1 h with h | h
    · exact List.all_eq_true.1 hlead c h
    · exact isAlphanum_of_mem_joinRuns h
  · exact isAlphanum_of_mem_joinRuns h

theorem isIdentChar_of_isAlphanum {c : Char} (h : c.isAlphanum = true) : isIdentChar c = true := by
  rw [isIdentChar, h]
  rfl

/-- An identifier stays one with a suffix. -/
theorem isIdentifier_append {name suffix : List Char} (h : isIdentifier name = true)
    (hsuffix : suffix.all isIdentChar = true) : isIdentifier (name ++ suffix) = true := by
  cases name with
  | nil => cases h
  | cons c rest =>
      rw [isIdentifier, Bool.and_eq_true] at h
      rw [List.cons_append, isIdentifier, h.1, List.all_append, h.2, hsuffix]
      rfl

/-- An exported identifier is an identifier. -/
theorem isIdentifier_exported (name : List Char) : isIdentifier (exported name) = true := by
  have hjoined : (joinRuns true name).all isIdentChar = true := by
    rw [List.all_eq_true]
    exact fun c hc => isIdentChar_of_isAlphanum (isAlphanum_of_mem_joinRuns hc)
  dsimp only [exported]
  split
  · exact isIdentifier_append (by decide) hjoined
  · rename_i hdigit
    cases hruns : joinRuns true name with
    | nil => simp [hruns] at hdigit
    | cons c rest =>
        -- The first character is a letter or digit, and no digit.
        have hc : c.isAlphanum = true :=
          isAlphanum_of_mem_joinRuns (hruns ▸ List.mem_cons_self)
        have hletter : c.isAlpha = true := by
          rw [Char.isAlphanum, Bool.or_eq_true] at hc
          rcases hc with hc | hc
          · exact hc
          · simp [hruns, hc] at hdigit
        rw [hruns, List.all_cons, Bool.and_eq_true] at hjoined
        rw [isIdentifier, isIdentStart, hletter, hjoined.2]
        rfl

end Program
end Stackwright
