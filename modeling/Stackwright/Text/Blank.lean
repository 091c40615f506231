/-!
# Blank characters and trimming

The blanks are the characters with the `White_Space` property of Unicode. Trimming drops them from the
ends of a text.

Main result:

- Theorem `trimEnd_idem`: trimming the back of a text trimmed there changes nothing.
-/

namespace Stackwright
namespace Text

/-- Whether a character has the `White_Space` property. -/
def isBlank (c : Char) : Bool :=
  let n := c.toNat
  (0x9 ≤ n && n ≤ 0xD) || n == 0x20 || n == 0x85 || n == 0xA0 || n == 0x1680
    || (0x2000 ≤ n && n ≤ 0x200A) || n == 0x2028 || n == 0x2029 || n == 0x202F || n == 0x205F
    || n == 0x3000

/-- Drops the blanks at the front. -/
def trimStart (s : List Char) : List Char :=
  s.dropWhile isBlank

/-- Drops the blanks at the back. -/
def trimEnd (s : List Char) : List Char :=
  (s.reverse.dropWhile isBlank).reverse

/-- Drops the blanks at both ends. -/
def trim (s : List Char) : List Char :=
  trimEnd (trimStart s)

/-- Whether a text holds blanks only. -/
def isAllBlank (s : List Char) : Bool :=
  s.all isBlank

/-- Dropping a front twice is dropping it once. -/
theorem dropWhile_idem (p : Char → Bool) (s : List Char) :
    (s.dropWhile p).dropWhile p = s.dropWhile p := by
  induction s with
  | nil => rfl
  | cons c r ih =>
      by_cases h : p c = true
      · simp [h, ih]
      · simp [h]

/-- Trimming the back of a text trimmed there changes nothing. -/
theorem trimEnd_idem (s : List Char) : trimEnd (trimEnd s) = trimEnd s := by
  simp [trimEnd, dropWhile_idem]

end Text
end Stackwright
