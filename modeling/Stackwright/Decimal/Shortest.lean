/-!
# The shortest decimal of a binary number

Among the decimals that read back as `m · 2 ^ q`, the shortest has the fewest digits and is the nearest of
those. The grids of one digit, two digits and so on are searched in turn, and on each grid only the two
neighbours of the value have to be looked at. All arithmetic is exact.
-/

namespace Stackwright
namespace Decimal

/-- The number `digits · 10 ^ exponent`. -/
structure Scientific where
  digits : Nat
  exponent : Int
deriving DecidableEq, Repr

/-- A power of the base with an exponent of either sign, as numerator and denominator. -/
def power (base : Nat) (exponent : Int) : Nat × Nat :=
  if 0 ≤ exponent then (base.pow exponent.toNat, 1) else (1, base.pow (-exponent).toNat)

/-- The point `digits · 10 ^ k` of a grid compared with `quarters · 2 ^ (q - 2)`. -/
def compareGrid (k q : Int) (digits quarters : Nat) : Ordering :=
  let (tn, td) := power 10 k
  let (bn, bd) := power 2 (q - 2)
  compare (digits * tn * bd) (quarters * bn * td)

/-- The largest point of the grid `10 ^ k` that is not above `quarters · 2 ^ (q - 2)`. -/
def gridFloor (k q : Int) (quarters : Nat) : Nat :=
  let (tn, td) := power 10 k
  let (bn, bd) := power 2 (q - 2)
  quarters * bn * td / (tn * bd)

/-- The exponent of the leading decimal digit of `m · 2 ^ q`. -/
def leadingExponent (m : Nat) (q : Int) : Int :=
  let guess := ((m.log2 : Int) + q) * 30103 / 100000
  if compareGrid (guess + 1) q 1 (4 * m) != .gt then guess + 1
  else if compareGrid guess q 1 (4 * m) == .gt then guess - 1
  else guess

/-- Whether a point of the grid `10 ^ k` reads back as `m · 2 ^ q`. The numbers that do lie half a unit
around it, but only a quarter below a power of two; the ends belong to an even `m`. -/
def readsBack (m : Nat) (q k : Int) (digits : Nat) : Bool :=
  let low := if m = Nat.pow 2 52 ∧ -1074 < q then 4 * m - 1 else 4 * m - 2
  let high := 4 * m + 2
  let above := compareGrid k q digits low
  let below := compareGrid k q digits high
  let even := m % 2 == 0
  (above == .gt || (even && above == .eq)) && (below == .lt || (even && below == .eq))

/-- The neighbour of `m · 2 ^ q` on the grid `10 ^ k` that reads back, the nearer one if both do. -/
def neighbour? (m : Nat) (q k : Int) : Option Nat :=
  let floor := gridFloor k q (4 * m)
  match readsBack m q k floor, readsBack m q k (floor + 1) with
  | true, false => some floor
  | false, true => some (floor + 1)
  | true, true =>
      let (tn, td) := power 10 k
      let (bn, bd) := power 2 (q - 2)
      let value := 2 * (4 * m) * bn * td
      let middle := (2 * floor + 1) * tn * bd
      some (if value < middle then floor else floor + 1)
  | false, false => none

/-- The shortest decimal that reads back as `m · 2 ^ q`, for a positive `m`. -/
def shortest (m : Nat) (q : Int) : Scientific :=
  let lead := leadingExponent m q
  let hit := (List.range 17).findSome? fun (d : Nat) =>
    let k := lead - Int.ofNat d
    (neighbour? m q k).map fun digits => Scientific.mk digits k
  hit.getD ⟨m, 0⟩

end Decimal
end Stackwright
