import CircuitGrid.Binary64
import CircuitGrid.Decimal

/-!
# The fewest digits that read back

Every real number closer to a floating-point number than to any of its
neighbours reads back as that number; these reals form an interval, whose ends
belong to it when the significand is even. `Dyadic.shortest` finds the decimal
number with the fewest digits in the interval and, among those, the one nearest
to the exact value. All comparisons are of whole numbers.
-/

namespace CircuitGrid

/-- Which of two equally near decimal numbers is taken. -/
inductive Tie where
  /-- The larger one. -/
  | up
  /-- The one whose last digit is even. -/
  | toEven
  deriving DecidableEq, Repr

/-- The quotient rounded to the nearest whole number. -/
def roundQuotient (tie : Tie) (numerator denominator : Nat) : Nat :=
  let quotient := numerator / denominator
  let rest := numerator % denominator
  if 2 * rest < denominator then quotient
  else if denominator < 2 * rest then quotient + 1
  else match tie with
    | .up => quotient + 1
    | .toEven => if quotient % 2 = 0 then quotient else quotient + 1

namespace Dyadic

/-- Four times the value and the two ends of its rounding interval, each as a
multiple of `2 ^ (exponent - 2)`.

The interval reaches half a unit to either side. Below a power of two the
neighbouring numbers are twice as dense, so that the lower half is halved. -/
def roundingInterval (d : Dyadic) : Nat × Nat × Nat :=
  let lower := if d.significand = hiddenBit ∧ -1074 < d.exponent then 1 else 2
  (4 * d.significand - lower, 4 * d.significand, 4 * d.significand + 2)

/-- The power of ten just above the magnitude: the least `p` such that the
magnitude is below `10 ^ p`. A zero has none; 0 stands in for it. -/
def decimalMagnitude (d : Dyadic) : Int :=
  let (numerator, denominator) := d.magnitude
  let scaled := numerator * tenTo 340 / denominator
  if scaled = 0 then 0 else ((decimalDigits scaled).length : Int) - 340

/-- The point of the grid of multiples of `10 ^ exponent` that lies in the
rounding interval and nearest to the value, if the interval meets the grid. -/
def nearestOnGrid? (tie : Tie) (d : Dyadic) (exponent : Int) : Option Nat :=
  let (low, value, high) := d.roundingInterval
  -- one multiple of 2 ^ (d.exponent - 2), measured in steps of the grid
  let binary := d.exponent - 2
  let stepUp := tenTo (-exponent).toNat <<< binary.toNat
  let stepDown := tenTo exponent.toNat <<< (-binary).toNat
  let inside (point : Nat) : Bool :=
    if d.significand % 2 = 0 then
      low * stepUp ≤ point * stepDown && point * stepDown ≤ high * stepUp
    else
      low * stepUp < point * stepDown && point * stepDown < high * stepUp
  let below := value * stepUp / stepDown
  match inside below, inside (below + 1) with
  | false, false => none
  | true, false => some below
  | false, true => some (below + 1)
  | true, true => some (roundQuotient tie (value * stepUp) stepDown)

/-- The shortest decimal number that reads back as the given one, nearest to it
among those of that length. Seventeen digits always suffice. -/
def shortest (tie : Tie) (d : Dyadic) : Decimal :=
  if d.significand = 0 then ⟨d.negative, 0, 0⟩
  else
    let top := d.decimalMagnitude
    let found := (List.range 17).findSome? fun fewer =>
      let exponent := top - (fewer + 1 : Nat)
      (d.nearestOnGrid? tie exponent).map fun digits => (⟨d.negative, digits, exponent⟩ : Decimal)
    (found.getD ⟨d.negative, 0, 0⟩).trimZeros

/-- The magnitude rounded to a whole number of units of `10 ^ (-places)`. -/
def roundToPlaces (tie : Tie) (places : Nat) (d : Dyadic) : Nat :=
  let (numerator, denominator) := d.magnitude
  roundQuotient tie (numerator * tenTo places) denominator

end Dyadic

end CircuitGrid
