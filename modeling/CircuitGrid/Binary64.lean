/-!
# Binary floating-point numbers as exact fractions

A finite floating-point number is `± significand · 2 ^ exponent`. `Dyadic`
holds these three parts, so that questions about its decimal digits or its
remainder can be answered in whole numbers, without rounding.
-/

namespace CircuitGrid

/-- The number `± significand · 2 ^ exponent`. -/
structure Dyadic where
  negative : Bool
  significand : Nat
  exponent : Int
  deriving DecidableEq, Repr

namespace Dyadic

/-- The leading one, worth `2 ^ 52` units, which the bits of a number leave out. -/
def hiddenBit : Nat := 0x10000000000000

/-- The parts of a finite number; infinities and not-a-number have none.

The 64 bits hold a sign, eleven bits of biased exponent and 52 bits of
fraction. The smallest biased exponent marks numbers without the implied
leading one, the largest marks what is not finite. -/
def ofFloat? (x : Float) : Option Dyadic :=
  let bits := x.toBits.toNat
  let negative := bits >>> 63 == 1
  let biased : Nat := (bits >>> 52) % 0x800
  let fraction : Nat := bits % hiddenBit
  if biased = 2047 then none
  else if biased = 0 then some ⟨negative, fraction, -1074⟩
  else some ⟨negative, fraction + hiddenBit, (biased : Int) - 1075⟩

/-- The magnitude as a fraction `numerator / denominator`. -/
def magnitude (d : Dyadic) : Nat × Nat :=
  (d.significand <<< d.exponent.toNat, 1 <<< (-d.exponent).toNat)

end Dyadic

namespace Binary64

/-- The number `significand · 2 ^ (-50)`, for a significand below `2 ^ 53`. -/
def fiftiethBinaryPlace (significand : Nat) : Float :=
  significand.toUInt64.toFloat / 1125899906842624.0

/-- A full turn, the number nearest to two pi: a whole multiple of `2 ^ (-50)`. -/
def turnUnits : Nat := 7074237752028440

/-- What is left of `x` after whole turns are taken out, with the sign of `x`.

The remainder is exact. A number below 4 in magnitude is its own remainder;
every other one is a whole multiple of `2 ^ (-50)`, as is a turn, so that the
remainder is one of whole numbers. -/
def turnRemainder (x : Float) : Float :=
  match Dyadic.ofFloat? x with
  | none => 0.0 / 0.0
  | some d =>
    if d.exponent < -50 then x
    else
      let rest := fiftiethBinaryPlace (d.significand <<< (d.exponent + 50).toNat % turnUnits)
      if d.negative then -rest else rest

/-- What is left of `x` after whole turns are taken out, made non-negative by
adding one turn, rounded, to a negative remainder. -/
def wrapTurn (x : Float) : Float :=
  let rest := turnRemainder x
  if rest < 0.0 then rest + fiftiethBinaryPlace turnUnits else rest

end Binary64

end CircuitGrid
