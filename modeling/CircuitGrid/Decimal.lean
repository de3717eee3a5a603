/-!
# Decimal numbers and how they are laid out

`Decimal` is a number `± digits · 10 ^ exponent`. A `Layout` says how such a
number is written: where positional notation ends, whether a whole number keeps
a point, and how an exponent is marked.
-/

namespace CircuitGrid

/-- The number `± digits · 10 ^ exponent`. -/
structure Decimal where
  negative : Bool
  digits : Nat
  exponent : Int
  deriving DecidableEq, Repr

/-- A power of ten. -/
def tenTo (n : Nat) : Nat := Nat.pow 10 n

/-- The decimal digits of a natural number, without leading zeros. -/
def decimalDigits (n : Nat) : List Char := Nat.toDigits 10 n

namespace Decimal

/-- Drop trailing zeros from the digits; each dropped zero raises the exponent. -/
def trimZeros (d : Decimal) : Decimal :=
  go (decimalDigits d.digits).length d
where
  go : Nat → Decimal → Decimal
    | 0, d => d
    | fuel + 1, d =>
      if d.digits ≠ 0 ∧ d.digits % 10 = 0 then
        go fuel { d with digits := d.digits / 10, exponent := d.exponent + 1 }
      else d

/-! ## Layout -/

/-- How a decimal number is written. -/
structure Layout where
  /-- The least power of ten of a leading digit that is written positionally, if there is one. -/
  plainFrom : Option Int
  /-- The least power of ten of a leading digit that takes an exponent again, if there is one. -/
  plainBelow : Option Int
  /-- Whether a positional whole number ends in `.0`. -/
  pointZero : Bool
  /-- Whether a positive exponent carries a sign. -/
  exponentPlus : Bool

/-- Digits written without an exponent. -/
def positional (digits : List Char) (exponent : Int) (pointZero : Bool) : List Char :=
  if 0 ≤ exponent then
    digits ++ List.replicate exponent.toNat '0' ++ (if pointZero then ['.', '0'] else [])
  else
    let places := (-exponent).toNat
    if places < digits.length then
      digits.take (digits.length - places) ++ '.' :: digits.drop (digits.length - places)
    else
      '0' :: '.' :: List.replicate (places - digits.length) '0' ++ digits

/-- Digits written with one digit before the point and an exponent. -/
def scientific (digits : List Char) (power : Int) (exponentPlus : Bool) : List Char :=
  digits.take 1
    ++ (if digits.length ≤ 1 then [] else '.' :: digits.drop 1)
    ++ 'e' :: (if power < 0 then ['-'] else if exponentPlus then ['+'] else [])
    ++ decimalDigits power.natAbs

/-- The number in the given layout. A zero is written positionally. -/
def write (layout : Layout) (d : Decimal) : List Char :=
  let d := d.trimZeros
  let digits := decimalDigits d.digits
  let power := d.exponent + digits.length - 1
  let plain := d.digits = 0
    || (layout.plainFrom.all (· ≤ power) && layout.plainBelow.all (power < ·))
  (if d.negative then ['-'] else [])
    ++ if d.digits = 0 then positional ['0'] 0 layout.pointZero
      else if plain then positional digits d.exponent layout.pointZero
      else scientific digits power layout.exponentPlus

end Decimal

end CircuitGrid
