import CircuitGrid.Json
import CircuitGrid.Text.Amount
import CircuitGrid.Text.Numeral

/-!
# Numbers in JSON

A natural number is a run of digits within a limit; a number with a sign, a
point or an exponent is none. Any number can be read as a floating-point one.

A floating-point number is written with the fewest digits that read back, in
plain notation for magnitudes from `1e-5` up to `1e16` and with an exponent
otherwise. It is read digit by digit into a 64-bit word, which is then scaled by
a power of ten in floating-point arithmetic; digits beyond the word only count
as places. The result is the nearest number where both steps are exact or round
once, such as for up to fifteen digits and powers of ten up to twenty-two.
-/

namespace CircuitGrid

/-! ## Writing -/

/-- The layout of a floating-point number in JSON. -/
def jsonLayout : Decimal.Layout where
  plainFrom := some (-5)
  plainBelow := some 16
  pointZero := true
  exponentPlus := true

namespace Json

/-- A floating-point number; there is none for what is not finite. -/
def ofFloat (x : Float) : Json :=
  if x.isFinite then .number (writeShortest jsonLayout .toEven x) else .null

/-! ## Reading natural numbers -/

/-- The natural number that a value is, if it is at most `limit`. -/
def natural? (limit : Nat) : Json → Option Nat
  | .number literal => (readDigits? literal).filter (· ≤ limit)
  | _ => none

/-! ## Reading floating-point numbers -/

/-- Append digits to a word of 64 bits as long as they fit, and count the digits
that did not. -/
def appendDigits (word : Nat) : List Char → Nat × Nat
  | [] => (word, 0)
  | c :: rest =>
    let longer := 10 * word + (c.toNat - 48)
    if longer ≤ maxWord64 then appendDigits longer rest else (word, rest.length + 1)

/-- Divide by a power of ten, by at most `1e308` at a time. -/
def divideByPower (x : Float) (power : Nat) : Float :=
  if power ≤ 308 then x / Float.ofScientific 1 false power
  else if x == 0.0 then x
  else divideByPower (x / 1e308) (power - 308)
termination_by power

/-- A word times a power of ten; there is none beyond the range of finite numbers. -/
def scaleWord? (word : Nat) (exponent : Int) : Option Float :=
  let x := word.toUInt64.toFloat
  if exponent < 0 then some (divideByPower x exponent.natAbs)
  else if word = 0 then some x
  else if 308 < exponent then none
  else (some (x * Float.ofScientific 1 false exponent.natAbs)).filter Float.isFinite

/-- The value of an exponent and its sign, within 32 bits; zero if there is none. -/
def exponentValue (cs : List Char) : Int :=
  let (negative, digits) := splitSign (cs.drop 1)
  let value := min (digitsValue digits) 0x7fffffff
  if negative then -(value : Int) else value

/-- The floating-point number that the text of a number stands for. -/
def floatOfLiteral? (literal : List Char) : Option Float :=
  let (negative, cs) := splitSign literal
  let whole := cs.takeWhile Char.isDigit
  let rest := cs.dropWhile Char.isDigit
  let (fraction, rest) := match rest with
    | '.' :: rest => (rest.takeWhile Char.isDigit, rest.dropWhile Char.isDigit)
    | rest => ([], rest)
  let (word, skipped) := appendDigits 0 whole
  let (word, dropped) := appendDigits word fraction
  let places : Int := fraction.length - dropped
  (scaleWord? word (skipped - places + exponentValue rest)).map fun x =>
    if negative then -x else x

/-- The floating-point number that a value is. -/
def float? : Json → Option Float
  | .number literal => floatOfLiteral? literal
  | _ => none

end Json

end CircuitGrid
