import CircuitGrid.Decimal

/-!
# Reading numbers

Readers of natural numbers up to a limit, of decimal numbers and of
floating-point numbers. Each takes the whole text, and none allows blanks or
separators.
-/

namespace CircuitGrid

/-! ## Natural numbers -/

/-- The largest 32-bit number, the limit of shots and of wires in operations. -/
def maxWord32 : Nat := 0xffffffff

/-- The largest 64-bit number, the limit of all other natural numbers. -/
def maxWord64 : Nat := 0xffffffffffffffff

/-- The value of a run of decimal digits. -/
def digitsValue (cs : List Char) : Nat :=
  cs.foldl (fun value c => 10 * value + (c.toNat - 48)) 0

/-- A non-empty run of decimal digits. -/
def readDigits? (cs : List Char) : Option Nat :=
  if cs ≠ [] ∧ cs.all Char.isDigit then some (digitsValue cs) else none

/-- A natural number of at most `limit`, after an optional plus sign. -/
def readNatural? (limit : Nat) (cs : List Char) : Option Nat :=
  let digits := match cs with
    | '+' :: rest => rest
    | cs => cs
  (readDigits? digits).filter (· ≤ limit)

/-- A leading sign, and the text after it. -/
def splitSign : List Char → Bool × List Char
  | '-' :: rest => (true, rest)
  | '+' :: rest => (false, rest)
  | cs => (false, cs)

/-- An integer from zero up to `limit`, after an optional sign: a zero may be
written as a negative one. -/
def readSigned? (limit : Nat) (cs : List Char) : Option Nat :=
  let (negative, digits) := splitSign cs
  (readDigits? digits).filter fun value => if negative then value = 0 else value ≤ limit

/-! ## Decimal numbers -/

/-- The exponent that ends a decimal number; none written means zero. -/
def readExponent? : List Char → Option Int
  | [] => some 0
  | c :: rest =>
    if c = 'e' ∨ c = 'E' then
      let (negative, digits) := splitSign rest
      (readDigits? digits).map fun value => if negative then -(value : Int) else value
    else none

/-- A decimal number: a sign, digits with at most one point among, before or
after them, and an exponent. Sign, point and exponent may be missing. -/
def Decimal.read? (cs : List Char) : Option Decimal :=
  let (negative, cs) := splitSign cs
  let whole := cs.takeWhile Char.isDigit
  let rest := cs.dropWhile Char.isDigit
  let (fraction, rest) := match rest with
    | '.' :: rest => (rest.takeWhile Char.isDigit, rest.dropWhile Char.isDigit)
    | rest => ([], rest)
  if whole = [] ∧ fraction = [] then none
  else
    (readExponent? rest).map fun exponent =>
      ⟨negative, digitsValue (whole ++ fraction), exponent - fraction.length⟩

/-! ## Floating-point numbers -/

/-- The floating-point number nearest to a decimal one.

A number whose leading digit stands beyond the 400th place on either side is
already infinite, or zero, whatever its digits. -/
def Decimal.toFloat (d : Decimal) : Float :=
  let top := d.exponent + (decimalDigits d.digits).length
  let magnitude : Float :=
    if d.digits = 0 ∨ top < -400 then 0.0
    else if 400 < top then 1.0 / 0.0
    else Float.ofScientific d.digits (d.exponent < 0) d.exponent.natAbs
  if d.negative then -magnitude else magnitude

/-- A floating-point number: a decimal number, or the name of an infinity or of
not-a-number in letters of any case after an optional sign. -/
def readFloat? (cs : List Char) : Option Float :=
  let (negative, name) := splitSign cs
  let name := name.map Char.toLower
  if name = "inf".toList ∨ name = "infinity".toList then
    some (if negative then -(1.0 / 0.0) else 1.0 / 0.0)
  else if name = "nan".toList then some (0.0 / 0.0)
  else (Decimal.read? cs).map Decimal.toFloat

end CircuitGrid
