import CircuitGrid.Decimal.Shortest

/-!
# Writing floating-point numbers

Two ways of writing a number: with the fewest digits that read back, in a given
layout, or rounded to a fixed number of decimal places. What is not finite has
a name instead of digits.
-/

namespace CircuitGrid

/-- The name of a number that is not finite. -/
def nonFiniteName (x : Float) : List Char :=
  if x.isNaN then "NaN".toList else if x < 0.0 then "-inf".toList else "inf".toList

/-- The number with the fewest digits that read back. -/
def writeShortest (layout : Decimal.Layout) (tie : Tie) (x : Float) : List Char :=
  match Dyadic.ofFloat? x with
  | some d => (d.shortest tie).write layout
  | none => nonFiniteName x

/-- A number of units of the last decimal place, with the point put in. -/
def writePlaces (places : Nat) (negative : Bool) (units : Nat) : List Char :=
  let digits := decimalDigits units
  let digits := List.replicate (places + 1 - digits.length) '0' ++ digits
  (if negative then ['-'] else [])
    ++ digits.take (digits.length - places) ++ '.' :: digits.drop (digits.length - places)

/-- The number rounded to a fixed number of decimal places, a half going to the
even neighbour. A negative number keeps its sign even if it rounds to zero. -/
def writeFixed (places : Nat) (x : Float) : List Char :=
  match Dyadic.ofFloat? x with
  | some d => writePlaces places d.negative (d.roundToPlaces .toEven places)
  | none => nonFiniteName x

/-- Text filled up with spaces on the left. -/
def padLeft (width : Nat) (cs : List Char) : List Char :=
  List.replicate (width - cs.length) ' ' ++ cs

/-! ## The formats in use -/

/-- Angles of nodes are written positionally, whatever their size, and without a
point if they are whole. -/
def plainLayout : Decimal.Layout where
  plainFrom := none
  plainBelow := none
  pointZero := false
  exponentPlus := false

/-- An angle with the fewest digits, positionally. -/
def writeAngle (x : Float) : String := String.ofList (writeShortest plainLayout .up x)

/-- The angle of an operation, in four decimal places. -/
def writeOperationAngle (x : Float) : String := String.ofList (writeFixed 4 x)

end CircuitGrid
