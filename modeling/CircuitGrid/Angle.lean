/-!
# Angles

The grid and its editor never look inside an angle: they add two of them, ask
whether one is zero, and wrap one around a full turn. `Angle` collects these
operations, so that everything above is written once, for floating-point
angles and for exact ones alike.
-/

namespace CircuitGrid

/-- The operations the library uses on angles, given in radians. -/
class Angle (α : Type) where
  /-- No rotation. -/
  zero : α
  /-- A full turn. -/
  turn : α
  /-- An angle closer than this to a whole number of turns counts as none. -/
  tolerance : α
  add : α → α → α
  sub : α → α → α
  neg : α → α
  /-- What is left of an angle after whole turns are taken out, never negative. -/
  wrap : α → α
  less : α → α → Bool
  isZero : α → Bool

namespace Angle

variable {α : Type} [Angle α]

/-- Wrap an angle into `[0, turn)`.

What is left within `tolerance` of either end of the turn is dropped, so that
repeated small rotations that add up to a full turn end on no rotation at
all. -/
def normalize (x : α) : α :=
  let rest := wrap x
  if less rest tolerance || less (sub turn rest) tolerance then zero else rest

end Angle

/-- How an angle is read from the text of a command. Only a finite angle can be. -/
class AngleText (α : Type) where
  read? : List Char → Option α

end CircuitGrid
