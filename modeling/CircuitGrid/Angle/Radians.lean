import CircuitGrid.Angle
import CircuitGrid.Binary64
import CircuitGrid.Text.Numeral

/-!
# Angles in floating-point radians

The angles a user works with: `Float` radians, a turn being the number nearest
to two pi. Zero is recognised by comparison, so that a negative zero is no
rotation and not-a-number is one.
-/

namespace CircuitGrid

instance : Angle Float where
  zero := 0.0
  turn := 6.283185307179586
  tolerance := 1e-9
  add := Float.add
  sub := Float.sub
  neg := Float.neg
  wrap := Binary64.wrapTurn
  less := fun x y => x < y
  isZero := fun x => x == 0.0

instance : AngleText Float where
  read? := fun cs => (readFloat? cs).filter Float.isFinite

namespace Radians

/-- An eighth of half a turn: how far a rotation command turns a gate unless
another step is configured. -/
def defaultStep : Float := 0.39269908169872414

end Radians

end CircuitGrid
