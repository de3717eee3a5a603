import CircuitGrid.Angle

/-!
# Commands

A command is one step of an edit script. Most name an action on the cell under
the cursor; the navigation commands move the cursor itself.
-/

namespace CircuitGrid

/-- A step on the grid. -/
inductive Direction where
  /-- Towards column 0. -/
  | left
  /-- Towards the last column. -/
  | right
  /-- Towards wire 0. -/
  | up
  /-- Towards the last wire. -/
  | down
  deriving DecidableEq, Repr

/-- One command of an edit script. -/
inductive Command (α : Type) where
  | navigateLeft
  | navigateRight
  | navigateUp
  | navigateDown
  | placeX
  | placeY
  | placeZ
  | placeH
  /-- Delete the gate or the control link under the cursor. -/
  | delete
  /-- Add or remove the control of the gate under the cursor. -/
  | toggleControl
  | moveControlUp
  | moveControlDown
  /-- Turn the Pauli gate under the cursor. -/
  | rotateBy (angle : α)
  deriving DecidableEq, Repr

/-- The step of a navigation command. -/
def Command.navigation? {α : Type} : Command α → Option Direction
  | .navigateLeft => some .left
  | .navigateRight => some .right
  | .navigateUp => some .up
  | .navigateDown => some .down
  | _ => none

end CircuitGrid
