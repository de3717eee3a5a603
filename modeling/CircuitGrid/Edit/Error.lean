import CircuitGrid.Grid

/-!
# Diagnostics of editing

Every error but `grid` is a rejection: the edit was not made, and nothing else
happened.
-/

namespace CircuitGrid

/-- Why an edit was not made. -/
inductive EditError where
  /-- The cell is not free. -/
  | invalidPlacement (wire column : Nat) (found : CellKind)
  /-- Neither neighbour of the gate can take a control. -/
  | controlUnavailable (wire column : Nat)
  /-- The text names no command. -/
  | unknownCommand (token : String)
  /-- The grid refused an access. -/
  | grid (error : GridError)
  deriving DecidableEq, Repr

namespace EditError

/-- The error in words. -/
def message : EditError → String
  | .invalidPlacement wire column found =>
    "Cannot place on wire " ++ toString wire ++ ", column " ++ toString column
      ++ ": cell holds " ++ found.text
  | .controlUnavailable wire column =>
    "Cannot place control for gate on wire " ++ toString wire ++ ", column " ++ toString column
  | .unknownCommand token => "Unknown command '" ++ token ++ "'"
  | .grid error => "Grid error: " ++ error.message

/-- Whether the edit was merely rejected. -/
def isRecoverable : EditError → Bool
  | .grid _ => false
  | _ => true

end EditError

end CircuitGrid
