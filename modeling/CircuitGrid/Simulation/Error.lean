/-!
# Errors of a simulation
-/

namespace CircuitGrid

/-- Why a circuit cannot be simulated. -/
inductive SimulationError where
  /-- The state would be larger than the simulator allows. -/
  | tooManyWires (wires limit : Nat)
  /-- An operation addresses a wire the state does not have. -/
  | wireOutOfRange (wire wires : Nat)
  /-- A swap has no second wire. -/
  | missingPartner (wire : Nat)
  deriving DecidableEq, Repr

/-- The error in words. -/
def SimulationError.message : SimulationError → String
  | .tooManyWires wires limit =>
    "Circuit has " ++ toString wires ++ " wires but the simulator supports at most "
      ++ toString limit
  | .wireOutOfRange wire wires =>
    "Operation uses wire " ++ toString wire ++ " but the state has " ++ toString wires ++ " wires"
  | .missingPartner wire => "Swap on wire " ++ toString wire ++ " has no partner"

end CircuitGrid
