import CircuitGrid.Grid
import CircuitGrid.Simulation.Draw
import CircuitGrid.Simulation.Outcome
import CircuitGrid.Simulation.StateVector

/-!
# The simulator

A simulator prepares the state of a circuit and measures it. It has a limit on
the number of wires and a generator of draws, which moves on by one draw with
every measurement and stays where it is when the state cannot be prepared.
-/

namespace CircuitGrid

/-- A simulator with its generator of draws. -/
structure Simulator (G : Type) where
  /-- The largest number of wires it accepts. -/
  limit : Nat
  generator : G

namespace Simulator

variable {G ρ : Type}

/-- The name under which the simulator is shown. -/
def name : String := "statevector"

/-- A number of wires, cut down to what a grid may have. -/
def boundedWires (wires : Nat) : Nat := min wires maxWires

/-- A simulator for as many wires as a grid may have. -/
def ofGenerator (generator : G) : Simulator G := ⟨maxWires, generator⟩

/-- A simulator with a limit of its own. -/
def withLimit (limit : Nat) (generator : G) : Simulator G := ⟨boundedWires limit, generator⟩

/-- The state that operations produce from the ground state. -/
@[specialize]
def prepare [Scalar ρ] (sim : Simulator G) (wires : Nat) (ops : List (Operation ρ)) :
    Except SimulationError (StateVector (Amplitude ρ) wires) :=
  if sim.limit < wires then .error (.tooManyWires wires sim.limit)
  else StateVector.applyAll Primitive.matrix ops (StateVector.ground wires)

/-- The probability of each basis state. -/
@[specialize]
def probabilities [Scalar ρ] (sim : Simulator G) (wires : Nat) (ops : List (Operation ρ)) :
    Except SimulationError (Vector ρ (basisSize wires)) :=
  (sim.prepare wires ops).map StateVector.probabilities

/-! ## Measuring -/

/-- One more occurrence of an outcome. -/
def countOutcome {m : Nat} (tally : Vector Nat m) (outcome : Nat) : Vector Nat m :=
  if h : outcome < m then tally.set outcome (tally[outcome] + 1) else tally

/-- Draw an outcome `shots` times and count each. -/
@[specialize]
def tallyShots [Scalar ρ] [Generator G] {m : Nat} (probabilities : Vector ρ m) :
    Nat → G → Vector Nat m → Vector Nat m × G
  | 0, generator, tally => (tally, generator)
  | shots + 1, generator, tally =>
    let (draw, generator) := Generator.next generator
    tallyShots probabilities shots generator
      (countOutcome tally (drawOutcome probabilities (Scalar.ofDraw draw)))

/-- The outcomes that occurred, ascending, each with its count. -/
def occurrences {m : Nat} (tally : Vector Nat m) : List (Nat × Nat) :=
  (tally.toList.zipIdx.filter (·.1 ≠ 0)).map Prod.swap

/-- Run the operations once and measure every wire. -/
@[specialize]
def sample [Scalar ρ] [Generator G] (sim : Simulator G) (wires : Nat) (ops : List (Operation ρ)) :
    Except SimulationError Nat × Simulator G :=
  match sim.probabilities wires ops with
  | .error error => (.error error, sim)
  | .ok probabilities =>
    let (draw, generator) := Generator.next sim.generator
    (.ok (drawOutcome probabilities (Scalar.ofDraw draw)), { sim with generator })

/-- Measure a state with the given probabilities `shots` times and count each outcome. -/
@[specialize]
def countShots [Scalar ρ] [Generator G] {m : Nat} (sim : Simulator G) (probabilities : Vector ρ m)
    (shots : Nat) : List (Nat × Nat) × Simulator G :=
  let (tally, generator) := tallyShots probabilities shots sim.generator (Vector.replicate m 0)
  (occurrences tally, { sim with generator })

/-- Run the operations and measure every wire, `shots` times, and count each outcome. -/
@[specialize]
def counts [Scalar ρ] [Generator G] (sim : Simulator G) (wires : Nat) (ops : List (Operation ρ))
    (shots : Nat) : Except SimulationError (List (Nat × Nat)) × Simulator G :=
  match sim.probabilities wires ops with
  | .error error => (.error error, sim)
  | .ok probabilities =>
    let (found, sim) := sim.countShots probabilities shots
    (.ok found, sim)

end Simulator

end CircuitGrid
