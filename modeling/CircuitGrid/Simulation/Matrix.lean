import CircuitGrid.Operation
import CircuitGrid.Simulation.Scalar

/-!
# Matrices of the primitive gates

What a gate does to its target once its controls are set is a matrix of two
rows and two columns.
-/

namespace CircuitGrid

/-- A matrix of two rows and two columns, row by row. -/
structure Matrix (R : Type) where
  m00 : R
  m01 : R
  m10 : R
  m11 : R
  deriving DecidableEq, Repr

namespace Matrix

variable {ρ : Type} [Scalar ρ]

/-- The matrix that leaves a wire alone. -/
def identity : Matrix (Amplitude ρ) := ⟨1, 0, 0, 1⟩

/-- The matrix that turns the phase of a set wire. -/
def phase (angle : ρ) : Matrix (Amplitude ρ) := ⟨1, 0, 0, .ofPhase angle⟩

end Matrix

/-- What a gate does to its target. The swaps act on two wires and have no
matrix of their own; the identity stands in for it. -/
def Primitive.matrix {ρ : Type} [Scalar ρ] : Primitive ρ → Matrix (Amplitude ρ)
  | .id | .swap | .cswap => .identity
  | .x | .cx | .ccx => ⟨0, 1, 1, 0⟩
  | .y | .cy => ⟨0, -.i, .i, 0⟩
  | .z | .cz => ⟨1, 0, 0, -1⟩
  | .h | .ch =>
    let h : Amplitude ρ := ⟨Scalar.invSqrtTwo, Scalar.zero⟩
    ⟨h, h, h, -h⟩
  | .s => .phase Scalar.halfPi
  | .sdg => .phase (Scalar.neg Scalar.halfPi)
  | .t => .phase Scalar.quarterPi
  | .tdg => .phase (Scalar.neg Scalar.quarterPi)
  | .rx angle =>
    let c : Amplitude ρ := ⟨Scalar.cos (Scalar.half angle), Scalar.zero⟩
    let s : Amplitude ρ := ⟨Scalar.zero, Scalar.neg (Scalar.sin (Scalar.half angle))⟩
    ⟨c, s, s, c⟩
  | .ry angle =>
    let c : Amplitude ρ := ⟨Scalar.cos (Scalar.half angle), Scalar.zero⟩
    let s : Amplitude ρ := ⟨Scalar.sin (Scalar.half angle), Scalar.zero⟩
    ⟨c, -s, s, c⟩
  | .rz angle | .crz angle =>
    ⟨.ofPhase (Scalar.half (Scalar.neg angle)), 0, 0, .ofPhase (Scalar.half angle)⟩

end CircuitGrid
