import CircuitGrid.Simulation.Error
import CircuitGrid.Simulation.Matrix

/-!
# State vectors

The state of `n` wires has one amplitude for each of the `2 ^ n` basis states;
wire `i` is bit `i` of the index of a basis state. An operation is applied in
place: a matrix to every pair of basis states that differ in the target bit, a
swap by exchanging amplitudes. Nothing here looks into the entries, which are
only added and multiplied.
-/

namespace CircuitGrid

/-! ## Basis states -/

/-- How many basis states `n` wires have. -/
def basisSize (n : Nat) : Nat := 1 <<< n

/-- The bit of a wire in the index of a basis state. -/
def wireBit (wire : Nat) : Nat := 1 <<< wire

/-- There is always a basis state, the one in which no wire is set. -/
theorem basisSize_pos (n : Nat) : 0 < basisSize n := by
  rw [basisSize, Nat.shiftLeft_eq, Nat.one_mul]
  exact Nat.two_pow_pos n

/-- Setting the bit of a wire leads to a basis state. -/
theorem or_wireBit_lt {n i : Nat} (i_lt : i < basisSize n) (wire : Fin n) :
    i ||| wireBit wire < basisSize n := by
  simp only [basisSize, wireBit, Nat.shiftLeft_eq, Nat.one_mul] at i_lt ⊢
  exact Nat.or_lt_two_pow i_lt (Nat.pow_lt_pow_right (by decide) wire.isLt)

/-- Flipping the bit of a wire leads to a basis state. -/
theorem xor_wireBit_lt {n i : Nat} (i_lt : i < basisSize n) (wire : Fin n) :
    i ^^^ wireBit wire < basisSize n := by
  simp only [basisSize, wireBit, Nat.shiftLeft_eq, Nat.one_mul] at i_lt ⊢
  exact Nat.xor_lt_two_pow i_lt (Nat.pow_lt_pow_right (by decide) wire.isLt)

/-- The amplitudes of `n` wires, indexed by basis state. -/
abbrev StateVector (R : Type) (n : Nat) := Vector R (basisSize n)

namespace StateVector

variable {R : Type} {n : Nat}

/-- The state in which every wire is 0. -/
def ground [Zero R] [One R] (n : Nat) : StateVector R n :=
  (Vector.replicate (basisSize n) 0).set 0 1 (basisSize_pos n)

/-! ## Addressing wires -/

/-- The position of a wire, which must be a wire of the state. -/
def locateWire (n : Nat) (wire : Wire) : Except SimulationError (Fin n) :=
  if h : wire.index < n then .ok ⟨wire.index, h⟩
  else .error (.wireOutOfRange wire.index n)

/-- The bits of several wires together; the first one out of range decides the error. -/
def controlMask (n : Nat) (wires : List Wire) : Except SimulationError Nat :=
  wires.foldlM (fun mask wire => do return mask ||| wireBit (← locateWire n wire)) 0

/-! ## Applying one operation -/

/-- Apply a matrix to the target bit of every pair of basis states whose control
bits are all set. -/
@[specialize]
def applyMatrix [Add R] [Mul R] (matrix : Matrix R) (controls : Nat) (target : Fin n)
    (state : StateVector R n) : StateVector R n :=
  let bit := wireBit target
  Nat.fold (basisSize n) (fun i i_lt state =>
    if i &&& bit = 0 ∧ i &&& controls = controls then
      let j := i ||| bit
      have j_lt : j < basisSize n := or_wireBit_lt i_lt target
      let a := state.get ⟨i, i_lt⟩
      let b := state.get ⟨j, j_lt⟩
      (state.set i (matrix.m00 * a + matrix.m01 * b) i_lt).set j
        (matrix.m10 * a + matrix.m11 * b) j_lt
    else state) state

/-- Exchange two bits of every basis state whose control bits are all set. -/
@[specialize]
def applySwap (controls : Nat) (first second : Fin n) (state : StateVector R n) :
    StateVector R n :=
  if first = second then state
  else
    let firstBit := wireBit first
    let secondBit := wireBit second
    Nat.fold (basisSize n) (fun i i_lt state =>
      if i &&& controls = controls ∧ i &&& firstBit = firstBit ∧ i &&& secondBit = 0 then
        let flipped := i ^^^ firstBit
        have flipped_lt : flipped < basisSize n := xor_wireBit_lt i_lt first
        have j_lt : flipped ||| secondBit < basisSize n := or_wireBit_lt flipped_lt second
        state.swap i (flipped ||| secondBit) i_lt j_lt
      else state) state

/-- Apply one operation, given what the gates do to their targets.

The controls are looked up first, then the target, and for a swap the partner;
the first wire out of range decides the error. -/
@[specialize]
def apply {α : Type} [Add R] [Mul R] (matrixOf : Primitive α → Matrix R) (op : Operation α)
    (state : StateVector R n) : Except SimulationError (StateVector R n) := do
  let controls ← controlMask n op.controls
  let target ← locateWire n op.target
  if op.gate.isSwap then
    match op.partner with
    | none => throw (.missingPartner op.target.index)
    | some partner =>
      let partner ← locateWire n partner
      return applySwap controls target partner state
  else return applyMatrix (matrixOf op.gate) controls target state

/-- Apply operations in order; the first that cannot be applied decides the error. -/
@[specialize]
def applyAll {α : Type} [Add R] [Mul R] (matrixOf : Primitive α → Matrix R)
    (ops : List (Operation α)) (state : StateVector R n) :
    Except SimulationError (StateVector R n) :=
  ops.foldlM (fun state op => apply matrixOf op state) state

/-! ## Probabilities -/

/-- The probability of each basis state. -/
@[specialize]
def probabilities {ρ : Type} [Scalar ρ] (state : StateVector (Amplitude ρ) n) :
    Vector ρ (basisSize n) :=
  state.map Amplitude.normSq

end StateVector

end CircuitGrid
