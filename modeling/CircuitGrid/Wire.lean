/-!
# Wires of compiled operations

A compiled operation names its wires by 32-bit numbers; `Wire.ofNat?` refuses
anything larger.
-/

namespace CircuitGrid

/-- Wires have numbers below this one, of 32 bits. -/
def wireLimit : Nat := 0x100000000

/-- A wire of a compiled operation: one qubit's line through the circuit. -/
structure Wire where
  index : Nat
  index_lt : index < wireLimit
  deriving DecidableEq, Repr

namespace Wire

/-- The wire of a number that fits in 32 bits. -/
def ofNat? (index : Nat) : Option Wire :=
  if h : index < wireLimit then some ⟨index, h⟩ else none

/-- The wire as written in the text of an operation. -/
def text (w : Wire) : String := "q" ++ toString w.index

end Wire

end CircuitGrid
