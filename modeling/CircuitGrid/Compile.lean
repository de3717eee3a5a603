import CircuitGrid.Grid
import CircuitGrid.Operation

/-!
# Compiling a grid

A grid compiles to one operation per gate. Columns are visited in order of time
and the wires of a column in ascending order. The gate of a cell, together with
its rotation and links, decides the operation:

| Cell | Controls | Operation |
|------|----------|-----------|
| X | none / a / a and b | `x` / `cx` / `ccx` |
| X rotated | ignored | `rx` |
| Y | none / a | `y` / `cy` |
| Y rotated | ignored | `ry` |
| Z | none / a | `z` / `cz` |
| Z rotated | none / a | `rz` / `crz` |
| H | none / a | `h` / `ch` |
| S, S-dagger, T, T-dagger, identity | ignored | the gate itself |
| swap | none / a | `swap` / `cswap` |

A control link must name a wire of the grid even where it is ignored.
-/

namespace CircuitGrid

/-! ## Links -/

/-- The wire a link names, which must be a wire of the grid. -/
def linkedWire (wires : Nat) (wires_le : wires ≤ maxWires) :
    Option Nat → Except GridError (Option Wire)
  | none => .ok none
  | some wire =>
    if h : wire < wires then
      .ok (some ⟨wire, Nat.lt_of_lt_of_le h (Nat.le_trans wires_le (by decide))⟩)
    else .error (.wireOutOfRange wire wires)

/-! ## One gate -/

/-- The operation of a gate, given its angle, whether it is rotated, and the
wires of its links. Only a swap without partner has none. -/
def lowerGate {α : Type} (gate : Gate) (angle : α) (rotated : Bool) (target : Wire)
    (controlA controlB partner : Option Wire) : Option (Operation α) :=
  match gate with
  | .identity => some (.single .id target)
  | .pauliX =>
    match rotated, controlA, controlB with
    | true, _, _ => some (.single (.rx angle) target)
    | false, some a, some b => some (.controlled .ccx [a, b] target)
    | false, some a, none => some (.controlled .cx [a] target)
    | false, none, _ => some (.single .x target)
  | .pauliY =>
    match rotated, controlA with
    | true, _ => some (.single (.ry angle) target)
    | false, some a => some (.controlled .cy [a] target)
    | false, none => some (.single .y target)
  | .pauliZ =>
    match rotated, controlA with
    | true, some a => some (.controlled (.crz angle) [a] target)
    | true, none => some (.single (.rz angle) target)
    | false, some a => some (.controlled .cz [a] target)
    | false, none => some (.single .z target)
  | .s => some (.single .s target)
  | .sDagger => some (.single .sdg target)
  | .t => some (.single .t target)
  | .tDagger => some (.single .tdg target)
  | .hadamard =>
    match controlA with
    | some a => some (.controlled .ch [a] target)
    | none => some (.single .h target)
  | .swap =>
    match controlA, partner with
    | some a, some b => some (.controlledSwap a target b)
    | none, some b => some (.swap target b)
    | _, none => none

/-- The operation of the gate in a cell.

The control links are looked up first, in order, whatever the gate; the partner
after them, and for a swap only. -/
def lower {α : Type} [Angle α] {wires : Nat} (wires_le : wires ≤ maxWires) (gate : Gate)
    (node : Node α) (wire : Fin wires) (column : Nat) : Except GridError (Operation α) := do
  let target : Wire :=
    ⟨wire, Nat.lt_of_lt_of_le wire.isLt (Nat.le_trans wires_le (by decide))⟩
  let controlA ← linkedWire wires wires_le node.controlA
  let controlB ← linkedWire wires wires_le node.controlB
  let partner ← linkedWire wires wires_le (if gate = .swap then node.partner else none)
  match lowerGate gate node.rotation node.isRotated target controlA controlB partner with
  | some op => return op
  | none => throw (.missingSwapPartner wire column)

/-! ## The whole grid -/

/-- A cell that owns a gate: its position, its gate and its node. -/
structure GateCell (α : Type) (wires columns : Nat) where
  wire : Fin wires
  column : Fin columns
  gate : Gate
  node : Node α

namespace Grid

variable {α : Type} {wires columns : Nat}

/-- The cells of a column that own a gate, wires ascending. -/
def gateCellsOf (grid : Grid α wires columns) (column : Fin columns) :
    List (GateCell α wires columns) :=
  (List.finRange wires).filterMap fun wire =>
    let node := (grid.columnAt column).get wire
    node.gate?.map fun gate => ⟨wire, column, gate, node⟩

/-- The cells that own a gate, columns ascending and wires ascending within a column. -/
def gateCells (grid : Grid α wires columns) : List (GateCell α wires columns) :=
  (List.finRange columns).flatMap grid.gateCellsOf

/-- The operations of the grid, one per gate, in the order of `gateCells`. The
first gate that has no operation decides the error. -/
def compile [Angle α] (grid : Grid α wires columns) : Except GridError (List (Operation α)) :=
  grid.gateCells.mapM fun cell =>
    lower grid.wires_le cell.gate cell.node cell.wire cell.column

end Grid

end CircuitGrid
