import CircuitGrid.Column

/-!
# The grid: wires by columns

A grid is a fixed number of columns over a fixed number of wires. Time runs
with the column index, qubits with the wire index. `Grid.empty?` is the only way
to make one, and it keeps both dimensions within their limits; every access
outside the grid is refused and changes nothing.
-/

namespace CircuitGrid

/-- The largest number of wires of a grid. -/
def maxWires : Nat := 20

/-- The largest number of columns of a grid. -/
def maxColumns : Nat := 256

/-! ## Errors -/

/-- What can go wrong with a grid. -/
inductive GridError where
  /-- A cell outside the grid was addressed. -/
  | outOfRange (wire column wires columns : Nat)
  /-- A gate names a wire the grid does not have. -/
  | wireOutOfRange (wire wires : Nat)
  /-- A swap gate has no partner. -/
  | missingSwapPartner (wire column : Nat)
  /-- No grid has these dimensions. -/
  | invalidDimensions (wires columns : Nat)
  deriving DecidableEq, Repr

/-- The error in words. -/
def GridError.message : GridError → String
  | .outOfRange wire column wires columns =>
    "Cell (wire " ++ toString wire ++ ", column " ++ toString column ++ ") is outside the "
      ++ toString wires ++ "x" ++ toString columns ++ " grid"
  | .wireOutOfRange wire wires =>
    "Wire " ++ toString wire ++ " referenced by a gate does not exist (grid has "
      ++ toString wires ++ " wires)"
  | .missingSwapPartner wire column =>
    "Swap gate at wire " ++ toString wire ++ ", column " ++ toString column
      ++ " has no partner wire"
  | .invalidDimensions wires columns =>
    "Invalid grid dimensions " ++ toString wires ++ "x" ++ toString columns

/-! ## Grids -/

/-- A grid of nodes with `wires` wires and `columns` columns. -/
structure Grid (α : Type) (wires columns : Nat) where
  /-- The columns in order of time. -/
  cells : Vector (Column α wires) columns
  wires_pos : 0 < wires
  wires_le : wires ≤ maxWires
  columns_pos : 0 < columns
  columns_le : columns ≤ maxColumns

namespace Grid

variable {α : Type} {wires columns : Nat}

/-- The grid without gates, if its dimensions are within the limits. -/
def empty? [Angle α] (wires columns : Nat) : Except GridError (Grid α wires columns) :=
  if h : (0 < wires ∧ wires ≤ maxWires) ∧ 0 < columns ∧ columns ≤ maxColumns then
    .ok ⟨Vector.replicate columns (Vector.replicate wires Node.empty), h.1.1, h.1.2, h.2.1, h.2.2⟩
  else .error (.invalidDimensions wires columns)

/-- Every cell reset to the empty node. -/
def clear [Angle α] (grid : Grid α wires columns) : Grid α wires columns :=
  { grid with cells := Vector.replicate columns (Vector.replicate wires Node.empty) }

/-! ## Access to cells -/

/-- The cell `(wire, column)`, if it lies in a grid of these dimensions. -/
def locate (wires columns wire column : Nat) : Except GridError (Fin wires × Fin columns) :=
  if h : wire < wires ∧ column < columns then .ok (⟨wire, h.1⟩, ⟨column, h.2⟩)
  else .error (.outOfRange wire column wires columns)

/-- The nodes of the column at `column`. -/
def columnAt (grid : Grid α wires columns) (column : Fin columns) : Column α wires :=
  grid.cells.get column

/-- The stored node of a cell. -/
def get (grid : Grid α wires columns) (wire column : Nat) : Except GridError (Node α) := do
  let (wire, column) ← locate wires columns wire column
  return (grid.columnAt column).get wire

/-- Put another column in place of the one at `column`. -/
def setColumn (grid : Grid α wires columns) (column : Fin columns) (nodes : Column α wires) :
    Grid α wires columns :=
  { grid with cells := grid.cells.set column.val nodes column.isLt }

/-- Overwrite the stored node of a cell; any node may be stored. -/
def set (grid : Grid α wires columns) (wire column : Nat) (node : Node α) :
    Except GridError (Grid α wires columns) := do
  let (wire, column) ← locate wires columns wire column
  return grid.setColumn column ((grid.columnAt column).put wire node)

/-- The nodes of one column, if the grid has it. -/
def column (grid : Grid α wires columns) (column : Nat) : Except GridError (Column α wires) := do
  let (_, column) ← locate wires columns 0 column
  return grid.columnAt column

/-! ## Queries -/

/-- What a cell stands for. -/
def kindAt (grid : Grid α wires columns) (wire column : Nat) : Except GridError CellKind := do
  let (wire, column) ← locate wires columns wire column
  return (grid.columnAt column).kindAt wire

/-- The wire of the gate that uses `wire` as a control in `column`. -/
def owner? (grid : Grid α wires columns) (wire column : Nat) :
    Except GridError (Option (Fin wires)) := do
  let (wire, column) ← locate wires columns wire column
  return (grid.columnAt column).owner? wire

/-- The side of its gate on which the control marker of a cell sits. -/
def side? (grid : Grid α wires columns) (wire column : Nat) :
    Except GridError (Option Side) := do
  let (wire, column) ← locate wires columns wire column
  return (grid.columnAt column).side? wire

/-- Every node, column by column. -/
def nodes (grid : Grid α wires columns) : List (Node α) :=
  grid.cells.toList.flatMap Vector.toList

/-- How many cells own a gate. -/
def gateCount (grid : Grid α wires columns) : Nat :=
  grid.nodes.countP fun node => node.gate?.isSome

end Grid

end CircuitGrid
