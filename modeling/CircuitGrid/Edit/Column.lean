import CircuitGrid.Column
import CircuitGrid.Edit.Command

/-!
# Edits of one column

Every edit of the grid reads and rewrites the column of the cursor alone. Here
an edit is a function from the column and the cursor's wire to a `ColumnEdit`:
the changed column, no change, or the reason why the edit cannot be made.

A gate reaches its first control across a run of trace markers. An edit that
removes or moves a control keeps these markers in step with it.
-/

namespace CircuitGrid

/-- What an edit of a column comes to. -/
inductive ColumnEdit (α : Type) (n : Nat) where
  /-- The edit was made. -/
  | changed (column : Column α n)
  /-- The edit does not apply to this cell. -/
  | unchanged
  /-- The cell on `wire` is not free. -/
  | blocked (wire : Nat) (found : CellKind)
  /-- No neighbour of the gate can take a control. -/
  | noRoom

/-- What comes of putting a control on a wire. -/
inductive Placement (α : Type) (n : Nat) where
  | placed (column : Column α n)
  | outOfBounds
  | blocked (found : CellKind)

namespace Column

variable {α : Type} [Angle α] {n : Nat}

/-! ## Links and traces -/

/-- Clear the trace markers strictly between two wires. -/
def clearTraces (column : Column α n) (a b : Nat) : Column α n :=
  column.mapFinIdx fun wire node _ =>
    if min a b < wire ∧ wire < max a b ∧ node.content = .trace then Node.empty else node

/-- Point the first control of the gate at `candidate`, which must be free or
hold a trace. The candidate's cell is emptied. -/
def placeControl (column : Column α n) (gate : Fin n) (candidate : Nat) : Placement α n :=
  if h : candidate < n then
    let found := column.kindAt ⟨candidate, h⟩
    if found.acceptsControl then
      let node := column.get gate
      let linked := column.put gate (node.withControl candidate)
      .placed (linked.put ⟨candidate, h⟩ Node.empty)
    else .blocked found
  else .outOfBounds

/-- How far a control is from its gate; an absent one is not far at all. -/
def controlDistance (gate : Nat) : Option Nat → Nat
  | some control => max control gate - min control gate
  | none => 0

/-- The control further away from the gate, if one is. -/
def furthestControl? (gate : Nat) (node : Node α) : Option Nat :=
  if controlDistance gate node.controlB < controlDistance gate node.controlA then node.controlA
  else if controlDistance gate node.controlA < controlDistance gate node.controlB then
    node.controlB
  else none

/-- Remove the controls of a gate that has some, with the traces between the gate
and its further control. Where both are equally far, the traces stay. -/
def removeControls? (column : Column α n) (gate : Fin n) : Option (Column α n) :=
  let node := column.get gate
  if node.hasControls then
    let cleared := match furthestControl? gate node with
      | some control => column.clearTraces gate control
      | none => column
    some (cleared.put gate node.withoutControls)
  else none

/-! ## The edits -/

/-- Place a fresh gate on a free cell; a gate that needs two wires cannot be placed. -/
def placeGate (column : Column α n) (wire : Fin n) (gate : Gate) : ColumnEdit α n :=
  let found := column.kindAt wire
  if found = .empty ∧ gate.isSingleWire then .changed (column.put wire (Node.ofGate gate))
  else .blocked wire found

/-- Delete the gate of a cell with its controls, or the controls of the gate that
a control marker belongs to. -/
def delete (column : Column α n) (wire : Fin n) : ColumnEdit α n :=
  match column.kindAt wire with
  | .gate _ => .changed (((column.removeControls? wire).getD column).put wire Node.empty)
  | .control =>
    match (column.owner? wire).bind column.removeControls? with
    | some column => .changed column
    | none => .unchanged
  | .empty | .trace | .swapPartner => .unchanged

/-- Remove the first control of a gate, or give it one on the wire above it, and
failing that below it. A rotated gate is given none. -/
def toggleControl (column : Column α n) (wire : Fin n) : ColumnEdit α n :=
  let node := column.get wire
  if node.isControllable then
    match node.controlA with
    | some control =>
      .changed ((column.put wire { node with controlA := none }).clearTraces wire control)
    | none =>
      if node.isRotated then .unchanged
      else
        match if 0 < wire.val then column.placeControl wire (wire - 1) else .outOfBounds with
        | .placed column => .changed column
        | _ =>
          match column.placeControl wire (wire + 1) with
          | .placed column => .changed column
          | _ => .noRoom
  else .unchanged

/-- The wire on which a control lands that moves one step; it steps over the gate. -/
def controlStep? (gate control : Nat) : Direction → Option Nat
  | .up =>
    if control = 0 then none
    else if control - 1 = gate then (if gate = 0 then none else some (gate - 1))
    else some (control - 1)
  | .down => some (if control + 1 = gate then control + 2 else control + 1)
  | .left | .right => none

/-- The wire next to the control that a step away from the gate leaves behind. -/
def wireBehind? (gate control : Nat) : Direction → Option Nat
  | .up => if control < gate then some (control + 1) else none
  | .down => if gate < control then some (control - 1) else none
  | .left | .right => none

/-- Put a trace on a wire if its cell is free. -/
def markTrace (column : Column α n) (wire : Nat) : Column α n :=
  if h : wire < n then
    if column.kindAt ⟨wire, h⟩ = .empty then column.put ⟨wire, h⟩ Node.trace else column
  else column

/-- Move the first control of a gate one step. A control that moves away from its
gate leaves a trace. -/
def moveControl (column : Column α n) (wire : Fin n) (direction : Direction) : ColumnEdit α n :=
  let node := column.get wire
  if node.isControllable then
    match node.controlA.filter (· < n) with
    | none => .unchanged
    | some control =>
      match controlStep? wire control direction with
      | none => .unchanged
      | some candidate =>
        match column.placeControl wire candidate with
        | .outOfBounds => .unchanged
        | .blocked found => .blocked candidate found
        | .placed column =>
          .changed ((wireBehind? wire candidate direction).elim column column.markTrace)
  else .unchanged

/-- Turn the Pauli gate of a cell. -/
def rotate (column : Column α n) (wire : Fin n) (angle : α) : ColumnEdit α n :=
  match (column.get wire).rotateBy? angle with
  | some node => .changed (column.put wire node)
  | none => .unchanged

end Column

end CircuitGrid
