import CircuitGrid.Edit.Column
import CircuitGrid.Edit.Error

/-!
# The editor: a grid under a cursor

An editor owns a grid and a cursor. An action moves the cursor, edits the
cursor's column, or starts over. What an action comes to is an outcome or a
diagnostic; the editor after it is the second part of the result, and it is the
editor before it unless the outcome says that something changed.
-/

namespace CircuitGrid

/-- Whether an action changed anything. -/
inductive Outcome where
  | changed
  | unchanged
  deriving DecidableEq, Repr

/-- Whether the action changed something. -/
def Outcome.isChanged : Outcome → Bool
  | .changed => true
  | .unchanged => false

/-- Where the next edit happens. -/
structure Cursor where
  wire : Nat
  column : Nat
  deriving DecidableEq, Repr

/-- The cursor at the beginning of a session. -/
def Cursor.home : Cursor := ⟨0, 0⟩

/-- An edit of the column under the cursor. -/
inductive Edit (α : Type) where
  | placeGate (gate : Gate)
  | delete
  | toggleControl
  | moveControl (direction : Direction)
  | rotate (angle : α)
  deriving DecidableEq, Repr

/-- Everything that can be asked of an editor. -/
inductive Action (α : Type) where
  | navigate (direction : Direction)
  | edit (edit : Edit α)
  /-- Start over with an empty grid and the cursor at home. -/
  | reset
  deriving DecidableEq, Repr

/-- The action of a command. -/
def Command.action {α : Type} : Command α → Action α
  | .navigateLeft => .navigate .left
  | .navigateRight => .navigate .right
  | .navigateUp => .navigate .up
  | .navigateDown => .navigate .down
  | .placeX => .edit (.placeGate .pauliX)
  | .placeY => .edit (.placeGate .pauliY)
  | .placeZ => .edit (.placeGate .pauliZ)
  | .placeH => .edit (.placeGate .hadamard)
  | .delete => .edit .delete
  | .toggleControl => .edit .toggleControl
  | .moveControlUp => .edit (.moveControl .up)
  | .moveControlDown => .edit (.moveControl .down)
  | .rotateBy angle => .edit (.rotate angle)

/-- The edit as a function of the column and the cursor's wire. -/
def Edit.onColumn {α : Type} [Angle α] {n : Nat} (edit : Edit α) (column : Column α n)
    (wire : Fin n) : ColumnEdit α n :=
  match edit with
  | .placeGate gate => column.placeGate wire gate
  | .delete => column.delete wire
  | .toggleControl => column.toggleControl wire
  | .moveControl direction => column.moveControl wire direction
  | .rotate angle => column.rotate wire angle

/-- A grid being edited. -/
structure Editor (α : Type) (wires columns : Nat) where
  grid : Grid α wires columns
  cursor : Cursor

namespace Editor

variable {α : Type} {wires columns : Nat}

/-- Start editing a grid, with the cursor at home. -/
def start (grid : Grid α wires columns) : Editor α wires columns := ⟨grid, .home⟩

/-- What the cell under the cursor stands for. -/
def selectedKind (editor : Editor α wires columns) : Except EditError CellKind :=
  (editor.grid.kindAt editor.cursor.wire editor.cursor.column).mapError .grid

/-- The cursor one step further, if the grid reaches that far. -/
def stepCursor? (wires columns : Nat) (cursor : Cursor) : Direction → Option Cursor
  | .left => if 0 < cursor.column then some { cursor with column := cursor.column - 1 } else none
  | .right =>
    if cursor.column + 1 < columns then some { cursor with column := cursor.column + 1 } else none
  | .up => if 0 < cursor.wire then some { cursor with wire := cursor.wire - 1 } else none
  | .down =>
    if cursor.wire + 1 < wires then some { cursor with wire := cursor.wire + 1 } else none

/-- Move the cursor one step; at the edge of the grid it stays. -/
def navigate (editor : Editor α wires columns) (direction : Direction) :
    Outcome × Editor α wires columns :=
  match stepCursor? wires columns editor.cursor direction with
  | some cursor => (.changed, { editor with cursor })
  | none => (.unchanged, editor)

variable [Angle α]

/-- Make an edit under the cursor. -/
def edit (editor : Editor α wires columns) (edit : Edit α) :
    Except EditError Outcome × Editor α wires columns :=
  match Grid.locate wires columns editor.cursor.wire editor.cursor.column with
  | .error error => (.error (.grid error), editor)
  | .ok (wire, column) =>
    match edit.onColumn (editor.grid.columnAt column) wire with
    | .changed nodes =>
      (.ok .changed, { editor with grid := editor.grid.setColumn column nodes })
    | .unchanged => (.ok .unchanged, editor)
    | .blocked wire found => (.error (.invalidPlacement wire column found), editor)
    | .noRoom => (.error (.controlUnavailable wire column), editor)

/-- An empty grid of the same size, and the cursor at home. -/
def reset (editor : Editor α wires columns) : Editor α wires columns :=
  start editor.grid.clear

/-- Perform an action. -/
def perform (editor : Editor α wires columns) :
    Action α → Except EditError Outcome × Editor α wires columns
  | .navigate direction =>
    let (outcome, editor) := editor.navigate direction
    (.ok outcome, editor)
  | .edit edit => editor.edit edit
  | .reset => (.ok .changed, editor.reset)

/-- Apply a command. -/
def apply (editor : Editor α wires columns) (command : Command α) :
    Except EditError Outcome × Editor α wires columns :=
  editor.perform command.action

end Editor

end CircuitGrid
