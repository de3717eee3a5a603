import CircuitGrid.Edit.Editor
import CircuitGrid.Text.Numeral

/-!
# Edits cell by cell

The actions of an editor once more, as programs that address one cell at a time
by its number and compute these numbers in machine words. The grid refuses an
access outside of it, a sum or a difference may be no word, and what a program
has written before it fails stays written.

`CircuitGrid.Proofs.Addressing` shows that these programs do what the editor
does, so that nothing of the kind happens.
-/

namespace CircuitGrid

/-! ## Programs -/

/-- What ends a program early. -/
inductive Fault where
  /-- The edit was rejected, or the grid refused an access. -/
  | edit (error : EditError)
  /-- A sum or a difference of wires is no machine word. -/
  | arithmetic
  deriving DecidableEq, Repr

/-- Programs that work on an editor. -/
abbrev CellProgram (α : Type) (wires columns : Nat) :=
  ExceptT Fault (StateM (Editor α wires columns))

/-- How putting a control on a wire ends. -/
inductive Landing where
  | placed
  | outOfBounds
  | blocked (found : CellKind)
  deriving DecidableEq, Repr

namespace CellProgram

variable {α τ : Type} {wires columns : Nat}

/-- Run a program on an editor. -/
def execute (program : CellProgram α wires columns τ) (editor : Editor α wires columns) :
    Except Fault τ × Editor α wires columns :=
  program.run.run editor

/-! ## Words and cells -/

/-- A sum, which must be a word. -/
def plus (a b : Nat) : CellProgram α wires columns Nat :=
  if a + b ≤ maxWord64 then return a + b else throw .arithmetic

/-- A difference, which must not be negative. -/
def minus (a b : Nat) : CellProgram α wires columns Nat :=
  if b ≤ a then return a - b else throw .arithmetic

/-- What the grid answers to a query. -/
def ask (query : Grid α wires columns → Except GridError τ) : CellProgram α wires columns τ := do
  match query (← get).grid with
  | .ok answer => return answer
  | .error error => throw (.edit (.grid error))

/-- Overwrite the node of a cell. -/
def write (wire column : Nat) (node : Node α) : CellProgram α wires columns Unit := do
  let grid ← ask (·.set wire column node)
  modify fun editor => { editor with grid }

variable [Angle α]

/-! ## Links and traces -/

/-- Clear a cell that holds a trace marker. -/
def clearTrace (wire column : Nat) : CellProgram α wires columns Unit := do
  let node ← ask (·.get wire column)
  if node.content = .trace then write wire column Node.empty

/-- Clear the trace markers strictly between two wires, one of which may not exist. -/
def clearBetween (a b column : Nat) : CellProgram α wires columns Unit := do
  let first ← plus (min a b) 1
  (List.range' first (min (max a b) wires - first)).forM (clearTrace · column)

/-- Point the first control of a gate at `candidate` if that wire is free. -/
def placeControl (gate candidate column : Nat) : CellProgram α wires columns Landing := do
  if wires ≤ candidate then return .outOfBounds
  else
    let found ← ask (·.kindAt candidate column)
    if found.acceptsControl then
      let node ← ask (·.get gate column)
      write gate column (node.withControl candidate)
      write candidate column Node.empty
      return .placed
    else return .blocked found

/-- Put a control on the wire above a gate, if it has one. -/
def placeAbove (gate column : Nat) : CellProgram α wires columns Landing := do
  if 0 < gate then placeControl gate (← minus gate 1) column else return .outOfBounds

/-- Put a control on the wire below a gate. -/
def placeBelow (gate column : Nat) : CellProgram α wires columns Landing := do
  placeControl gate (← plus gate 1) column

/-- Remove the controls of a gate that has some. -/
def removeControls (gate column : Nat) : CellProgram α wires columns Outcome := do
  let node ← ask (·.get gate column)
  if node.hasControls then
    match Column.furthestControl? gate node with
    | some control => clearBetween gate control column
    | none => pure ()
    write gate column node.withoutControls
    return .changed
  else return .unchanged

/-! ## The edits -/

def placeGate (wire column : Nat) (gate : Gate) : CellProgram α wires columns Outcome := do
  let found ← ask (·.kindAt wire column)
  if found = .empty ∧ gate.isSingleWire then
    write wire column (Node.ofGate gate)
    return .changed
  else throw (.edit (.invalidPlacement wire column found))

def delete (wire column : Nat) : CellProgram α wires columns Outcome := do
  match ← ask (·.kindAt wire column) with
  | .gate _ =>
    let _ ← removeControls wire column
    write wire column Node.empty
    return .changed
  | .control =>
    match ← ask (·.owner? wire column) with
    | some gate => removeControls gate column
    | none => return .unchanged
  | .empty | .trace | .swapPartner => return .unchanged

def toggleControl (wire column : Nat) : CellProgram α wires columns Outcome := do
  let node ← ask (·.get wire column)
  if node.isControllable then
    match node.controlA with
    | some control =>
      write wire column { node with controlA := none }
      clearBetween wire control column
      return .changed
    | none =>
      if node.isRotated then return .unchanged
      else
        let above ← placeAbove wire column
        if above = .placed then return .changed
        else
          let below ← placeBelow wire column
          if below = .placed then return .changed
          else throw (.edit (.controlUnavailable wire column))
  else return .unchanged

/-- The wire on which a control lands that moves one step. -/
def step (gate control : Nat) : Direction → CellProgram α wires columns (Option Nat)
  | .up => do
    if control = 0 then return none
    else
      let above ← minus control 1
      if above = gate then
        if above = 0 then return none else return some (← minus above 1)
      else return some above
  | .down => do
    let below ← plus control 1
    if below = gate then return some (← plus control 2) else return some below
  | .left | .right => return none

/-- The wire that a step away from the gate leaves behind. -/
def behind (gate candidate : Nat) : Direction → CellProgram α wires columns (Option Nat)
  | .up => do if candidate < gate then return some (← plus candidate 1) else return none
  | .down => do if gate < candidate then return some (← minus candidate 1) else return none
  | .left | .right => return none

def moveControl (wire column : Nat) (direction : Direction) :
    CellProgram α wires columns Outcome := do
  let node ← ask (·.get wire column)
  if node.isControllable then
    match node.controlA.filter (· < wires) with
    | none => return .unchanged
    | some control =>
      match ← step wire control direction with
      | none => return .unchanged
      | some candidate =>
        match ← placeControl wire candidate column with
        | .outOfBounds => return .unchanged
        | .blocked found => throw (.edit (.invalidPlacement candidate column found))
        | .placed =>
          match ← behind wire candidate direction with
          | none => return .changed
          | some left =>
            if (← ask (·.kindAt left column)) = .empty then write left column Node.trace
            return .changed
  else return .unchanged

def rotate (wire column : Nat) (angle : α) : CellProgram α wires columns Outcome := do
  let node ← ask (·.get wire column)
  match node.rotateBy? angle with
  | some turned =>
    write wire column turned
    return .changed
  | none => return .unchanged

/-! ## Actions -/

/-- The cursor one step further, if the grid reaches that far. -/
def stepCursor (cursor : Cursor) : Direction → CellProgram α wires columns (Option Cursor)
  | .left => do
    if 0 < cursor.column then return some { cursor with column := ← minus cursor.column 1 }
    else return none
  | .right => do
    let column ← plus cursor.column 1
    return if column < columns then some { cursor with column } else none
  | .up => do
    if 0 < cursor.wire then return some { cursor with wire := ← minus cursor.wire 1 }
    else return none
  | .down => do
    let wire ← plus cursor.wire 1
    return if wire < wires then some { cursor with wire } else none

def navigate (cursor : Cursor) (direction : Direction) : CellProgram α wires columns Outcome := do
  match ← stepCursor cursor direction with
  | some cursor =>
    modify fun editor => { editor with cursor }
    return .changed
  | none => return .unchanged

/-- The program of an edit under the cursor. -/
def edit (cursor : Cursor) : Edit α → CellProgram α wires columns Outcome
  | .placeGate gate => placeGate cursor.wire cursor.column gate
  | .delete => delete cursor.wire cursor.column
  | .toggleControl => toggleControl cursor.wire cursor.column
  | .moveControl direction => moveControl cursor.wire cursor.column direction
  | .rotate angle => rotate cursor.wire cursor.column angle

/-- The program of an action. -/
def perform (action : Action α) : CellProgram α wires columns Outcome := do
  let cursor := (← get).cursor
  match action with
  | .navigate direction => navigate cursor direction
  | .edit work => edit cursor work
  | .reset =>
    modify Editor.reset
    return .changed

end CellProgram

/-- Perform an action cell by cell. -/
def Editor.performCells {α : Type} [Angle α] {wires columns : Nat}
    (editor : Editor α wires columns) (action : Action α) :
    Except Fault Outcome × Editor α wires columns :=
  (CellProgram.perform action).execute editor

/-- The editor after performing actions in order cell by cell, however each of them ends. -/
def Editor.runCells {α : Type} [Angle α] {wires columns : Nat} (editor : Editor α wires columns) :
    List (Action α) → Editor α wires columns
  | [] => editor
  | action :: actions => (editor.performCells action).2.runCells actions

end CircuitGrid
