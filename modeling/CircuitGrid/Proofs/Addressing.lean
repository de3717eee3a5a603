import CircuitGrid.Angle.Radians
import CircuitGrid.Proofs.CellwiseEdits

/-!
# The editor stays inside its grid

The cursor begins on a cell of the grid and never leaves it. From there an action
is done, or it is rejected for a cell of the grid, and no other error occurs. That
holds of grids with any links at all: a gate may name itself, or a wire that is
not there. Performed cell by cell, with every index and every word checked, an action
comes to the same, so no check ever fails.
-/

namespace CircuitGrid

/-! ## Rejections -/

/-- The error rejects an edit for a cell of a grid of these dimensions. -/
def EditError.Inside (wires columns : Nat) : EditError → Prop
  | .invalidPlacement wire column _ => wire < wires ∧ column < columns
  | .controlUnavailable wire column => wire < wires ∧ column < columns
  | .unknownCommand _ => False
  | .grid _ => False

theorem EditError.Inside.isRecoverable {wires columns : Nat} {error : EditError}
    (h : error.Inside wires columns) : error.isRecoverable = true := by
  cases error with
  | grid error => exact h.elim
  | _ => rfl

/-! ## Actions -/

namespace Editor

variable {α : Type} {wires columns : Nat}

/-- The cursor is on a cell of the grid. -/
def CursorInside (editor : Editor α wires columns) : Prop :=
  editor.cursor.wire < wires ∧ editor.cursor.column < columns

theorem CursorInside.exists_fin {editor : Editor α wires columns} (h : editor.CursorInside) :
    ∃ (wire : Fin wires) (column : Fin columns), editor.cursor = ⟨wire, column⟩ :=
  ⟨⟨_, h.1⟩, ⟨_, h.2⟩, rfl⟩

theorem cursorInside_start (grid : Grid α wires columns) : (start grid).CursorInside :=
  ⟨grid.wires_pos, grid.columns_pos⟩

/-- A step of the cursor ends inside the grid if it begins there. -/
theorem stepCursor?_inside {cursor next : Cursor} {direction : Direction}
    (hinside : cursor.wire < wires ∧ cursor.column < columns)
    (h : stepCursor? wires columns cursor direction = some next) :
    next.wire < wires ∧ next.column < columns := by
  cases direction <;> simp only [stepCursor?] at h <;> split at h <;> cases h <;> dsimp only <;>
    omega

variable [Angle α]

theorem cursor_perform_edit (editor : Editor α wires columns) (work : Edit α) :
    (editor.perform (.edit work)).2.cursor = editor.cursor := by
  show (editor.edit work).2.cursor = editor.cursor
  unfold Editor.edit
  split
  · rfl
  · split <;> rfl

theorem CursorInside.perform {editor : Editor α wires columns} (h : editor.CursorInside)
    (action : Action α) : (editor.perform action).2.CursorInside := by
  cases action with
  | navigate direction =>
    show (editor.navigate direction).2.CursorInside
    unfold Editor.navigate
    split
    · next next hstep => exact stepCursor?_inside h hstep
    · exact h
  | edit work =>
    unfold CursorInside
    rw [cursor_perform_edit]
    exact h
  | reset => exact cursorInside_start _

/-- The cursor stays inside the grid along a whole run. -/
theorem CursorInside.run {editor : Editor α wires columns} (h : editor.CursorInside)
    (actions : List (Action α)) : (editor.run actions).CursorInside := by
  induction actions generalizing editor with
  | nil => exact h
  | cons action actions ih => exact ih (h.perform action)

end Editor

namespace CellProgram

variable {α : Type} {wires columns : Nat}

theorem execute_stepCursor {editor : Editor α wires columns} (h : editor.CursorInside)
    (direction : Direction) :
    (stepCursor editor.cursor direction).execute editor =
      (.ok (Editor.stepCursor? wires columns editor.cursor direction), editor) := by
  cases direction with
  | left =>
    simp only [stepCursor, Editor.stepCursor?]
    split
    · next hpos =>
      rw [execute_bind_of_ok (execute_minus hpos)]
      rfl
    · rfl
  | right =>
    simp only [stepCursor, Editor.stepCursor?]
    rw [execute_bind_of_ok (execute_plus (editor.grid.column_add_le_maxWord64 h.2))]
    rfl
  | up =>
    simp only [stepCursor, Editor.stepCursor?]
    split
    · next hpos =>
      rw [execute_bind_of_ok (execute_minus hpos)]
      rfl
    · rfl
  | down =>
    simp only [stepCursor, Editor.stepCursor?]
    rw [execute_bind_of_ok (execute_plus (editor.grid.add_le_maxWord64 h.1 (by decide)))]
    rfl

theorem execute_navigate {editor : Editor α wires columns} (h : editor.CursorInside)
    (direction : Direction) :
    (CellProgram.navigate editor.cursor direction).execute editor =
      (.ok (editor.navigate direction).1, (editor.navigate direction).2) := by
  unfold CellProgram.navigate Editor.navigate
  rw [execute_bind_of_ok (execute_stepCursor h direction)]
  cases Editor.stepCursor? wires columns editor.cursor direction <;> rfl

end CellProgram

namespace Editor

variable {α : Type} [Angle α] {wires columns : Nat}

/-- From a cursor inside the grid, an action performed cell by cell ends as the action does. -/
theorem performCells_eq {editor : Editor α wires columns} (h : editor.CursorInside)
    (action : Action α) :
    editor.performCells action =
      ((editor.perform action).1.mapError .edit, (editor.perform action).2) := by
  cases action with
  | navigate direction => exact CellProgram.execute_navigate h direction
  | reset => rfl
  | edit work =>
    obtain ⟨wire, column, hcursor⟩ := h.exists_fin
    have hcells := CellProgram.execute_edit editor column (editor.grid.columnAt column) wire work
    rw [withColumn_columnAt] at hcells
    have hperform : editor.performCells (.edit work) =
        (CellProgram.edit editor.cursor work).execute editor := rfl
    rw [hperform, hcursor, hcells]
    show _ = ((editor.edit work).1.mapError Fault.edit, (editor.edit work).2)
    rw [edit_fin hcursor]
    cases work.onColumn (editor.grid.columnAt column) wire with
    | changed nodes => rfl
    | unchanged | blocked | noRoom =>
      -- the column is put back as it was
      simp only [CellProgram.settled, withColumn_columnAt]
      rfl

/-- A gate that names itself and a wire far outside is deleted like any other. -/
example :
    let nodes : Column Float 2 := #v[(Node.ofGate .pauliX).withControls 0 maxWord64, Node.trace]
    let cells := (start (Grid.ofColumn nodes (by decide))).performCells (.edit .delete)
    cells.1.toOption = some .changed ∧
      ∀ wire, (cells.2.grid.columnAt 0).get wire = Node.empty := by
  decide

/-- From a cursor inside the grid, a run cell by cell leads to the same editor. -/
theorem runCells_eq {editor : Editor α wires columns} (h : editor.CursorInside)
    (actions : List (Action α)) : editor.runCells actions = editor.run actions := by
  induction actions generalizing editor with
  | nil => rfl
  | cons action actions ih =>
    show (editor.performCells action).2.runCells actions = (editor.perform action).2.run actions
    rw [performCells_eq h]
    exact ih (h.perform action)

/-- An action from a cursor inside the grid is rejected for a cell of the grid only. -/
theorem perform_error_inside {editor : Editor α wires columns} (h : editor.CursorInside)
    {action : Action α} {error : EditError} (herror : (editor.perform action).1 = .error error) :
    error.Inside wires columns := by
  cases action with
  | navigate direction => cases herror
  | reset => cases herror
  | edit work =>
    obtain ⟨wire, column, hcursor⟩ := h.exists_fin
    change (editor.edit work).1 = .error error at herror
    rw [edit_fin hcursor] at herror
    split at herror
    · cases herror
    · cases herror
    · next other found hblocked =>
      cases herror
      exact ⟨Column.onColumn_eq_blocked hblocked, column.isLt⟩
    · cases herror
      exact ⟨wire.isLt, column.isLt⟩

/-- After any history the cursor is on a cell of the grid, and whatever is done next is
done or rejected for a cell of the grid. Done cell by cell, with an index checked at
every access and a word at every sum and difference, the history leads to the same
editor and the action ends in the same way: no access is refused, and no word leaves
its range. -/
theorem session_in_range (grid : Grid α wires columns) (history : List (Action α))
    (action : Action α) :
    let editor := (start grid).run history
    editor.CursorInside ∧
    (∀ error, (editor.perform action).1 = .error error → error.Inside wires columns) ∧
    (start grid).runCells history = editor ∧
    editor.performCells action =
      ((editor.perform action).1.mapError .edit, (editor.perform action).2) ∧
    ∀ fault, (editor.performCells action).1 = .error fault →
      ∃ error, fault = .edit error ∧ error.Inside wires columns := by
  intro editor
  have hstart := cursorInside_start grid
  have hinside : editor.CursorInside := hstart.run history
  have hcells := performCells_eq hinside action
  refine ⟨hinside, fun error => perform_error_inside hinside, runCells_eq hstart history, hcells,
    ?_⟩
  -- a fault of the cells is an error of the editor
  intro fault hfault
  rw [hcells] at hfault
  cases hresult : (editor.perform action).1 with
  | ok outcome =>
    rw [hresult] at hfault
    cases hfault
  | error error =>
    rw [hresult] at hfault
    cases hfault
    exact ⟨error, rfl, perform_error_inside hinside hresult⟩

end Editor

end CircuitGrid
