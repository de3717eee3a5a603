import CircuitGrid.Proofs.Addressing

/-!
# Columns do not interfere

What an action does is decided by the cursor and by the column under it, and no other
column is touched. So two editors that agree on these go through the action in the
same way, whatever else their grids hold. Over a session without a reset, a column
goes only through the edits made in it: where else the cursor has been in between,
and what was done there, leaves no trace.
-/

namespace CircuitGrid

namespace Column

variable {α : Type} [Angle α] {n : Nat}

/-- The column after edits from different wires; from a wire it does not have, none is made. -/
def afterVisits (column : Column α n) : List (Nat × Edit α) → Column α n
  | [] => column
  | (wire, work) :: visits =>
    (if h : wire < n then column.after ⟨wire, h⟩ work else column).afterVisits visits

end Column

namespace Editor

variable {α : Type} {wires columns : Nat}

/-- The cursors are on the same cell, and the nodes of its column are the same. -/
structure Alike (editor other : Editor α wires columns) : Prop where
  cursor : other.cursor = editor.cursor
  column : ∀ column : Fin columns, column.val = editor.cursor.column →
    other.grid.columnAt column = editor.grid.columnAt column

/-- What two editors come to stays in the column of the cursor and is the same there. -/
structure Isolated {ε : Type} (editor other : Editor α wires columns)
    (result result' : Except ε Outcome × Editor α wires columns) : Prop where
  /-- Both report the same. -/
  outcome : result'.1 = result.1
  /-- Both have the cursor on the same cell. -/
  cursor : result'.2.cursor = result.2.cursor
  /-- Both hold the same in the column where the cursor was. -/
  column : ∀ column : Fin columns, column.val = editor.cursor.column →
    result'.2.grid.columnAt column = result.2.grid.columnAt column
  /-- Each of them has its other columns as they were. -/
  others : ∀ column : Fin columns, column.val ≠ editor.cursor.column →
    result.2.grid.columnAt column = editor.grid.columnAt column ∧
      result'.2.grid.columnAt column = other.grid.columnAt column

theorem Isolated.mapError {ε ε' : Type} {editor other : Editor α wires columns}
    {result result' : Except ε Outcome × Editor α wires columns}
    (h : Isolated editor other result result') (f : ε → ε') :
    Isolated editor other (result.1.mapError f, result.2) (result'.1.mapError f, result'.2) :=
  ⟨congrArg (Except.mapError f) h.outcome, h.cursor, h.column, h.others⟩

/-! ## One action -/

section Actions

variable {editor other : Editor α wires columns}

theorem Alike.isolated_same (h : editor.Alike other) {ε : Type} (result : Except ε Outcome) :
    Isolated editor other (result, editor) (result, other) :=
  ⟨rfl, h.cursor, h.column, fun _ _ => ⟨rfl, rfl⟩⟩

/-- Other nodes for the column of the cursor, the same in both editors. -/
theorem Alike.isolated_setColumn (h : editor.Alike other) {column : Fin columns}
    (hcolumn : editor.cursor.column = column) {ε : Type} (result : Except ε Outcome)
    (nodes : Column α wires) :
    Isolated editor other (result, { editor with grid := editor.grid.setColumn column nodes })
      (result, { other with grid := other.grid.setColumn column nodes }) := by
  refine ⟨rfl, h.cursor, ?_, ?_⟩
  · intro place hplace
    obtain rfl : place = column := Fin.ext (hplace.trans hcolumn)
    simp only [Grid.columnAt_setColumn_self]
  · intro place hplace
    have hne : place ≠ column := fun heq => hplace (heq ▸ hcolumn.symm)
    exact ⟨Grid.columnAt_setColumn_of_ne _ _ hne, Grid.columnAt_setColumn_of_ne _ _ hne⟩

theorem Alike.isolated_navigate (h : editor.Alike other) {ε : Type} (direction : Direction) :
    Isolated (ε := ε) editor other
      (.ok (editor.navigate direction).1, (editor.navigate direction).2)
      (.ok (other.navigate direction).1, (other.navigate direction).2) := by
  unfold Editor.navigate
  rw [h.cursor]
  cases stepCursor? wires columns editor.cursor direction with
  | none => exact h.isolated_same _
  | some next => exact ⟨rfl, rfl, h.column, fun _ _ => ⟨rfl, rfl⟩⟩

variable [Angle α]

theorem Alike.isolated_edit (h : editor.Alike other) (work : Edit α) :
    Isolated editor other (editor.edit work) (other.edit work) := by
  cases hlocate : Grid.locate wires columns editor.cursor.wire editor.cursor.column with
  | error error =>
    -- a cursor beside the grid
    have hlocate' := hlocate
    rw [← h.cursor] at hlocate'
    simp only [Editor.edit, hlocate, hlocate']
    exact h.isolated_same _
  | ok cell =>
    obtain ⟨wire, column⟩ := cell
    have hcursor := cursor_eq_of_locate hlocate
    have hcolumn : editor.cursor.column = column := congrArg Cursor.column hcursor
    rw [edit_fin hcursor, edit_fin (h.cursor.trans hcursor), h.column column hcolumn.symm]
    cases work.onColumn (editor.grid.columnAt column) wire with
    | changed nodes => exact h.isolated_setColumn hcolumn _ nodes
    | unchanged => exact h.isolated_same _
    | blocked place found => exact h.isolated_same _
    | noRoom => exact h.isolated_same _

/-- An action other than a reset ends in the same way in two editors that are alike, and
keeps to the column of the cursor. -/
theorem Alike.isolated_perform (h : editor.Alike other) {action : Action α}
    (haction : action ≠ .reset) :
    Isolated editor other (editor.perform action) (other.perform action) := by
  cases action with
  | navigate direction => exact h.isolated_navigate direction
  | edit work => exact h.isolated_edit work
  | reset => exact absurd rfl haction

/-- The same holds of the action performed cell by cell, by accesses to the whole grid. -/
theorem Alike.isolated_performCells (h : editor.Alike other) (hinside : editor.CursorInside)
    {action : Action α} (haction : action ≠ .reset) :
    Isolated editor other (editor.performCells action) (other.performCells action) := by
  have hinside' : other.CursorInside := by
    unfold CursorInside
    rw [h.cursor]
    exact hinside
  rw [performCells_eq hinside, performCells_eq hinside']
  exact (h.isolated_perform haction).mapError Fault.edit

end Actions

/-! ## Sessions -/

section Sessions

variable [Angle α]

/-- The edits that a session makes in a column, each with the wire of the cursor. -/
def visits (column : Nat) (editor : Editor α wires columns) : List (Action α) → List (Nat × Edit α)
  | [] => []
  | .navigate direction :: actions =>
    visits column (editor.perform (.navigate direction)).2 actions
  | .reset :: actions => visits column (editor.perform .reset).2 actions
  | .edit work :: actions =>
    let rest := visits column (editor.perform (.edit work)).2 actions
    if editor.cursor.column = column then (editor.cursor.wire, work) :: rest else rest

theorem columnAt_perform_of_ne {editor : Editor α wires columns} {column : Fin columns}
    (hcolumn : column.val ≠ editor.cursor.column) {action : Action α} (haction : action ≠ .reset) :
    (editor.perform action).2.grid.columnAt column = editor.grid.columnAt column := by
  have hself : editor.Alike editor := ⟨rfl, fun _ _ => rfl⟩
  exact ((hself.isolated_perform haction).others column hcolumn).1

/-- An edit from the column is made in the column, from the wire of the cursor. -/
theorem columnAt_perform_edit {editor : Editor α wires columns} {column : Fin columns}
    (hcolumn : editor.cursor.column = column) (work : Edit α) :
    (editor.perform (.edit work)).2.grid.columnAt column =
      (editor.grid.columnAt column).afterVisits [(editor.cursor.wire, work)] := by
  unfold Column.afterVisits
  by_cases hwire : editor.cursor.wire < wires
  · have hcursor : editor.cursor = ⟨(⟨editor.cursor.wire, hwire⟩ : Fin wires), column⟩ := by
      rw [← hcolumn]
    rw [dif_pos hwire, perform_edit hcursor, Grid.columnAt_setColumn_self]
    rfl
  · have hlocate : Grid.locate wires columns editor.cursor.wire editor.cursor.column =
        .error (.outOfRange editor.cursor.wire editor.cursor.column wires columns) :=
      dif_neg (fun h => hwire h.1)
    rw [dif_neg hwire, perform_edit_of_error hlocate]
    rfl

/-- Without a reset, a session takes each column through the edits it makes there. -/
theorem columnAt_run (editor : Editor α wires columns) {actions : List (Action α)}
    (hactions : .reset ∉ actions) (column : Fin columns) :
    (editor.run actions).grid.columnAt column =
      (editor.grid.columnAt column).afterVisits (visits column editor actions) := by
  induction actions generalizing editor with
  | nil => rfl
  | cons action actions ih =>
    have haction : action ≠ .reset := (List.ne_of_not_mem_cons hactions).symm
    have hrest : .reset ∉ actions := List.not_mem_of_not_mem_cons hactions
    show ((editor.perform action).2.run actions).grid.columnAt column = _
    rw [ih (editor.perform action).2 hrest]
    cases action with
    | reset => exact absurd rfl haction
    | navigate direction =>
      rw [visits, grid_perform_navigate]
    | edit work =>
      rw [visits]
      split
      · next hcolumn =>
        rw [columnAt_perform_edit hcolumn]
        rfl
      · next hcolumn => rw [columnAt_perform_of_ne (Ne.symm hcolumn) haction]

/-- Columns do not interfere. In two editors that agree on the cursor and on its column, an
action other than a reset, done at once or cell by cell, ends in the same way, leaves that
column and the cursor the same in both, and leaves all other columns as they were. What a
session without a reset makes of a column is therefore decided by the content it finds
there and the edits it makes there, each with the wire of the cursor: it is the same for
two sessions that agree on these, be it in different columns of grids of different length. -/
theorem columns_isolated :
    (∀ {editor other : Editor α wires columns}, editor.Alike other →
      ∀ {action : Action α}, action ≠ .reset →
        Isolated editor other (editor.perform action) (other.perform action) ∧
          (editor.CursorInside →
            Isolated editor other (editor.performCells action) (other.performCells action))) ∧
    ∀ {columns' : Nat} (editor : Editor α wires columns) (other : Editor α wires columns')
      {actions actions' : List (Action α)}, .reset ∉ actions → .reset ∉ actions' →
      ∀ (column : Fin columns) (column' : Fin columns'),
        editor.grid.columnAt column = other.grid.columnAt column' →
        visits column editor actions = visits column' other actions' →
          (editor.run actions).grid.columnAt column =
            (other.run actions').grid.columnAt column' := by
  refine ⟨fun halike action haction => ⟨halike.isolated_perform haction, fun hinside =>
    halike.isolated_performCells hinside haction⟩, ?_⟩
  intro columns' editor other actions actions' hactions hactions' column column' hcontent hvisits
  rw [columnAt_run editor hactions, columnAt_run other hactions', hcontent, hvisits]

/-- An X gate beside an empty column, and beside one in which a swap names itself and a wire
far outside. Its control is placed in the same way, and a session that works on the other
column in between makes the same of this one. -/
theorem columns_isolated_two_by_two :
    let gate : Column Float 2 := #v[Node.ofGate .pauliX, Node.empty]
    let odd : Column Float 2 := #v[(Node.ofGate .swap).withControls 0 maxWord64, Node.trace]
    let blank : Column Float 2 := #v[Node.empty, Node.empty]
    let editor : Editor Float 2 2 :=
      start ⟨#v[gate, blank], by decide, by decide, by decide, by decide⟩
    let other : Editor Float 2 2 :=
      start ⟨#v[gate, odd], by decide, by decide, by decide, by decide⟩
    let plain : List (Action Float) := [.edit .toggleControl, .edit (.rotate 0.5)]
    let detour : List (Action Float) := [.edit .toggleControl, .navigate .right, .edit .delete,
      .navigate .left, .edit (.rotate 0.5)]
    editor.Alike other ∧
      Isolated editor other (editor.perform (.edit .toggleControl))
        (other.perform (.edit .toggleControl)) ∧
      visits 0 editor plain = visits 0 other detour ∧
      (editor.run plain).grid.columnAt 0 = (other.run detour).grid.columnAt 0 := by
  intro gate odd blank editor other plain detour
  have halike : editor.Alike other := ⟨rfl, fun column hcolumn => by
    obtain rfl : column = 0 := Fin.ext hcolumn
    rfl⟩
  have haction : (.edit .toggleControl : Action Float) ≠ .reset := nofun
  have hvisits : visits 0 editor plain = visits 0 other detour := by decide
  exact ⟨halike, (columns_isolated.1 halike haction).1, hvisits,
    columns_isolated.2 editor other (by simp [plain]) (by simp [detour]) 0 0 rfl hvisits⟩

end Sessions

end Editor

end CircuitGrid
