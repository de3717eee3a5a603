import CircuitGrid.Edit.Editor
import CircuitGrid.Proofs.Cells

/-!
# Runs of an editor

A run performs actions one after another and goes on from whatever editor each
of them leaves, accepted or rejected. Every action keeps all columns but the
cursor's, so a property of columns holds along a whole run once it holds of the
fresh column and is kept by every edit (`Editor.run_each`).
-/

namespace CircuitGrid

/-! ## Columns of a grid -/

namespace Grid

variable {α : Type} {wires columns : Nat}

/-- Every column of the grid has a property. -/
def Each (P : Column α wires → Prop) (grid : Grid α wires columns) : Prop :=
  ∀ column, P (grid.columnAt column)

instance (P : Column α wires → Prop) [DecidablePred P] (grid : Grid α wires columns) :
    Decidable (grid.Each P) :=
  inferInstanceAs (Decidable (∀ column, P (grid.columnAt column)))

/-- The grid of one column. -/
def ofColumn (nodes : Column α wires) (h : 0 < wires ∧ wires ≤ maxWires) : Grid α wires 1 :=
  ⟨#v[nodes], h.1, h.2, Nat.one_pos, Nat.one_le_of_lt (by decide : 0 < maxColumns)⟩

theorem ext_columnAt {grid other : Grid α wires columns}
    (h : ∀ column, grid.columnAt column = other.columnAt column) : grid = other := by
  cases grid with
  | mk cells =>
    cases other with
    | mk cells' =>
      congr 1
      apply Vector.ext
      intro i hi
      exact h ⟨i, hi⟩

@[simp] theorem columnAt_setColumn_self (grid : Grid α wires columns) (column : Fin columns)
    (nodes : Column α wires) : (grid.setColumn column nodes).columnAt column = nodes := by
  show (grid.cells.set column.val nodes column.isLt)[column.val] = nodes
  exact Vector.getElem_set_self column.isLt

theorem columnAt_setColumn_of_ne (grid : Grid α wires columns) {column other : Fin columns}
    (nodes : Column α wires) (h : other ≠ column) :
    (grid.setColumn column nodes).columnAt other = grid.columnAt other := by
  show (grid.cells.set column.val nodes column.isLt)[other.val] = grid.cells[other.val]
  exact Vector.getElem_set_ne column.isLt other.isLt (fun he => h (Fin.ext he.symm))

@[simp] theorem setColumn_columnAt (grid : Grid α wires columns) (column : Fin columns) :
    grid.setColumn column (grid.columnAt column) = grid := by
  apply ext_columnAt
  intro other
  by_cases h : other = column
  · rw [h, columnAt_setColumn_self]
  · exact columnAt_setColumn_of_ne grid _ h

@[simp] theorem setColumn_setColumn (grid : Grid α wires columns) (column : Fin columns)
    (first second : Column α wires) :
    (grid.setColumn column first).setColumn column second = grid.setColumn column second := by
  apply ext_columnAt
  intro other
  by_cases h : other = column
  · rw [h, columnAt_setColumn_self, columnAt_setColumn_self]
  · rw [columnAt_setColumn_of_ne _ _ h, columnAt_setColumn_of_ne _ _ h,
      columnAt_setColumn_of_ne _ _ h]

theorem Each.setColumn {P : Column α wires → Prop} {grid : Grid α wires columns}
    (hgrid : grid.Each P) {column : Fin columns} {nodes : Column α wires} (hnodes : P nodes) :
    (grid.setColumn column nodes).Each P := by
  intro other
  by_cases h : other = column
  · rw [h, columnAt_setColumn_self]
    exact hnodes
  · rw [columnAt_setColumn_of_ne grid nodes h]
    exact hgrid other

@[simp] theorem locate_fin (wire : Fin wires) (column : Fin columns) :
    locate wires columns wire column = .ok (wire, column) := by
  unfold locate
  rw [dif_pos ⟨wire.isLt, column.isLt⟩]

/-- Only a cell of the grid is found. -/
theorem eq_of_locate {wire column : Nat} {cell : Fin wires × Fin columns}
    (h : locate wires columns wire column = .ok cell) : wire = cell.1 ∧ column = cell.2 := by
  unfold locate at h
  split at h
  · cases h
    exact ⟨rfl, rfl⟩
  · cases h

/-- Reading and writing cells by number, for a wire and a column of the grid. -/
theorem get_fin (grid : Grid α wires columns) (wire : Fin wires) (column : Fin columns) :
    grid.get wire column = .ok ((grid.columnAt column).get wire) := by
  unfold get
  rw [locate_fin]
  rfl

theorem set_fin (grid : Grid α wires columns) (wire : Fin wires) (column : Fin columns)
    (node : Node α) :
    grid.set wire column node =
      .ok (grid.setColumn column ((grid.columnAt column).put wire node)) := by
  unfold set
  rw [locate_fin]
  rfl

theorem kindAt_fin (grid : Grid α wires columns) (wire : Fin wires) (column : Fin columns) :
    grid.kindAt wire column = .ok ((grid.columnAt column).kindAt wire) := by
  unfold kindAt
  rw [locate_fin]
  rfl

theorem owner?_fin (grid : Grid α wires columns) (wire : Fin wires) (column : Fin columns) :
    grid.owner? wire column = .ok ((grid.columnAt column).owner? wire) := by
  unfold owner?
  rw [locate_fin]
  rfl

theorem side?_fin (grid : Grid α wires columns) (wire : Fin wires) (column : Fin columns) :
    grid.side? wire column = .ok ((grid.columnAt column).side? wire) := by
  unfold side?
  rw [locate_fin]
  rfl

theorem exists_fin_of_get {grid : Grid α wires columns} {wire column : Nat} {node : Node α}
    (h : grid.get wire column = .ok node) :
    ∃ (w : Fin wires) (c : Fin columns), wire = w ∧ column = c := by
  unfold get locate at h
  split at h
  · next hlt => exact ⟨⟨wire, hlt.1⟩, ⟨column, hlt.2⟩, rfl, rfl⟩
  · cases h

variable [Angle α]

theorem columnAt_clear (grid : Grid α wires columns) (column : Fin columns) :
    grid.clear.columnAt column = Vector.replicate wires Node.empty := by
  show (Vector.replicate columns (Vector.replicate wires Node.empty))[column.val] = _
  exact Vector.getElem_replicate column.isLt

theorem empty?_eq_ok (hwires : 0 < wires ∧ wires ≤ maxWires)
    (hcolumns : 0 < columns ∧ columns ≤ maxColumns) :
    ∃ grid : Grid α wires columns, empty? wires columns = .ok grid := by
  unfold empty?
  rw [dif_pos ⟨hwires, hcolumns⟩]
  exact ⟨_, rfl⟩

theorem columnAt_of_empty? {grid : Grid α wires columns} (h : empty? wires columns = .ok grid)
    (column : Fin columns) : grid.columnAt column = Vector.replicate wires Node.empty := by
  unfold empty? at h
  split at h
  · cases h
    exact Vector.getElem_replicate column.isLt
  · cases h

end Grid

namespace Column

variable {α : Type} [Angle α] {n : Nat}

/-- The column after an edit: what the edit leaves, changed or not. -/
def after (column : Column α n) (wire : Fin n) (edit : Edit α) : Column α n :=
  match edit.onColumn column wire with
  | .changed nodes => nodes
  | .unchanged | .blocked _ _ | .noRoom => column

/-- The column after several edits from the same wire. -/
def afterAll (column : Column α n) (wire : Fin n) : List (Edit α) → Column α n
  | [] => column
  | edit :: edits => (column.after wire edit).afterAll wire edits

theorem after_eq_of_changed {column nodes : Column α n} {wire : Fin n} {edit : Edit α}
    (h : edit.onColumn column wire = .changed nodes) : column.after wire edit = nodes := by
  unfold after
  rw [h]

/-- What every change keeps is kept by an edit. -/
theorem after_of_changed {P : Column α n → Prop} {column : Column α n} {wire : Fin n}
    {edit : Edit α} (hcolumn : P column)
    (hchange : ∀ nodes, edit.onColumn column wire = .changed nodes → P nodes) :
    P (column.after wire edit) := by
  unfold after
  split
  · next nodes heq => exact hchange nodes heq
  · exact hcolumn
  · exact hcolumn
  · exact hcolumn

end Column

/-! ## Runs -/

namespace Editor

variable {α : Type} [Angle α] {wires columns : Nat}

/-- The editor after performing actions in order, accepted or rejected. -/
def run (editor : Editor α wires columns) : List (Action α) → Editor α wires columns
  | [] => editor
  | action :: actions => (editor.perform action).2.run actions

theorem run_append (editor : Editor α wires columns) (first second : List (Action α)) :
    editor.run (first ++ second) = (editor.run first).run second := by
  induction first generalizing editor with
  | nil => rfl
  | cons action first ih => exact ih (editor.perform action).2

omit [Angle α] in
theorem cursor_eq_of_locate {editor : Editor α wires columns} {wire : Fin wires}
    {column : Fin columns}
    (h : Grid.locate wires columns editor.cursor.wire editor.cursor.column = .ok (wire, column)) :
    editor.cursor = ⟨wire, column⟩ := by
  obtain ⟨hwire, hcolumn⟩ := Grid.eq_of_locate h
  rw [← hwire, ← hcolumn]

omit [Angle α] in
theorem selectedKind_fin {editor : Editor α wires columns} {wire : Fin wires}
    {column : Fin columns} (hcursor : editor.cursor = ⟨wire, column⟩) :
    editor.selectedKind = .ok ((editor.grid.columnAt column).kindAt wire) := by
  unfold selectedKind
  rw [hcursor, Grid.kindAt_fin]
  rfl

/-- An edit from a cell of the grid, with the grid out of the way. -/
theorem edit_fin {editor : Editor α wires columns} {wire : Fin wires} {column : Fin columns}
    (hcursor : editor.cursor = ⟨wire, column⟩) (edit : Edit α) :
    editor.edit edit =
      match edit.onColumn (editor.grid.columnAt column) wire with
      | .changed nodes =>
        (.ok .changed, { editor with grid := editor.grid.setColumn column nodes })
      | .unchanged => (.ok .unchanged, editor)
      | .blocked wire found => (.error (.invalidPlacement wire column found), editor)
      | .noRoom => (.error (.controlUnavailable wire column), editor) := by
  have hlocate : Grid.locate wires columns editor.cursor.wire editor.cursor.column =
      .ok (wire, column) := by
    rw [hcursor]
    exact Grid.locate_fin wire column
  cases hchange : edit.onColumn (editor.grid.columnAt column) wire <;>
    simp only [Editor.edit, hlocate, hchange]

/-- An edit rewrites the column under the cursor and nothing else. -/
theorem perform_edit {editor : Editor α wires columns} {wire : Fin wires} {column : Fin columns}
    (hcursor : editor.cursor = ⟨wire, column⟩) (edit : Edit α) :
    (editor.perform (.edit edit)).2 =
      { editor with
        grid := editor.grid.setColumn column ((editor.grid.columnAt column).after wire edit) } := by
  show (editor.edit edit).2 = _
  rw [edit_fin hcursor]
  unfold Column.after
  cases edit.onColumn (editor.grid.columnAt column) wire <;> simp

/-- An edit that changes the column under the cursor reports so and puts it in place. -/
theorem perform_edit_of_changed {grid : Grid α wires columns} {cursor : Cursor}
    {wire : Fin wires} {column : Fin columns} (hcursor : cursor = ⟨wire, column⟩)
    {edit : Edit α} {nodes : Column α wires}
    (hchange : edit.onColumn (grid.columnAt column) wire = .changed nodes) :
    (Editor.mk grid cursor).perform (.edit edit) =
      (.ok .changed, ⟨grid.setColumn column nodes, cursor⟩) := by
  show (Editor.mk grid cursor).edit edit = _
  rw [edit_fin hcursor]
  dsimp only
  rw [hchange]

/-- An edit that does not apply to the cell under the cursor says so, and nothing happens. -/
theorem perform_edit_of_unchanged {editor : Editor α wires columns} {wire : Fin wires}
    {column : Fin columns} (hcursor : editor.cursor = ⟨wire, column⟩) {edit : Edit α}
    (h : edit.onColumn (editor.grid.columnAt column) wire = .unchanged) :
    editor.perform (.edit edit) = (.ok .unchanged, editor) := by
  show editor.edit edit = _
  rw [edit_fin hcursor, h]

theorem perform_edit_of_error {editor : Editor α wires columns} {error : GridError}
    (h : Grid.locate wires columns editor.cursor.wire editor.cursor.column = .error error)
    (edit : Edit α) : (editor.perform (.edit edit)).2 = editor := by
  show (editor.edit edit).2 = editor
  unfold Editor.edit
  rw [h]

/-- An edit that reports a change was made from a cell of the grid, and is seen in its column. -/
theorem exists_of_perform_edit_changed {editor : Editor α wires columns} {work : Edit α}
    (h : (editor.perform (.edit work)).1 = .ok .changed) :
    ∃ (wire : Fin wires) (column : Fin columns) (nodes : Column α wires),
      editor.cursor = ⟨wire, column⟩ ∧
      work.onColumn (editor.grid.columnAt column) wire = .changed nodes ∧
      (editor.perform (.edit work)).2.grid = editor.grid.setColumn column nodes := by
  cases hlocate : Grid.locate wires columns editor.cursor.wire editor.cursor.column with
  | error error =>
    simp only [perform, Editor.edit, hlocate] at h
    cases h
  | ok cell =>
    obtain ⟨wire, column⟩ := cell
    have hcursor := cursor_eq_of_locate hlocate
    change (editor.edit work).1 = .ok .changed at h
    rw [edit_fin hcursor] at h
    cases hchange : work.onColumn (editor.grid.columnAt column) wire with
    | changed nodes =>
      refine ⟨wire, column, nodes, hcursor, hchange, ?_⟩
      rw [perform_edit_of_changed hcursor hchange]
    | unchanged | blocked | noRoom =>
      rw [hchange] at h
      cases h

theorem grid_perform_navigate (editor : Editor α wires columns) (direction : Direction) :
    (editor.perform (.navigate direction)).2.grid = editor.grid := by
  show (editor.navigate direction).2.grid = editor.grid
  unfold Editor.navigate
  split <;> rfl

/-- Edits in a row, none of which moves the cursor, rewrite its column and nothing else. -/
theorem run_edits {editor : Editor α wires columns} {wire : Fin wires} {column : Fin columns}
    (hcursor : editor.cursor = ⟨wire, column⟩) (edits : List (Edit α)) :
    editor.run (edits.map .edit) =
      { editor with
        grid := editor.grid.setColumn column
          ((editor.grid.columnAt column).afterAll wire edits) } := by
  induction edits generalizing editor with
  | nil => simp [run, Column.afterAll]
  | cons edit edits ih =>
    have hnext : (editor.perform (.edit edit)).2.cursor = ⟨wire, column⟩ := by
      rw [perform_edit hcursor]
      exact hcursor
    show (editor.perform (.edit edit)).2.run (edits.map .edit) = _
    rw [ih hnext, perform_edit hcursor]
    simp [Column.afterAll]

/-- What an action does to a column: nothing, or an edit under the cursor, or it clears it. -/
theorem columnAt_perform_cases (editor : Editor α wires columns) (action : Action α)
    (column : Fin columns) :
    (editor.perform action).2.grid.columnAt column = editor.grid.columnAt column ∨
    (∃ (work : Edit α) (wire : Fin wires), action = .edit work ∧
      editor.cursor = ⟨wire, column⟩ ∧ work.onColumn (editor.grid.columnAt column) wire =
        .changed ((editor.perform action).2.grid.columnAt column)) ∨
    (editor.perform action).2.grid.columnAt column = Vector.replicate wires Node.empty := by
  cases action with
  | navigate direction =>
    rw [grid_perform_navigate]
    exact Or.inl rfl
  | reset => exact Or.inr (Or.inr (Grid.columnAt_clear editor.grid column))
  | edit work =>
    cases hlocate : Grid.locate wires columns editor.cursor.wire editor.cursor.column with
    | error error =>
      rw [perform_edit_of_error hlocate]
      exact Or.inl rfl
    | ok cell =>
      obtain ⟨wire, place⟩ := cell
      have hcursor := cursor_eq_of_locate hlocate
      rw [perform_edit hcursor]
      by_cases hplace : column = place
      · subst hplace
        rw [Grid.columnAt_setColumn_self]
        unfold Column.after
        cases hchange : work.onColumn (editor.grid.columnAt column) wire with
        | changed nodes => exact Or.inr (Or.inl ⟨work, wire, rfl, hcursor, hchange⟩)
        | unchanged | blocked | noRoom => exact Or.inl rfl
      · exact Or.inl (Grid.columnAt_setColumn_of_ne _ _ hplace)

/-- One action keeps a property of columns that fresh columns have and edits keep. -/
theorem perform_each {P : Column α wires → Prop}
    (hfresh : P (Vector.replicate wires Node.empty))
    (hedit : ∀ column wire edit nodes, P column →
      Edit.onColumn edit column wire = .changed nodes → P nodes)
    {editor : Editor α wires columns} (hgrid : editor.grid.Each P) (action : Action α) :
    (editor.perform action).2.grid.Each P := by
  cases action with
  | navigate direction =>
    rw [grid_perform_navigate]
    exact hgrid
  | reset =>
    intro column
    show P (editor.grid.clear.columnAt column)
    rw [Grid.columnAt_clear]
    exact hfresh
  | edit edit =>
    cases hlocate : Grid.locate wires columns editor.cursor.wire editor.cursor.column with
    | error error =>
      -- a cursor beside the grid
      rw [perform_edit_of_error hlocate]
      exact hgrid
    | ok cell =>
      obtain ⟨wire, column⟩ := cell
      have hcursor := cursor_eq_of_locate hlocate
      rw [perform_edit hcursor]
      exact hgrid.setColumn (Column.after_of_changed (hgrid column)
        (fun nodes => hedit (editor.grid.columnAt column) wire edit nodes (hgrid column)))

/-- A run keeps a property of columns that fresh columns have and edits keep. -/
theorem run_each {P : Column α wires → Prop}
    (hfresh : P (Vector.replicate wires Node.empty))
    (hedit : ∀ column wire edit nodes, P column →
      Edit.onColumn edit column wire = .changed nodes → P nodes)
    {editor : Editor α wires columns} (hgrid : editor.grid.Each P) (actions : List (Action α)) :
    (editor.run actions).grid.Each P := by
  induction actions generalizing editor with
  | nil => exact hgrid
  | cons action actions ih => exact ih (perform_each hfresh hedit hgrid action)

/-- Every action of a run, and the editor that it is performed on, have a property. -/
def Throughout (P : Editor α wires columns → Action α → Prop) (editor : Editor α wires columns) :
    List (Action α) → Prop
  | [] => True
  | action :: actions => P editor action ∧ (editor.perform action).2.Throughout P actions

/-- A run keeps what its actions keep under a condition that holds throughout it. -/
theorem run_keeps {P : Editor α wires columns → Action α → Prop}
    {Q : Editor α wires columns → Prop}
    (hstep : ∀ editor action, Q editor → P editor action → Q (editor.perform action).2)
    {editor : Editor α wires columns} (hstart : Q editor) {actions : List (Action α)}
    (hactions : editor.Throughout P actions) : Q (editor.run actions) := by
  induction actions generalizing editor with
  | nil => exact hstart
  | cons action actions ih => exact ih (hstep editor action hstart hactions.1) hactions.2

end Editor

end CircuitGrid
