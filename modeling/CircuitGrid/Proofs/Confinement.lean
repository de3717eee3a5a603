import CircuitGrid.Proofs.Recompilation

/-!
# An action reaches one gate

An edit writes on several wires of its column, and the links of the column may overlap in
any way: a wire may be a control of many gates, and a gate may sit on a wire that others
name. Still no write lands on a gate but the one that the edit works on. That is the gate
under the cursor, of which a placement finds none, or, when a control marker is deleted,
the owner of the marker, which loses its control slots and keeps the rest of its node.
-/

namespace CircuitGrid

/-! ## The gate under the cursor -/

/-- What an edit makes of the node of a gate under the cursor. -/
inductive Edit.Alters {α : Type} [Angle α] : Edit α → Node α → Node α → Prop
  /-- No gate is placed on another. -/
  | refused (gate : Gate) (node : Node α) : Alters (.placeGate gate) node node
  | deleted (node : Node α) : Alters .delete node Node.empty
  | toggled (node : Node α) (control : Option Nat) :
      Alters .toggleControl node { node with controlA := control }
  | moved (direction : Direction) (node : Node α) (control : Option Nat) :
      Alters (.moveControl direction) node { node with controlA := control }
  | turned (angle : α) (node : Node α) (rotation : α) :
      Alters (.rotate angle) node { node with rotation }

namespace Column

variable {α : Type} {n : Nat}

/-- The edit deletes a control marker that belongs to the node on `owner`. -/
def Unlinks (column : Column α n) (wire : Fin n) (work : Edit α) (owner : Fin n) : Prop :=
  work = .delete ∧ column.kindAt wire = .control ∧ column.owner? wire = some owner

/-- Away from the one wire, the gates are the same. -/
theorem KeepsGates.gate?_eq {column nodes : Column α n} {wire place : Fin n}
    (h : column.KeepsGates wire nodes) (hne : place ≠ wire) :
    (nodes.get place).gate? = (column.get place).gate? := by
  by_cases hgate : (column.get place).gate?.isSome = true ∨ (nodes.get place).gate?.isSome = true
  · rw [h place hne hgate]
  · rw [not_or, Option.not_isSome_iff_eq_none, Option.not_isSome_iff_eq_none] at hgate
    rw [hgate.1, hgate.2]

variable [Angle α] {column nodes : Column α n} {wire place : Fin n} {work : Edit α}

/-- The gate that a control is placed for gets the control and nothing else. -/
theorem get_of_placed {candidate : Nat} (hgate : (column.get wire).gate?.isSome = true)
    (h : column.placeControl wire candidate = .placed nodes) :
    nodes.get wire = (column.get wire).withControl candidate := by
  obtain ⟨control, rfl, haccepts, rfl⟩ := placeControl_eq_placed h
  rw [get_link, if_neg (ne_of_acceptsControl hgate haccepts).symm, if_pos rfl]

/-- An edit that changes the column alters the gate under the cursor in its own way. -/
theorem alters_of_changed (hgate : (column.get wire).gate?.isSome = true)
    (h : work.onColumn column wire = .changed nodes) :
    work.Alters (column.get wire) (nodes.get wire) := by
  cases work with
  | placeGate gate =>
    rw [(placeGate_keepsGates h).2.1] at hgate
    cases hgate
  | delete =>
    rcases delete_eq_changed h with ⟨gate, -, rfl⟩ | ⟨owner, hkind, -, -⟩
    · rw [get_put_self]
      exact .deleted _
    · -- a control marker is no gate
      have hempty := (exists_control_of_kindAt hkind).1
      rw [(Node.gate?_eq_none_iff _).mpr (Or.inl hempty)] at hgate
      cases hgate
  | toggleControl =>
    obtain ⟨-, hcases⟩ := toggleControl_eq_changed h
    rcases hcases with ⟨control, -, rfl⟩ | ⟨candidate, -, -, -, hplaced⟩
    · rw [get_put_self]
      exact .toggled _ none
    · rw [get_of_placed hgate hplaced]
      exact .toggled _ (some candidate)
  | moveControl direction =>
    obtain ⟨-, -, candidate, placed, -, -, -, hplaced, rfl⟩ := moveControl_eq_changed h
    have hnode := get_of_placed hgate hplaced
    have hkept : ((wireBehind? wire candidate direction).elim placed placed.markTrace).get wire =
        placed.get wire := by
      cases wireBehind? wire candidate direction with
      | none => rfl
      | some left => exact get_markTrace_of_gate (by rw [hnode]; exact hgate) left
    rw [hkept, hnode]
    exact .moved direction _ (some candidate)
  | rotate angle =>
    obtain ⟨-, rotation, rfl⟩ := rotate_eq_changed h
    rw [get_put_self]
    exact .turned angle _ rotation

theorem alters_after (work : Edit α) (hgate : (column.get wire).gate?.isSome = true) :
    work.Alters (column.get wire) ((column.after wire work).get wire) := by
  by_cases hdelete : work = .delete
  · -- deletion does not leave a gate as it was
    subst hdelete
    obtain ⟨gate, hgate'⟩ := Option.isSome_iff_exists.mp hgate
    have hkind := (kindAt_eq_gate_iff column wire gate).mpr ((Node.gate?_eq_some_iff _ _).mp hgate')
    obtain ⟨nodes, hchange, -, -⟩ := exists_delete_of_gate hkind
    rw [after_eq_of_changed hchange]
    exact alters_of_changed hgate hchange
  · refine after_of_changed (P := fun nodes => work.Alters (column.get wire) (nodes.get wire)) ?_
      (fun nodes => alters_of_changed hgate)
    cases work with
    | placeGate gate => exact .refused gate _
    | delete => exact absurd rfl hdelete
    | toggleControl => exact .toggled _ (column.get wire).controlA
    | moveControl direction => exact .moved direction _ (column.get wire).controlA
    | rotate angle => exact .turned angle _ (column.get wire).rotation

/-! ## The other gates -/

/-- An edit that changes the column works on the gate under the cursor, or it takes the
controls of the owner of the marker under the cursor. -/
theorem keepsGates_of_changed (h : work.onColumn column wire = .changed nodes) :
    column.KeepsGates wire nodes ∨ ∃ owner, column.Unlinks wire work owner ∧
      column.KeepsGates owner nodes ∧ nodes.get owner = (column.get owner).withoutControls := by
  cases work with
  | placeGate gate => exact Or.inl (placeGate_keepsGates h).1
  | delete =>
    rcases delete_eq_changed h with ⟨gate, hkind, -⟩ | ⟨owner, hkind, howner, hremoved⟩
    · obtain ⟨found, hfound, hkeeps, -⟩ := exists_delete_of_gate hkind
      obtain rfl : found = nodes := ColumnEdit.changed.inj (hfound.symm.trans h)
      exact Or.inl hkeeps
    · exact Or.inr ⟨owner, ⟨rfl, hkind, howner⟩, (removeControls?_keepsGates hremoved).1,
        get_removeControls?_self hremoved⟩
  | toggleControl => exact Or.inl (keepsGates_of_adjustsGate rfl h).1
  | moveControl direction => exact Or.inl (keepsGates_of_adjustsGate rfl h).1
  | rotate angle => exact Or.inl (keepsGates_of_adjustsGate rfl h).1

theorem get_after_of_ne (hne : place ≠ wire) (hgate : (column.get place).gate?.isSome = true)
    (hlinked : ¬ column.Unlinks wire work place) :
    (column.after wire work).get place = column.get place := by
  refine after_of_changed (P := fun nodes => nodes.get place = column.get place) rfl ?_
  intro nodes h
  rcases keepsGates_of_changed h with hkeeps | ⟨owner, hunlinks, hkeeps, -⟩
  · exact hkeeps place hne (Or.inl hgate)
  · refine hkeeps place ?_ (Or.inl hgate)
    rintro rfl
    exact hlinked hunlinks

theorem get_after_of_unlinks {owner : Fin n} (h : column.Unlinks wire work owner) :
    (column.after wire work).get owner = (column.get owner).withoutControls := by
  obtain ⟨rfl, hkind, howner⟩ := h
  obtain ⟨found, nodes, hfound, -, hremoved, hchange⟩ := exists_removed_of_control hkind
  obtain rfl : owner = found := Option.some.inj (howner.symm.trans hfound)
  rw [after_eq_of_changed hchange, get_removeControls?_self hremoved]

/-- Only a placement or a deletion changes which gate a cell owns, and only under the cursor. -/
theorem eq_of_gate?_after_ne
    (h : ((column.after wire work).get place).gate? ≠ (column.get place).gate?) :
    place = wire ∧ (work = .delete ∨ ∃ gate, work = .placeGate gate) := by
  revert h
  refine after_of_changed (P := fun nodes => (nodes.get place).gate? ≠ (column.get place).gate? →
    place = wire ∧ (work = .delete ∨ ∃ gate, work = .placeGate gate)) (absurd rfl) ?_
  intro nodes hchange hne
  have hplace : place = wire := by
    by_contra hplace
    rcases keepsGates_of_changed hchange with hkeeps | ⟨owner, -, hkeeps, hnode⟩
    · exact hne (hkeeps.gate?_eq hplace)
    · by_cases howner : place = owner
      · subst howner
        rw [hnode] at hne
        exact hne rfl
      · exact hne (hkeeps.gate?_eq howner)
  subst hplace
  refine ⟨rfl, ?_⟩
  cases work with
  | placeGate gate => exact Or.inr ⟨gate, rfl⟩
  | delete => exact Or.inl rfl
  | toggleControl => exact absurd (keepsGates_of_adjustsGate rfl hchange).2.2 hne
  | moveControl direction => exact absurd (keepsGates_of_adjustsGate rfl hchange).2.2 hne
  | rotate angle => exact absurd (keepsGates_of_adjustsGate rfl hchange).2.2 hne

end Column

/-! ## Actions -/

/-- Changing one gate of one column changes the number of gates by one at most. -/
theorem Grid.gateCount_setColumn {α : Type} {wires columns : Nat} (grid : Grid α wires columns)
    {column : Fin columns} {wire : Fin wires} {nodes : Column α wires}
    (hkeeps : (grid.columnAt column).KeepsGates wire nodes) :
    (grid.setColumn column nodes).gateCount ≤ grid.gateCount + 1 ∧
      grid.gateCount ≤ (grid.setColumn column nodes).gateCount + 1 := by
  obtain ⟨before, after, hcells, hcells', -⟩ := grid.exists_gateCells_eq hkeeps
  have hcell : ∀ grid : Grid α wires columns,
      (grid.gateCell? (column, wire)).toList.length ≤ 1 := by
    intro grid
    cases grid.gateCell? (column, wire) <;> simp
  rw [← length_gateCells, ← length_gateCells, hcells, hcells']
  simp only [List.length_append]
  have hold := hcell grid
  have hnew := hcell (grid.setColumn column nodes)
  omega

namespace Editor

variable {α : Type} {wires columns : Nat}

/-- The action deletes the control marker under the cursor, which belongs to the node on `owner`. -/
def Unlinks (editor : Editor α wires columns) (action : Action α) (owner : Fin wires)
    (column : Fin columns) : Prop :=
  action = .edit .delete ∧ ∃ wire : Fin wires, editor.cursor = ⟨wire, column⟩ ∧
    editor.grid.kindAt wire column = .ok .control ∧
    editor.grid.owner? wire column = .ok (some owner)

variable [Angle α]

/-- What an action makes of the gates of a grid. -/
structure Confined (editor : Editor α wires columns) (action : Action α) : Prop where
  /-- A gate that is not under the cursor keeps its node, unless its controls are deleted. -/
  elsewhere : ∀ wire column, ((editor.grid.columnAt column).get wire).gate?.isSome = true →
    editor.cursor ≠ ⟨wire, column⟩ → ¬ editor.Unlinks action wire column →
      ((editor.perform action).2.grid.columnAt column).get wire =
        (editor.grid.columnAt column).get wire
  /-- The owner of a deleted control marker loses its control slots and nothing else. -/
  unlinked : ∀ owner column, editor.Unlinks action owner column →
    editor.cursor ≠ ⟨owner, column⟩ ∧
      ((editor.perform action).2.grid.columnAt column).get owner =
        ((editor.grid.columnAt column).get owner).withoutControls
  /-- The gate under the cursor is altered in the way of the edit. -/
  under_cursor : ∀ work (wire : Fin wires) (column : Fin columns), action = .edit work →
    editor.cursor = ⟨wire, column⟩ → ((editor.grid.columnAt column).get wire).gate?.isSome = true →
      work.Alters ((editor.grid.columnAt column).get wire)
        (((editor.perform action).2.grid.columnAt column).get wire)
  /-- Moving the cursor changes no cell. -/
  navigated : ∀ direction, action = .navigate direction →
    (editor.perform action).2.grid = editor.grid
  /-- Only a placement that is accepted and a deletion change which gate a cell owns, and only
  under the cursor. -/
  owned : ∀ wire column, (((editor.perform action).2.grid.columnAt column).get wire).gate? ≠
      ((editor.grid.columnAt column).get wire).gate? →
    editor.cursor = ⟨wire, column⟩ ∧ (action = .edit .delete ∨
      (∃ gate, action = .edit (.placeGate gate)) ∧ (editor.perform action).1 = .ok .changed)
  /-- The number of gates changes by one at most. -/
  count : (editor.perform action).2.grid.gateCount ≤ editor.grid.gateCount + 1 ∧
    editor.grid.gateCount ≤ (editor.perform action).2.grid.gateCount + 1

variable {editor : Editor α wires columns} {action : Action α}

omit [Angle α] in
/-- From a cell of the grid, the marker that is deleted is one of the cursor's column. -/
theorem unlinks_iff {wire : Fin wires} {column column' : Fin columns}
    (hcursor : editor.cursor = ⟨wire, column⟩) (work : Edit α) (owner : Fin wires) :
    editor.Unlinks (.edit work) owner column' ↔
      column' = column ∧ (editor.grid.columnAt column).Unlinks wire work owner := by
  constructor
  · rintro ⟨hwork, wire', hcursor', hkind, howner⟩
    cases hwork
    rw [hcursor, Cursor.mk.injEq, Fin.val_inj, Fin.val_inj] at hcursor'
    obtain ⟨rfl, rfl⟩ := hcursor'
    rw [Grid.kindAt_fin, Except.ok.injEq] at hkind
    rw [Grid.owner?_fin, Except.ok.injEq] at howner
    exact ⟨rfl, rfl, hkind, howner⟩
  · rintro ⟨rfl, rfl, hkind, howner⟩
    refine ⟨rfl, wire, hcursor, ?_, ?_⟩
    · rw [Grid.kindAt_fin, hkind]
    · rw [Grid.owner?_fin, howner]

/-- An action that keeps the grid, and is no edit of one of its cells, confines itself. -/
theorem Confined.of_same (hgrid : (editor.perform action).2.grid = editor.grid)
    (hcursor : ∀ work (wire : Fin wires) (column : Fin columns), action = .edit work →
      editor.cursor ≠ ⟨wire, column⟩) : editor.Confined action where
  elsewhere _ _ _ _ _ := by rw [hgrid]
  unlinked _ column := fun ⟨haction, wire, hhere, _⟩ =>
    absurd hhere (hcursor _ wire column haction)
  under_cursor work wire column haction hhere := absurd hhere (hcursor work wire column haction)
  navigated _ _ := hgrid
  owned _ _ hne := absurd (by rw [hgrid]) hne
  count := by
    rw [hgrid]
    omega

/-- An edit of a cell of the grid. -/
theorem confined_edit {wire : Fin wires} {column : Fin columns}
    (hcursor : editor.cursor = ⟨wire, column⟩) (work : Edit α) :
    editor.Confined (.edit work) := by
  have hgrid : (editor.perform (.edit work)).2.grid =
      editor.grid.setColumn column ((editor.grid.columnAt column).after wire work) := by
    rw [perform_edit hcursor]
  have hself : (editor.perform (.edit work)).2.grid.columnAt column =
      (editor.grid.columnAt column).after wire work := by
    rw [hgrid, Grid.columnAt_setColumn_self]
  have hother : ∀ other, other ≠ column → (editor.perform (.edit work)).2.grid.columnAt other =
      editor.grid.columnAt other := by
    intro other hne
    rw [hgrid, Grid.columnAt_setColumn_of_ne _ _ hne]
  refine ⟨?_, ?_, ?_, nofun, ?_, ?_⟩
  · -- elsewhere
    intro place column' hgate haway hlinked
    by_cases hcolumn : column' = column
    · subst hcolumn
      rw [unlinks_iff hcursor, not_and] at hlinked
      have hne : place ≠ wire := by
        rintro rfl
        exact haway hcursor
      rw [hself, Column.get_after_of_ne hne hgate (hlinked rfl)]
    · rw [hother column' hcolumn]
  · -- unlinked
    intro owner column' hunlinks
    obtain ⟨rfl, hunlinks⟩ := (unlinks_iff hcursor work owner).mp hunlinks
    rw [hself, Column.get_after_of_unlinks hunlinks, hcursor, Ne, Cursor.mk.injEq, Fin.val_inj]
    exact ⟨fun h => Column.ne_of_owner? hunlinks.2.2 h.1.symm, rfl⟩
  · -- under_cursor
    intro work' place column' haction hcursor' hgate
    cases haction
    rw [hcursor, Cursor.mk.injEq, Fin.val_inj, Fin.val_inj] at hcursor'
    obtain ⟨rfl, rfl⟩ := hcursor'
    rw [hself]
    exact Column.alters_after work hgate
  · -- owned
    intro place column' hne
    by_cases hcolumn : column' = column
    · subst hcolumn
      rw [hself] at hne
      obtain ⟨rfl, hwork⟩ := Column.eq_of_gate?_after_ne hne
      refine ⟨hcursor, hwork.imp (congrArg _) fun ⟨gate, hplace⟩ => ⟨⟨gate, congrArg _ hplace⟩, ?_⟩⟩
      -- an edit that is refused leaves the column as it was
      by_contra hidle
      rw [← hself, eq_of_perform_ne_changed hidle] at hne
      exact hne rfl
    · rw [hother column' hcolumn] at hne
      exact absurd rfl hne
  · -- count
    rw [hgrid]
    have hkeeps : ∃ place, (editor.grid.columnAt column).KeepsGates place
        ((editor.grid.columnAt column).after wire work) :=
      Column.after_of_changed (P := fun nodes => ∃ place,
        (editor.grid.columnAt column).KeepsGates place nodes) ⟨wire, .refl _ wire⟩
        (fun _ => Column.exists_keepsGates)
    obtain ⟨place, hkeeps⟩ := hkeeps
    exact editor.grid.gateCount_setColumn hkeeps

/-- Whatever the links of the grid and wherever the cursor is, an action other than starting
over reaches one gate at most. It alters the gate under the cursor in the way of the edit, or
takes the control slots of the gate whose marker it deletes; every other gate keeps its node.
Which gate a cell owns is changed under the cursor only, by a placement that is accepted or by
a deletion, so that the number of gates changes by one at most. -/
theorem perform_confined (editor : Editor α wires columns) (action : Action α)
    (haction : action ≠ .reset) : editor.Confined action := by
  cases action with
  | navigate direction => exact .of_same (grid_perform_navigate editor direction) nofun
  | reset => exact absurd rfl haction
  | edit work =>
    cases hlocate : Grid.locate wires columns editor.cursor.wire editor.cursor.column with
    | error error =>
      refine .of_same (by rw [perform_edit_of_error hlocate]) fun _ wire column _ hcursor => ?_
      rw [hcursor, Grid.locate_fin] at hlocate
      cases hlocate
    | ok cell => exact confined_edit (cursor_eq_of_locate hlocate) work

/-- Two gates name the first wire, and a Hadamard gate stands between the X gate and its further
control. The marker on the first wire is deleted. -/
theorem perform_confined_of_shared_marker :
    ∃ editor : Editor Float 4 1, (.edit .delete : Action Float) ≠ .reset ∧
      editor.selectedKind = .ok .control ∧
      let after := (editor.perform (.edit .delete)).2.grid
      (after.columnAt 0).get 1 = Node.ofGate .pauliX ∧
        (after.columnAt 0).get 2 = (Node.ofGate .hadamard).withControl 0 := by
  let editor : Editor Float 4 1 := ⟨.ofColumn #v[.empty, (Node.ofGate .pauliX).withControls 0 3,
    (Node.ofGate .hadamard).withControl 0, .trace] (by decide), ⟨0, 0⟩⟩
  have haction : (.edit .delete : Action Float) ≠ .reset := nofun
  have howner : editor.grid.owner? 0 0 = .ok (some 1) := by rfl
  have hconfined := perform_confined editor (.edit .delete) haction
  refine ⟨editor, haction, by rfl, (hconfined.unlinked 1 0 ⟨rfl, 0, rfl, by rfl, howner⟩).2, ?_⟩
  refine hconfined.elsewhere 2 0 rfl (by decide) ?_
  -- the first owner is the X gate
  rintro ⟨-, wire, hcursor, -, hfound⟩
  obtain rfl : wire = 0 := Fin.ext (congrArg Cursor.wire hcursor).symm
  cases howner.symm.trans hfound

end Editor

end CircuitGrid
