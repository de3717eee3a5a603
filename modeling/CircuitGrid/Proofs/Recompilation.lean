import CircuitGrid.Proofs.GateEdits
import CircuitGrid.Proofs.LinkEdits
import CircuitGrid.Proofs.Linearization
import CircuitGrid.Proofs.Outcomes

/-!
# One edit changes one operation

An edit changes one gate at most, and the operation of a gate is decided by its own
node. So the operations of a link-exclusive grid before and after an edit differ in one
place at most: one is put in, taken out, or put in place of another. The place is found
by counting the gates before the cell in the order of compilation.
-/

namespace CircuitGrid

/-! ## Lists alike but for one place -/

/-- After `position` entries that they share, the first list has `old` and the second has
`new`, if there are such, and then they go on alike. -/
def Replaced {τ : Type} (position : Nat) (old new : Option τ) (xs ys : List τ) : Prop :=
  ∃ before after, before.length = position ∧
    xs = before ++ old.toList ++ after ∧ ys = before ++ new.toList ++ after

/-! ## The cells in order -/

/-- A cell comes before another in the order of compilation. -/
def Before {wires columns : Nat} (cell other : Fin columns × Fin wires) : Prop :=
  cell.1 < other.1 ∨ cell.1 = other.1 ∧ cell.2 < other.2

instance {wires columns : Nat} (cell other : Fin columns × Fin wires) :
    Decidable (Before cell other) :=
  inferInstanceAs (Decidable (_ ∨ _ ∧ _))

/-- Every cell, columns ascending and wires ascending within a column. -/
def cellsInOrder (wires columns : Nat) : List (Fin columns × Fin wires) :=
  (List.finRange columns).flatMap fun column => (List.finRange wires).map fun wire => (column, wire)

theorem pairwise_cellsInOrder (wires columns : Nat) :
    (cellsInOrder wires columns).Pairwise Before := by
  refine List.pairwise_flatMap.mpr ⟨?_, (List.pairwise_lt_finRange columns).imp ?_⟩
  · intro column _
    refine List.pairwise_map.mpr ((List.pairwise_lt_finRange wires).imp ?_)
    intro wire other hlt
    exact Or.inr ⟨rfl, hlt⟩
  · intro column other hlt cell hcell cell' hcell'
    obtain ⟨_, _, rfl⟩ := List.mem_map.mp hcell
    obtain ⟨_, _, rfl⟩ := List.mem_map.mp hcell'
    exact Or.inl hlt

/-- Around every cell there are those before it and those after it. -/
theorem exists_cellsInOrder_eq {wires columns : Nat} (cell : Fin columns × Fin wires) :
    ∃ before after, cellsInOrder wires columns = before ++ cell :: after ∧
      (∀ earlier ∈ before, Before earlier cell) ∧ ∀ later ∈ after, Before cell later := by
  have hmem : cell ∈ cellsInOrder wires columns :=
    List.mem_flatMap.mpr ⟨cell.1, List.mem_finRange _,
      List.mem_map.mpr ⟨cell.2, List.mem_finRange _, rfl⟩⟩
  obtain ⟨before, after, hsplit⟩ := List.append_of_mem hmem
  have hpairs := pairwise_cellsInOrder wires columns
  rw [hsplit, List.pairwise_append, List.pairwise_cons] at hpairs
  exact ⟨before, after, hsplit, fun earlier hearlier => hpairs.2.2 earlier hearlier cell
    List.mem_cons_self, hpairs.2.1.1⟩

theorem Before.ne {wires columns : Nat} {cell other : Fin columns × Fin wires}
    (h : Before cell other) : cell ≠ other := by
  rintro rfl
  rcases h with h | h <;> omega

theorem Before.asymm {wires columns : Nat} {cell other : Fin columns × Fin wires}
    (h : Before cell other) : ¬ Before other cell := by
  unfold Before at h ⊢
  omega

namespace Grid

variable {α : Type} {wires columns : Nat}

/-- The gate in a cell, with its position and its node. -/
def gateCell? (grid : Grid α wires columns) (cell : Fin columns × Fin wires) :
    Option (GateCell α wires columns) :=
  let node := (grid.columnAt cell.1).get cell.2
  node.gate?.map fun gate => ⟨cell.2, cell.1, gate, node⟩

/-- How many cells before the given one own a gate. -/
def gatesBefore (grid : Grid α wires columns) (wire : Fin wires) (column : Fin columns) : Nat :=
  (cellsInOrder wires columns).countP fun cell =>
    decide (Before cell (column, wire)) && ((grid.columnAt cell.1).get cell.2).gate?.isSome

theorem gateCells_eq (grid : Grid α wires columns) :
    grid.gateCells = (cellsInOrder wires columns).filterMap grid.gateCell? := by
  unfold gateCells cellsInOrder
  rw [List.filterMap_flatMap]
  congr 1
  funext column
  rw [List.filterMap_map]
  rfl

theorem gatesBefore_eq (grid : Grid α wires columns) {wire : Fin wires} {column : Fin columns}
    {before after : List (Fin columns × Fin wires)}
    (hsplit : cellsInOrder wires columns = before ++ (column, wire) :: after)
    (hbefore : ∀ earlier ∈ before, Before earlier (column, wire))
    (hafter : ∀ later ∈ after, Before (column, wire) later) :
    grid.gatesBefore wire column = (before.filterMap grid.gateCell?).length := by
  have hself : ¬ Before (column, wire) (column, wire) := fun h => h.ne rfl
  have hnone : after.countP (fun cell => decide (Before cell (column, wire)) &&
      ((grid.columnAt cell.1).get cell.2).gate?.isSome) = 0 := by
    rw [List.countP_eq_zero]
    intro later hlater
    simp [(hafter later hlater).asymm]
  unfold gatesBefore
  rw [hsplit, List.countP_append, List.countP_cons, hnone, List.length_filterMap_eq_countP]
  simp only [hself, decide_false, Bool.false_and, Bool.false_eq_true, if_false, Nat.add_zero]
  apply List.countP_congr
  intro earlier hearlier
  simp [hbefore earlier hearlier, gateCell?]

/-- Changing one gate of one column changes the gate cells in one place. -/
theorem exists_gateCells_eq (grid : Grid α wires columns) {column : Fin columns} {wire : Fin wires}
    {nodes : Column α wires} (hkeeps : (grid.columnAt column).KeepsGates wire nodes) :
    ∃ before after,
      grid.gateCells = before ++ (grid.gateCell? (column, wire)).toList ++ after ∧
      (grid.setColumn column nodes).gateCells =
        before ++ ((grid.setColumn column nodes).gateCell? (column, wire)).toList ++ after ∧
      before.length = grid.gatesBefore wire column := by
  -- away from the cell both grids have the same gates
  have hsame : ∀ cell, cell ≠ (column, wire) →
      (grid.setColumn column nodes).gateCell? cell = grid.gateCell? cell := by
    rintro ⟨column', wire'⟩ hne
    unfold gateCell?
    dsimp only
    by_cases hcolumn : column' = column
    · subst hcolumn
      have hwire : wire' ≠ wire := fun h => hne (by rw [h])
      rw [columnAt_setColumn_self]
      by_cases hgate : ((grid.columnAt column').get wire').gate?.isSome = true ∨
          (nodes.get wire').gate?.isSome = true
      · rw [hkeeps wire' hwire hgate]
      · rw [not_or, Option.not_isSome_iff_eq_none, Option.not_isSome_iff_eq_none] at hgate
        rw [hgate.1, hgate.2]
        rfl
    · rw [columnAt_setColumn_of_ne grid nodes hcolumn]
  obtain ⟨before, after, hsplit, hbefore, hafter⟩ := exists_cellsInOrder_eq (column, wire)
  have hcells : ∀ grid : Grid α wires columns, grid.gateCells =
      before.filterMap grid.gateCell? ++ (grid.gateCell? (column, wire)).toList ++
        after.filterMap grid.gateCell? := by
    intro grid
    rw [gateCells_eq, hsplit, List.filterMap_append, List.filterMap_cons]
    cases grid.gateCell? (column, wire) <;> simp
  refine ⟨before.filterMap grid.gateCell?, after.filterMap grid.gateCell?, hcells grid, ?_,
    (gatesBefore_eq grid hsplit hbefore hafter).symm⟩
  rw [hcells, List.filterMap_congr fun cell hcell => hsame cell (hbefore cell hcell).ne,
    List.filterMap_congr fun cell hcell => hsame cell (hafter cell hcell).ne.symm]

/-! ## The operation of a cell -/

section Operations

variable [Angle α] {grid next : Grid α wires columns} {wire : Fin wires} {column : Fin columns}

/-- What the gate in a cell compiles to, if the cell owns one. -/
def operationAt? (grid : Grid α wires columns) (wire : Fin wires) (column : Fin columns) :
    Except GridError (Option (Operation α)) :=
  match grid.gateCell? (column, wire) with
  | some cell => (lower grid.wires_le cell.gate cell.node cell.wire cell.column).map some
  | none => .ok none

/-- The operations of two grids are those of one cell and others that they share. The
operation of the cell stands after those of the gates before the cell. -/
structure ReplacedAt (grid next : Grid α wires columns) (wire : Fin wires) (column : Fin columns)
    (old new : Option (Operation α)) (ops ops' : List (Operation α)) : Prop where
  old_operation : grid.operationAt? wire column = .ok old
  new_operation : next.operationAt? wire column = .ok new
  replaced : Replaced (grid.gatesBefore wire column) old new ops ops'

theorem operationAt?_eq_none (h : ((grid.columnAt column).get wire).gate? = none) :
    grid.operationAt? wire column = .ok none := by
  unfold operationAt? gateCell?
  dsimp only
  rw [h]
  rfl

/-- In a cell that owns a gate there is an operation. -/
theorem exists_of_operationAt? {op : Option (Operation α)}
    (hgate : ((grid.columnAt column).get wire).gate?.isSome = true)
    (h : grid.operationAt? wire column = .ok op) : ∃ found, op = some found := by
  obtain ⟨gate, hgate⟩ := Option.isSome_iff_exists.mp hgate
  unfold operationAt? gateCell? at h
  dsimp only at h
  rw [hgate] at h
  dsimp only [Option.map_some] at h
  cases hop : lower grid.wires_le gate ((grid.columnAt column).get wire) wire column with
  | error error =>
    rw [hop] at h
    cases h
  | ok found =>
    rw [hop] at h
    cases h
    exact ⟨found, rfl⟩

theorem operationAt?_of_mapM {ops : List (Operation α)}
    (h : (grid.gateCell? (column, wire)).toList.mapM
      (fun cell => lower grid.wires_le cell.gate cell.node cell.wire cell.column) = .ok ops) :
    ∃ op, grid.operationAt? wire column = .ok op ∧ ops = op.toList := by
  unfold operationAt?
  cases hcell : grid.gateCell? (column, wire) with
  | none =>
    rw [hcell] at h
    cases h
    exact ⟨none, rfl, rfl⟩
  | some cell =>
    rw [hcell, Option.toList_some, mapM_eq_ok_iff] at h
    obtain ⟨op, rest, hop, hrest, rfl⟩ := List.forall₂_cons_left_iff.mp h
    cases hrest
    refine ⟨some op, ?_, rfl⟩
    dsimp only
    rw [hop]
    rfl

/-- Changing one gate of one column replaces its operation and nothing else. -/
theorem exists_replacedAt {nodes : Column α wires} {ops ops' : List (Operation α)}
    (hkeeps : (grid.columnAt column).KeepsGates wire nodes)
    (h : grid.compile = .ok ops) (h' : (grid.setColumn column nodes).compile = .ok ops') :
    ∃ old new, grid.ReplacedAt (grid.setColumn column nodes) wire column old new ops ops' := by
  obtain ⟨before, after, hcells, hcells', hlength⟩ := grid.exists_gateCells_eq hkeeps
  unfold compile at h h'
  rw [hcells, mapM_append_eq_ok_iff] at h
  rw [hcells', mapM_append_eq_ok_iff] at h'
  obtain ⟨front, opsAfter, hfront, hopsAfter, rfl⟩ := h
  obtain ⟨front', opsAfter', hfront', hopsAfter', rfl⟩ := h'
  rw [mapM_append_eq_ok_iff] at hfront hfront'
  obtain ⟨opsBefore, here, hopsBefore, hhere, rfl⟩ := hfront
  obtain ⟨opsBefore', here', hopsBefore', hhere', rfl⟩ := hfront'
  obtain ⟨old, hold, rfl⟩ := operationAt?_of_mapM hhere
  obtain ⟨new, hnew, rfl⟩ := operationAt?_of_mapM hhere'
  -- the cells before and after are the same in both grids, and so are their operations
  obtain rfl : opsBefore = opsBefore' := Except.ok.inj (hopsBefore.symm.trans hopsBefore')
  obtain rfl : opsAfter = opsAfter' := Except.ok.inj (hopsAfter.symm.trans hopsAfter')
  refine ⟨old, new, hold, hnew, opsBefore, opsAfter, ?_, rfl, rfl⟩
  rw [← hlength, (mapM_eq_ok_iff.mp hopsBefore).length_eq]

end Operations

end Grid

/-! ## Actions -/

namespace Editor

variable {α : Type} [Angle α] {wires columns : Nat}

/-- How the operations `ops'` after an action differ from the operations `ops` before it. -/
structure Recompiled (editor : Editor α wires columns) (action : Action α)
    (ops ops' : List (Operation α)) : Prop where
  /-- At most one operation is put in, taken out or put in place of another. -/
  once : action ≠ .reset → ∃ position old new, Replaced position old new ops ops'
  /-- Moving the cursor changes no operation. -/
  navigated : ∀ direction, action = .navigate direction → ops' = ops
  /-- Nor does an action that is rejected, or that reports no change. -/
  idle : (editor.perform action).1 ≠ .ok .changed → ops' = ops
  /-- A gate that is placed brings its operation. -/
  placed : ∀ gate, action = .edit (.placeGate gate) → (editor.perform action).1 = .ok .changed →
    ∃ (wire : Fin wires) (column : Fin columns) (op : Operation α),
      editor.cursor = ⟨wire, column⟩ ∧
      editor.grid.ReplacedAt (editor.perform action).2.grid wire column none (some op) ops ops'
  /-- A gate that is deleted takes its operation away. -/
  deleted : ∀ gate, action = .edit .delete → editor.selectedKind = .ok (.gate gate) →
    ∃ (wire : Fin wires) (column : Fin columns) (op : Operation α),
      editor.cursor = ⟨wire, column⟩ ∧
      editor.grid.ReplacedAt (editor.perform action).2.grid wire column (some op) none ops ops'
  /-- Work on the control or the angle of a gate replaces the operation of this gate. -/
  adjusted : ∀ work, work.adjustsGate = true → action = .edit work →
    (editor.perform action).1 = .ok .changed →
    ∃ (wire : Fin wires) (column : Fin columns) (op op' : Operation α),
      editor.cursor = ⟨wire, column⟩ ∧
      editor.grid.ReplacedAt (editor.perform action).2.grid wire column (some op) (some op')
        ops ops'
  /-- Deleting a control replaces the operation of the gate that owns it. -/
  unlinked : action = .edit .delete → editor.selectedKind = .ok .control →
    ∃ (wire owner : Fin wires) (column : Fin columns) (op op' : Operation α),
      editor.cursor = ⟨wire, column⟩ ∧ (editor.grid.columnAt column).owner? wire = some owner ∧
      editor.grid.ReplacedAt (editor.perform action).2.grid owner column (some op) (some op')
        ops ops'

section Fields

variable {editor : Editor α wires columns} {ops ops' : List (Operation α)}

omit [Angle α] in
theorem exists_of_selectedKind {kind : CellKind} (h : editor.selectedKind = .ok kind) :
    ∃ (wire : Fin wires) (column : Fin columns), editor.cursor = ⟨wire, column⟩ ∧
      (editor.grid.columnAt column).kindAt wire = kind := by
  unfold selectedKind Grid.kindAt at h
  cases hlocate : Grid.locate wires columns editor.cursor.wire editor.cursor.column with
  | error error =>
    rw [hlocate] at h
    cases h
  | ok cell =>
    rw [hlocate] at h
    cases h
    exact ⟨cell.1, cell.2, cursor_eq_of_locate hlocate, rfl⟩

theorem recompiled_edit {work : Edit α}
    (hchanged : (editor.perform (.edit work)).1 = .ok .changed)
    (h : editor.grid.compile = .ok ops)
    (h' : (editor.perform (.edit work)).2.grid.compile = .ok ops') :
    ∃ position old new, Replaced position old new ops ops' := by
  obtain ⟨wire, column, nodes, hcursor, hchange, hgrid⟩ := exists_of_perform_edit_changed hchanged
  obtain ⟨place, hkeeps⟩ := Column.exists_keepsGates hchange
  rw [hgrid] at h'
  obtain ⟨old, new, hreplaced⟩ := Grid.exists_replacedAt hkeeps h h'
  exact ⟨_, old, new, hreplaced.replaced⟩

theorem recompiled_placeGate {gate : Gate}
    (hchanged : (editor.perform (.edit (.placeGate gate))).1 = .ok .changed)
    (h : editor.grid.compile = .ok ops)
    (h' : (editor.perform (.edit (.placeGate gate))).2.grid.compile = .ok ops') :
    ∃ (wire : Fin wires) (column : Fin columns) (op : Operation α),
      editor.cursor = ⟨wire, column⟩ ∧
      editor.grid.ReplacedAt (editor.perform (.edit (.placeGate gate))).2.grid wire column
        none (some op) ops ops' := by
  obtain ⟨wire, column, nodes, hcursor, hchange, hgrid⟩ := exists_of_perform_edit_changed hchanged
  obtain ⟨hkeeps, hnone, hsome⟩ := Column.placeGate_keepsGates hchange
  rw [hgrid] at h' ⊢
  obtain ⟨old, new, hreplaced⟩ := Grid.exists_replacedAt hkeeps h h'
  obtain rfl : old = none :=
    Except.ok.inj (hreplaced.old_operation.symm.trans (Grid.operationAt?_eq_none hnone))
  obtain ⟨op, rfl⟩ := Grid.exists_of_operationAt?
    (by rw [Grid.columnAt_setColumn_self, hsome]; rfl) hreplaced.new_operation
  exact ⟨wire, column, op, hcursor, hreplaced⟩

theorem recompiled_delete_gate {gate : Gate} (hkind : editor.selectedKind = .ok (.gate gate))
    (h : editor.grid.compile = .ok ops)
    (h' : (editor.perform (.edit .delete)).2.grid.compile = .ok ops') :
    ∃ (wire : Fin wires) (column : Fin columns) (op : Operation α),
      editor.cursor = ⟨wire, column⟩ ∧
      editor.grid.ReplacedAt (editor.perform (.edit .delete)).2.grid wire column
        (some op) none ops ops' := by
  obtain ⟨wire, column, hcursor, hkind⟩ := exists_of_selectedKind hkind
  obtain ⟨nodes, hchange, hkeeps, hnone⟩ := Column.exists_delete_of_gate hkind
  have hgrid : (editor.perform (.edit .delete)).2.grid = editor.grid.setColumn column nodes := by
    rw [perform_edit_of_changed hcursor hchange]
  rw [hgrid] at h' ⊢
  obtain ⟨old, new, hreplaced⟩ := Grid.exists_replacedAt hkeeps h h'
  have hgate :=
    (Node.gate?_eq_some_iff _ gate).mpr ((Column.kindAt_eq_gate_iff _ wire gate).mp hkind)
  obtain ⟨op, rfl⟩ := Grid.exists_of_operationAt? (by rw [hgate]; rfl) hreplaced.old_operation
  obtain rfl : new = none := Except.ok.inj (hreplaced.new_operation.symm.trans
    (Grid.operationAt?_eq_none (by rw [Grid.columnAt_setColumn_self, hnone])))
  exact ⟨wire, column, op, hcursor, hreplaced⟩

/-- A change that leaves a gate in its cell has an operation before and after. -/
theorem exists_replacedAt_of_gate {grid : Grid α wires columns} {column : Fin columns}
    {wire : Fin wires} {nodes : Column α wires}
    (hkeeps : (grid.columnAt column).KeepsGates wire nodes)
    (hgate : ((grid.columnAt column).get wire).gate?.isSome = true)
    (hsame : (nodes.get wire).gate? = ((grid.columnAt column).get wire).gate?)
    (h : grid.compile = .ok ops) (h' : (grid.setColumn column nodes).compile = .ok ops') :
    ∃ op op', grid.ReplacedAt (grid.setColumn column nodes) wire column (some op) (some op')
      ops ops' := by
  obtain ⟨old, new, hreplaced⟩ := Grid.exists_replacedAt hkeeps h h'
  obtain ⟨op, rfl⟩ := Grid.exists_of_operationAt? hgate hreplaced.old_operation
  obtain ⟨op', rfl⟩ := Grid.exists_of_operationAt?
    (by rw [Grid.columnAt_setColumn_self, hsame]; exact hgate) hreplaced.new_operation
  exact ⟨op, op', hreplaced⟩

theorem recompiled_adjust {work : Edit α} (hwork : work.adjustsGate = true)
    (hchanged : (editor.perform (.edit work)).1 = .ok .changed)
    (h : editor.grid.compile = .ok ops)
    (h' : (editor.perform (.edit work)).2.grid.compile = .ok ops') :
    ∃ (wire : Fin wires) (column : Fin columns) (op op' : Operation α),
      editor.cursor = ⟨wire, column⟩ ∧
      editor.grid.ReplacedAt (editor.perform (.edit work)).2.grid wire column
        (some op) (some op') ops ops' := by
  obtain ⟨wire, column, nodes, hcursor, hchange, hgrid⟩ := exists_of_perform_edit_changed hchanged
  obtain ⟨hkeeps, hgate, hsame⟩ := Column.keepsGates_of_adjustsGate hwork hchange
  rw [hgrid] at h' ⊢
  obtain ⟨op, op', hreplaced⟩ := exists_replacedAt_of_gate hkeeps hgate hsame h h'
  exact ⟨wire, column, op, op', hcursor, hreplaced⟩

theorem recompiled_delete_control (hlinks : editor.grid.Each Column.LinkExclusive)
    (hkind : editor.selectedKind = .ok .control) (h : editor.grid.compile = .ok ops)
    (h' : (editor.perform (.edit .delete)).2.grid.compile = .ok ops') :
    ∃ (wire owner : Fin wires) (column : Fin columns) (op op' : Operation α),
      editor.cursor = ⟨wire, column⟩ ∧ (editor.grid.columnAt column).owner? wire = some owner ∧
      editor.grid.ReplacedAt (editor.perform (.edit .delete)).2.grid owner column
        (some op) (some op') ops ops' := by
  obtain ⟨wire, column, hcursor, hkind⟩ := exists_of_selectedKind hkind
  obtain ⟨owner, nodes, howner, hcontrolled, hchange, hkeeps, hsame⟩ :=
    Column.exists_delete_of_control hkind
  have hgrid : (editor.perform (.edit .delete)).2.grid = editor.grid.setColumn column nodes := by
    rw [perform_edit_of_changed hcursor hchange]
  -- what owns a control in a link-exclusive column is a gate
  have hgate : ((editor.grid.columnAt column).get owner).gate?.isSome = true := by
    rcases (Node.isControlledBy_iff _ _).mp hcontrolled with hlink | hlink
    · exact (hlinks column).gate_of_link owner .controlA wire hlink
    · exact (hlinks column).gate_of_link owner .controlB wire hlink
  rw [hgrid] at h' ⊢
  obtain ⟨op, op', hreplaced⟩ := exists_replacedAt_of_gate hkeeps hgate hsame h h'
  exact ⟨wire, owner, column, op, op', hcursor, howner, hreplaced⟩

end Fields

/-- From a link-exclusive grid, every action leads to a grid that compiles as well, and to the
same operations but for one at most. A gate that is placed brings its operation, a gate
that is deleted takes its own away, and other work on the gate under the cursor, or on
the owner of the control under it, puts another operation in place of the one it had. Such an
operation stands after as many others as there are gates before the cell of its gate. -/
theorem compile_recompiled (editor : Editor α wires columns)
    (hlinks : editor.grid.Each Column.LinkExclusive) (action : Action α) :
    ∃ ops ops', editor.grid.compile = .ok ops ∧
      (editor.perform action).2.grid.compile = .ok ops' ∧ editor.Recompiled action ops ops' := by
  have hlinks' : (editor.perform action).2.grid.Each Column.LinkExclusive :=
    perform_each .fresh (fun _ _ _ _ h hchange => h.onColumn hchange) hlinks action
  obtain ⟨opsOf, -, h⟩ := editor.grid.compile_eq_ok hlinks
  obtain ⟨opsOf', -, h'⟩ := (editor.perform action).2.grid.compile_eq_ok hlinks'
  have hsame : (editor.perform action).2.grid = editor.grid →
      (List.finRange columns).flatMap opsOf' = (List.finRange columns).flatMap opsOf := by
    intro hgrid
    rw [hgrid] at h'
    exact Except.ok.inj (h'.symm.trans h)
  have hidle : (editor.perform action).1 ≠ .ok .changed →
      (List.finRange columns).flatMap opsOf' = (List.finRange columns).flatMap opsOf := by
    intro hidle
    apply hsame
    have htruth := truthful_perform editor action
    cases hresult : (editor.perform action).1 with
    | error error => rw [htruth.rejected error hresult]
    | ok outcome =>
      cases outcome with
      | changed => exact absurd hresult hidle
      | unchanged => rw [htruth.unchanged hresult]
  refine ⟨_, _, h, h', ⟨?_, ?_, hidle, ?_, ?_, ?_, ?_⟩⟩
  · -- once
    intro haction
    by_cases hchanged : (editor.perform action).1 = .ok .changed
    · cases action with
      | edit work => exact recompiled_edit hchanged h h'
      | navigate direction =>
        rw [hsame (grid_perform_navigate editor direction)]
        exact ⟨0, none, none, [], _, rfl, rfl, rfl⟩
      | reset => exact absurd rfl haction
    · rw [hidle hchanged]
      exact ⟨0, none, none, [], _, rfl, rfl, rfl⟩
  · -- navigated
    rintro direction rfl
    exact hsame (grid_perform_navigate editor direction)
  · -- placed
    rintro gate rfl hchanged
    exact recompiled_placeGate hchanged h h'
  · -- deleted
    rintro gate rfl hkind
    exact recompiled_delete_gate hkind h h'
  · -- adjusted
    rintro work hwork rfl hchanged
    exact recompiled_adjust hwork hchanged h h'
  · -- unlinked
    rintro rfl hkind
    exact recompiled_delete_control hlinks hkind h h'

/-- The first control of the Toffoli gate is deleted, and with it the second: the operation of
the gate, which is the first one, is replaced. -/
theorem compile_recompiled_toffoliAndSwap :
    Grid.toffoliAndSwap.Each Column.LinkExclusive ∧
      (start Grid.toffoliAndSwap).selectedKind = .ok .control ∧
      ∃ ops ops' op op', Grid.toffoliAndSwap.compile = .ok ops ∧
        Grid.toffoliAndSwap.gatesBefore 2 0 = 0 ∧
        Grid.toffoliAndSwap.ReplacedAt ((start Grid.toffoliAndSwap).perform (.edit .delete)).2.grid
          2 0 (some op) (some op') ops ops' := by
  have hlinks : Grid.toffoliAndSwap.Each Column.LinkExclusive := by
    show ∀ column : Fin 1, (Grid.toffoliAndSwap.columnAt column).LinkExclusive
    decide
  have hkind : (start Grid.toffoliAndSwap).selectedKind = .ok .control := by rfl
  obtain ⟨ops, ops', h, -, hrecompiled⟩ :=
    compile_recompiled (start Grid.toffoliAndSwap) hlinks (.edit .delete)
  obtain ⟨wire, owner, column, op, op', hcursor, howner, hreplaced⟩ :=
    hrecompiled.unlinked rfl hkind
  obtain rfl : column = 0 := Subsingleton.elim _ _
  obtain rfl : wire = 0 := Fin.ext (congrArg Cursor.wire hcursor).symm
  obtain rfl : owner = 2 := (Option.some.inj howner).symm
  exact ⟨hlinks, hkind, ops, ops', op, op', h, by decide, hreplaced⟩

end Editor

end CircuitGrid
