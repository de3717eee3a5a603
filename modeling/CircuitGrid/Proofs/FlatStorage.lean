import CircuitGrid.Proofs.Run
import CircuitGrid.Serialized
import Mathlib.Data.Nat.Basic

/-!
# The nodes of a grid in one list

Stored, a grid is one list of nodes, column by column (`Grid.toRecord`). Here the list itself is
read and written, at the index `column * wires + wire` of a cell. The index is computed in
machine words; a number that is no word ends the access, and so does an index beyond the list.

Every cell has an index in the list, no two cells share one, and every index is that of a cell.
So the stored nodes answer to each access as the grid does, and an access fails only where the
grid refuses it.
-/

namespace CircuitGrid

/-! ## Accesses by index -/

/-- What ends an access to stored nodes. -/
inductive StorageFault where
  /-- No cell of the grid is addressed. -/
  | refused (error : GridError)
  /-- A number is no machine word. -/
  | overflow
  /-- There is no node at an index. -/
  | missing (index : Nat)
  deriving DecidableEq, Repr

/-- A number, which must be a word. -/
def word (n : Nat) : Except StorageFault Nat :=
  if n ≤ maxWord64 then .ok n else .error .overflow

namespace GridRecord

variable {α : Type}

/-- The stored grid without gates, if its dimensions are within the limits. -/
def empty? [Angle α] (wires columns : Nat) : Except GridError (GridRecord α) :=
  if wires * columns ≤ maxWord64 ∧
      0 < wires ∧ 0 < columns ∧ wires ≤ maxWires ∧ columns ≤ maxColumns then
    .ok ⟨⟨wires, columns⟩, List.replicate (wires * columns) Node.empty⟩
  else .error (.invalidDimensions wires columns)

/-- The index of a cell among the stored nodes. -/
def index (record : GridRecord α) (wire column : Nat) : Except StorageFault Nat :=
  if record.dimensions.wires ≤ wire ∨ record.dimensions.columns ≤ column then
    .error (.refused
      (.outOfRange wire column record.dimensions.wires record.dimensions.columns))
  else do
    let start ← word (column * record.dimensions.wires)
    word (start + wire)

/-- The node at the index of a cell. -/
def get (record : GridRecord α) (wire column : Nat) : Except StorageFault (Node α) := do
  let index ← record.index wire column
  match record.nodes[index]? with
  | some node => return node
  | none => throw (.missing index)

/-- Overwrite the node at the index of a cell. -/
def set (record : GridRecord α) (wire column : Nat) (node : Node α) :
    Except StorageFault (GridRecord α) := do
  let index ← record.index wire column
  if index < record.nodes.length then
    return { record with nodes := record.nodes.set index node }
  else throw (.missing index)

/-- The stretch of nodes that is a column. -/
def column (record : GridRecord α) (column : Nat) : Except StorageFault (List (Node α)) := do
  let _ ← record.index 0 column
  let start ← word (column * record.dimensions.wires)
  let stop ← word (start + record.dimensions.wires)
  if stop ≤ record.nodes.length then
    return (record.nodes.drop start).take record.dimensions.wires
  else throw (.missing stop)

/-- Every node reset to the empty one. -/
def clear [Angle α] (record : GridRecord α) : GridRecord α :=
  { record with nodes := record.nodes.map fun _ => Node.empty }

/-- How many nodes own a gate. -/
def gateCount (record : GridRecord α) : Nat :=
  record.nodes.countP fun node => node.gate?.isSome

end GridRecord

/-! ## Indices of cells -/

section Indices

variable {wires columns : Nat}

theorem cellIndex_lt (wire : Fin wires) (column : Fin columns) :
    column * wires + wire < columns * wires := by
  calc column * wires + wire
    _ < column * wires + wires := Nat.add_lt_add_left wire.isLt _
    _ = (column + 1) * wires := (Nat.succ_mul _ _).symm
    _ ≤ columns * wires := Nat.mul_le_mul_right wires column.isLt

/-- No two cells share an index. -/
theorem cellIndex_injective {wire wire' : Fin wires} {column column' : Fin columns}
    (h : column.val * wires + wire = column' * wires + wire') :
    wire = wire' ∧ column = column' := by
  have hpos : 0 < wires := Nat.zero_lt_of_lt wire.isLt
  rw [Nat.mul_comm column.val, Nat.mul_comm column'.val] at h
  have hwire := congrArg (· % wires) h
  have hcolumn := congrArg (· / wires) h
  simp only [Nat.mul_add_mod, Nat.mod_eq_of_lt, Fin.is_lt] at hwire
  simp only [Nat.mul_add_div hpos, Nat.div_eq_of_lt, Fin.is_lt, Nat.add_zero] at hcolumn
  exact ⟨Fin.ext hwire, Fin.ext hcolumn⟩

/-- Every index is that of a cell. -/
theorem exists_cellIndex_eq {i : Nat} (h : i < columns * wires) :
    ∃ (wire : Fin wires) (column : Fin columns), column * wires + wire = i := by
  have hpos : 0 < wires := Nat.pos_of_mul_pos_left (Nat.zero_lt_of_lt h)
  refine ⟨⟨i % wires, Nat.mod_lt i hpos⟩, ⟨i / wires, (Nat.div_lt_iff_lt_mul hpos).mpr h⟩, ?_⟩
  exact Nat.div_add_mod' i wires

end Indices

/-! ## The list of a grid -/

namespace Grid

variable {α : Type} {wires columns : Nat} (grid : Grid α wires columns)

theorem nodes_eq_flatten : grid.nodes = grid.cells.flatten.toList := by
  rw [Vector.flatten, Vector.toList_mk, Array.toList_flatten, Array.toList_map, List.map_map]
  rfl

@[simp] theorem length_nodes : grid.nodes.length = columns * wires := by
  rw [nodes_eq_flatten, Vector.length_toList]

/-- At the index of a cell stands its node. -/
theorem getElem?_nodes (wire : Fin wires) (column : Fin columns) :
    grid.nodes[column * wires + wire]? = some ((grid.columnAt column).get wire) := by
  have hlt := cellIndex_lt wire column
  have hpos : 0 < wires := Nat.zero_lt_of_lt wire.isLt
  have hcolumn : (column * wires + wire : Nat) / wires = column := by
    rw [Nat.mul_comm, Nat.mul_add_div hpos, Nat.div_eq_of_lt wire.isLt, Nat.add_zero]
  have hwire : (column * wires + wire : Nat) % wires = wire := by
    rw [Nat.mul_comm, Nat.mul_add_mod, Nat.mod_eq_of_lt wire.isLt]
  rw [nodes_eq_flatten, Vector.getElem?_toList, Vector.getElem?_eq_getElem hlt,
    Vector.getElem_flatten]
  simp only [hcolumn, hwire]
  rfl

/-- Nothing else has the length of the list and the node of each cell at its index. -/
theorem eq_nodes {nodes : List (Node α)} (hlength : nodes.length = columns * wires)
    (h : ∀ (wire : Fin wires) (column : Fin columns),
      nodes[column * wires + wire]? = some ((grid.columnAt column).get wire)) :
    nodes = grid.nodes := by
  apply List.ext_getElem?
  intro i
  by_cases hi : i < columns * wires
  · obtain ⟨wire, column, rfl⟩ := exists_cellIndex_eq hi
    rw [h, getElem?_nodes]
  · rw [List.getElem?_eq_none (by rw [hlength]; exact Nat.le_of_not_lt hi),
      List.getElem?_eq_none (by rw [length_nodes]; exact Nat.le_of_not_lt hi)]

/-- A node put into a cell changes the list at the index of this cell alone. -/
theorem nodes_put (wire : Fin wires) (column : Fin columns) (node : Node α) :
    (grid.setColumn column ((grid.columnAt column).put wire node)).nodes =
      grid.nodes.set (column * wires + wire) node := by
  symm
  apply eq_nodes
  · rw [List.length_set, length_nodes]
  intro wire' column'
  by_cases hindex : (column * wires + wire : Nat) = column' * wires + wire'
  · obtain ⟨rfl, rfl⟩ := cellIndex_injective hindex
    have hlt : (column * wires + wire : Nat) < grid.nodes.length := by
      rw [length_nodes]
      exact cellIndex_lt wire column
    rw [List.getElem?_set_self hlt, columnAt_setColumn_self, Column.get_put_self]
  · rw [List.getElem?_set_ne hindex, getElem?_nodes]
    by_cases hcolumn : column' = column
    · subst hcolumn
      have hwire : wire' ≠ wire := fun he => hindex (by rw [he])
      rw [columnAt_setColumn_self, Column.get_put_of_ne _ _ hwire]
    · rw [columnAt_setColumn_of_ne _ _ hcolumn]

theorem nodes_clear [Angle α] : grid.clear.nodes = grid.nodes.map fun _ => Node.empty := by
  symm
  apply eq_nodes
  · rw [List.length_map, length_nodes]
  intro wire column
  rw [List.getElem?_map, getElem?_nodes, columnAt_clear, Column.get_fresh]
  rfl

/-- A column is the stretch of the list that starts at the index of its first cell. -/
theorem take_drop_nodes (column : Fin columns) :
    (grid.nodes.drop (column * wires)).take wires = (grid.columnAt column).toList := by
  apply List.ext_getElem?
  intro i
  rw [List.getElem?_take, List.getElem?_drop, Vector.getElem?_toList]
  split
  · next hi =>
    rw [grid.getElem?_nodes ⟨i, hi⟩ column, Vector.getElem?_eq_getElem hi]
    rfl
  · next hi => rw [Vector.getElem?_eq_none (Nat.le_of_not_lt hi)]

/-! ## Accesses to a stored grid -/

/-- The cells of a grid are so few that every index is a word. -/
theorem cells_le_maxWord64 (grid : Grid α wires columns) : columns * wires ≤ maxWord64 := by
  calc columns * wires
    _ ≤ maxColumns * maxWires := Nat.mul_le_mul grid.columns_le grid.wires_le
    _ ≤ maxWord64 := by decide

theorem word_of_le {n bound : Nat} (h : n ≤ bound) (hbound : bound ≤ maxWord64) :
    word n = .ok n := if_pos (Nat.le_trans h hbound)

theorem word_start (grid : Grid α wires columns) (column : Fin columns) :
    word (column * wires) = .ok (column * wires) :=
  word_of_le (Nat.mul_le_mul_right wires (Nat.le_of_lt column.isLt)) grid.cells_le_maxWord64

theorem toRecord_index_fin (wire : Fin wires) (column : Fin columns) :
    grid.toRecord.index wire column = .ok (column * wires + wire) := by
  have hin : ¬ (wires ≤ wire ∨ columns ≤ column) := by omega
  show (if wires ≤ wire ∨ columns ≤ column then _ else _) = _
  rw [if_neg hin]
  show (word (column * wires) >>= fun start => word (start + wire)) = _
  rw [grid.word_start]
  exact word_of_le (Nat.le_of_lt (cellIndex_lt wire column)) grid.cells_le_maxWord64

variable {wire column : Nat}

theorem toRecord_index_of_not (h : ¬ (wire < wires ∧ column < columns)) :
    grid.toRecord.index wire column =
      .error (.refused (.outOfRange wire column wires columns)) := by
  have hout : wires ≤ wire ∨ columns ≤ column := by omega
  exact if_pos hout

theorem locate_of_not (h : ¬ (wire < wires ∧ column < columns)) :
    locate wires columns wire column = .error (.outOfRange wire column wires columns) :=
  dif_neg h

theorem toRecord_get_fin (wire : Fin wires) (column : Fin columns) :
    grid.toRecord.get wire column = .ok ((grid.columnAt column).get wire) := by
  unfold GridRecord.get
  rw [toRecord_index_fin]
  show (match grid.nodes[column * wires + wire]? with
    | some node => Except.ok node
    | none => Except.error (StorageFault.missing _)) = _
  rw [getElem?_nodes]

theorem toRecord_set_fin (wire : Fin wires) (column : Fin columns) (node : Node α) :
    grid.toRecord.set wire column node =
      .ok (grid.setColumn column ((grid.columnAt column).put wire node)).toRecord := by
  have hlt : (column * wires + wire : Nat) < grid.nodes.length := by
    rw [length_nodes]
    exact cellIndex_lt wire column
  unfold GridRecord.set
  rw [toRecord_index_fin]
  show (if column * wires + wire < grid.nodes.length then Except.ok _ else _) = _
  rw [if_pos hlt]
  unfold toRecord
  rw [nodes_put]

theorem toRecord_column_fin (column : Fin columns) :
    grid.toRecord.column column = .ok (grid.columnAt column).toList := by
  have hstop : (column * wires + wires : Nat) ≤ columns * wires := by
    rw [← Nat.succ_mul]
    exact Nat.mul_le_mul_right wires column.isLt
  unfold GridRecord.column
  rw [show (0 : Nat) = (⟨0, grid.wires_pos⟩ : Fin wires) from rfl, toRecord_index_fin]
  show (word (column * wires) >>= _) = _
  rw [grid.word_start]
  show (word (column * wires + wires) >>= _) = _
  rw [word_of_le hstop grid.cells_le_maxWord64]
  show (if column * wires + wires ≤ grid.nodes.length then Except.ok _ else _) = _
  rw [length_nodes, if_pos hstop]
  exact congrArg Except.ok (grid.take_drop_nodes column)

/-- A cell of the grid is a wire with a column; any other position is out of range. -/
theorem cell_cases (wires columns wire column : Nat) :
    (∃ (w : Fin wires) (c : Fin columns), wire = w ∧ column = c) ∨
      ¬ (wire < wires ∧ column < columns) := by
  by_cases h : wire < wires ∧ column < columns
  · exact Or.inl ⟨⟨wire, h.1⟩, ⟨column, h.2⟩, rfl, rfl⟩
  · exact Or.inr h

theorem toRecord_get (wire column : Nat) :
    grid.toRecord.get wire column = (grid.get wire column).mapError .refused := by
  rcases cell_cases wires columns wire column with ⟨w, c, rfl, rfl⟩ | hout
  · rw [toRecord_get_fin, get_fin]
    rfl
  · unfold GridRecord.get get
    rw [toRecord_index_of_not _ hout, locate_of_not hout]
    rfl

theorem toRecord_set (wire column : Nat) (node : Node α) :
    grid.toRecord.set wire column node =
      ((grid.set wire column node).map toRecord).mapError .refused := by
  rcases cell_cases wires columns wire column with ⟨w, c, rfl, rfl⟩ | hout
  · rw [toRecord_set_fin, set_fin]
    rfl
  · unfold GridRecord.set set
    rw [toRecord_index_of_not _ hout, locate_of_not hout]
    rfl

theorem toRecord_column (column : Nat) :
    grid.toRecord.column column =
      ((grid.column column).map Vector.toList).mapError .refused := by
  rcases cell_cases wires columns 0 column with ⟨w, c, hw, rfl⟩ | hout
  · unfold Grid.column
    rw [toRecord_column_fin, hw, locate_fin]
    rfl
  · unfold GridRecord.column Grid.column
    rw [toRecord_index_of_not _ hout, locate_of_not hout]
    rfl

theorem toRecord_gateCount : grid.toRecord.gateCount = grid.gateCount := rfl

variable [Angle α]

theorem toRecord_clear : grid.toRecord.clear = grid.clear.toRecord := by
  unfold GridRecord.clear toRecord
  rw [nodes_clear]

theorem nodes_of_empty? {grid : Grid α wires columns} (h : empty? wires columns = .ok grid) :
    grid.nodes = List.replicate (wires * columns) Node.empty := by
  symm
  apply eq_nodes
  · rw [List.length_replicate, Nat.mul_comm]
  intro wire column
  have hlt : column * wires + wire < wires * columns := by
    rw [Nat.mul_comm wires]
    exact cellIndex_lt wire column
  rw [columnAt_of_empty? h, Column.get_fresh, List.getElem?_replicate_of_lt hlt]

theorem toRecord_empty? (wires columns : Nat) :
    GridRecord.empty? (α := α) wires columns = (empty? wires columns).map toRecord := by
  unfold GridRecord.empty?
  by_cases h : (0 < wires ∧ wires ≤ maxWires) ∧ 0 < columns ∧ columns ≤ maxColumns
  · obtain ⟨grid, hgrid⟩ := empty?_eq_ok (α := α) h.1 h.2
    have hcells : wires * columns ≤ maxWord64 := by
      rw [Nat.mul_comm]
      exact grid.cells_le_maxWord64
    rw [if_pos ⟨hcells, h.1.1, h.2.1, h.1.2, h.2.2⟩, hgrid]
    unfold toRecord
    rw [← nodes_of_empty? hgrid]
    rfl
  · have hdimensions : ¬ (wires * columns ≤ maxWord64 ∧
        0 < wires ∧ 0 < columns ∧ wires ≤ maxWires ∧ columns ≤ maxColumns) :=
      fun ⟨_, hwires, hcolumns, hwires', hcolumns'⟩ =>
        h ⟨⟨hwires, hwires'⟩, hcolumns, hcolumns'⟩
    rw [if_neg hdimensions, empty?, dif_neg h]
    rfl

end Grid

end CircuitGrid
