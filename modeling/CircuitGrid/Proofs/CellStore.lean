import CircuitGrid.Proofs.FlatStorage
import CircuitGrid.Proofs.Linearization
import Mathlib.Data.List.Induction
import Mathlib.Data.Set.Card

/-!
# A grid stores its cells

Whatever was done to a grid, a cell reads as it was last set, or as empty if nothing was set
there since the grid was last cleared. One write decides what a cell reads as, or leaves it
alone (`Grid.get_write_of_not_touches`), and a history is read by its last write
(`Write.lastSet_append_iff`), so the induction is on the end of the history.

The list of nodes that a grid is stored as goes through the same history without leaving its
bounds, and answers as the grid does.
-/

namespace CircuitGrid

/-! ## Histories -/

/-- A call that writes to a grid. -/
inductive Write (α : Type) where
  | set (wire column : Nat) (node : Node α)
  | clear
  deriving DecidableEq, Repr

namespace Write

variable {α : Type} {writes : List (Write α)} {write : Write α} {wire column : Nat}
  {node other : Node α}

/-- The cell was set to the node, and after that neither set nor cleared. -/
def LastSet (writes : List (Write α)) (wire column : Nat) (node : Node α) : Prop :=
  ∃ before after, writes = before ++ .set wire column node :: after ∧
    .clear ∉ after ∧ ∀ other, .set wire column other ∉ after

/-- The call decides what the cell reads as. -/
def Touches (wire column : Nat) : Write α → Prop
  | .set wire' column' _ => wire' = wire ∧ column' = column
  | .clear => True

theorem not_lastSet_nil : ¬ LastSet [] wire column node := by
  rintro ⟨before, after, hwrites, _⟩
  simp at hwrites

theorem touches_iff :
    write.Touches wire column ↔ write = .clear ∨ ∃ node, write = .set wire column node := by
  cases write <;> simp [Touches]

/-- A history is read by its last write: it is the last set of the cell, or leaves the cell to
what came before. -/
theorem lastSet_append_iff :
    LastSet (writes ++ [write]) wire column node ↔
      write = .set wire column node ∨
        ¬ write.Touches wire column ∧ LastSet writes wire column node := by
  constructor
  · rintro ⟨before, after, hwrites, hclear, hset⟩
    rcases List.eq_nil_or_concat' after with rfl | ⟨after, last, rfl⟩
    · exact Or.inl (List.append_singleton_inj.mp hwrites).2
    · right
      rw [← List.cons_append, ← List.append_assoc] at hwrites
      obtain ⟨rfl, rfl⟩ := List.append_singleton_inj.mp hwrites
      simp only [List.mem_append, List.mem_singleton, not_or] at hclear hset
      refine ⟨?_, before, after, rfl, hclear.1, fun other => (hset other).1⟩
      rw [touches_iff]
      rintro (rfl | ⟨other, rfl⟩)
      · exact hclear.2 rfl
      · exact (hset other).2 rfl
  · rintro (rfl | ⟨htouches, before, after, rfl, hclear, hset⟩)
    · exact ⟨writes, [], rfl, List.not_mem_nil, fun _ => List.not_mem_nil⟩
    · rw [touches_iff, not_or, not_exists] at htouches
      refine ⟨before, after ++ [write], by simp, ?_, ?_⟩
      · simp only [List.mem_append, List.mem_singleton, not_or]
        exact ⟨hclear, fun he => htouches.1 he.symm⟩
      · intro other
        simp only [List.mem_append, List.mem_singleton, not_or]
        exact ⟨hset other, fun he => htouches.2 other he.symm⟩

/-- What a cell holds after a history: the node it was last set to, or else nothing. -/
def Leaves [Angle α] (writes : List (Write α)) (wire column : Nat) (node : Node α) : Prop :=
  LastSet writes wire column node ∨
    (∀ other, ¬ LastSet writes wire column other) ∧ node = Node.empty

variable [Angle α]

theorem leaves_nil_iff : Leaves [] wire column node ↔ node = Node.empty := by
  simp [Leaves, not_lastSet_nil]

theorem leaves_append_set_iff :
    Leaves (writes ++ [.set wire column other]) wire column node ↔ node = other := by
  have hlast : ∀ node, LastSet (writes ++ [.set wire column other]) wire column node ↔
      node = other := by
    intro node
    rw [lastSet_append_iff]
    simp [Touches, eq_comm]
  simp only [Leaves, hlast]
  simp

theorem leaves_append_clear_iff :
    Leaves (writes ++ [.clear]) wire column node ↔ node = Node.empty := by
  simp [Leaves, lastSet_append_iff, Touches]

theorem leaves_append_iff_of_not_touches (h : ¬ write.Touches wire column) :
    Leaves (writes ++ [write]) wire column node ↔ Leaves writes wire column node := by
  have hlast : ∀ node, LastSet (writes ++ [write]) wire column node ↔
      LastSet writes wire column node := by
    intro node
    rw [lastSet_append_iff, or_iff_right (fun he => h (touches_iff.mpr (Or.inr ⟨node, he⟩))),
      and_iff_right h]
  simp only [Leaves, hlast]

end Write

/-! ## Writing to a grid -/

namespace Grid

variable {α : Type} [Angle α] {wires columns : Nat}

/-- The grid after a call. One that is refused leaves it as it is. -/
def write (grid : Grid α wires columns) : Write α → Grid α wires columns
  | .set wire column node => (grid.set wire column node).toOption.getD grid
  | .clear => grid.clear

/-- The grid after a history of calls. -/
def writeAll (grid : Grid α wires columns) (writes : List (Write α)) : Grid α wires columns :=
  writes.foldl write grid

variable (grid : Grid α wires columns)

theorem write_set_fin (wire : Fin wires) (column : Fin columns) (node : Node α) :
    grid.write (.set wire column node) =
      grid.setColumn column ((grid.columnAt column).put wire node) := by
  show (grid.set wire column node).toOption.getD grid = _
  rw [set_fin]
  rfl

/-- Out of range nothing is written. -/
theorem write_set_of_not {wire column : Nat} (h : ¬ (wire < wires ∧ column < columns))
    (node : Node α) : grid.write (.set wire column node) = grid := by
  show (grid.set wire column node).toOption.getD grid = _
  unfold set
  rw [locate_of_not h]
  rfl

section Cells

variable (wire : Fin wires) (column : Fin columns) (node : Node α)

theorem get_write_set :
    ((grid.write (.set wire column node)).columnAt column).get wire = node := by
  rw [write_set_fin, columnAt_setColumn_self, Column.get_put_self]

theorem get_write_clear : ((grid.write .clear).columnAt column).get wire = Node.empty := by
  show (grid.clear.columnAt column).get wire = _
  rw [columnAt_clear, Column.get_fresh]

theorem get_write_of_not_touches {call : Write α} (h : ¬ call.Touches wire column) :
    ((grid.write call).columnAt column).get wire = (grid.columnAt column).get wire := by
  cases call with
  | clear => exact absurd trivial h
  | set wire' column' node =>
    rcases cell_cases wires columns wire' column' with ⟨w, c, rfl, rfl⟩ | hout
    · rw [write_set_fin]
      by_cases hcolumn : column = c
      · subst hcolumn
        have hwire : wire ≠ w := fun he => h ⟨by rw [he], rfl⟩
        rw [columnAt_setColumn_self, Column.get_put_of_ne _ _ hwire]
      · rw [columnAt_setColumn_of_ne _ _ hcolumn]
    · rw [write_set_of_not grid hout]

/-- A cell of a grid that started out empty holds what its history leaves there. -/
theorem get_writeAll_iff (hempty : empty? wires columns = .ok grid) (writes : List (Write α)) :
    ((grid.writeAll writes).columnAt column).get wire = node ↔
      Write.Leaves writes wire column node := by
  induction writes using List.reverseRecOn generalizing node with
  | nil =>
    show (grid.columnAt column).get wire = node ↔ _
    rw [columnAt_of_empty? hempty, Column.get_fresh, Write.leaves_nil_iff, eq_comm]
  | append_singleton writes call ih =>
    have hstep : grid.writeAll (writes ++ [call]) = (grid.writeAll writes).write call :=
      List.foldl_concat write grid call writes
    rw [hstep]
    by_cases htouches : call.Touches wire column
    · cases call with
      | clear => rw [get_write_clear, Write.leaves_append_clear_iff, eq_comm]
      | set wire' column' other =>
        obtain ⟨rfl, rfl⟩ := htouches
        rw [get_write_set, Write.leaves_append_set_iff, eq_comm]
    · rw [get_write_of_not_touches _ _ _ htouches,
        Write.leaves_append_iff_of_not_touches htouches, ih]

end Cells

/-! ## Counting gates -/

omit [Angle α] in
/-- The gates are counted one for each position. -/
theorem gateCount_eq_ncard : grid.gateCount = Set.ncard {position : Nat × Nat |
    ∃ node, grid.get position.1 position.2 = .ok node ∧ node.gate?.isSome} := by
  let positions : List (Nat × Nat) := grid.gateCells.map fun cell => (cell.wire, cell.column)
  have hnodup : positions.Nodup := by
    refine List.pairwise_map.mpr (grid.pairwise_gateCells.imp ?_)
    rintro cell other (hcolumn | ⟨_, hwire⟩) he
    · exact absurd (Prod.ext_iff.mp he).2 (Nat.ne_of_lt hcolumn)
    · exact absurd (Prod.ext_iff.mp he).1 (Nat.ne_of_lt hwire)
  have hmem : {position : Nat × Nat |
      ∃ node, grid.get position.1 position.2 = .ok node ∧ node.gate?.isSome} =
        positions.toFinset := by
    ext ⟨wire, column⟩
    simp only [Set.mem_ofPred_eq, List.coe_toFinset]
    constructor
    · rintro ⟨node, hget, hgate⟩
      obtain ⟨wire, column, rfl, rfl⟩ := exists_fin_of_get hget
      obtain ⟨gate, hgate⟩ := Option.isSome_iff_exists.mp hgate
      refine List.mem_map.mpr ⟨⟨wire, column, gate, node⟩, mem_gateCells.mpr ⟨hget, ?_⟩, rfl⟩
      exact (Node.gate?_eq_some_iff node gate).mp hgate
    · intro h
      obtain ⟨cell, hcell, he⟩ := List.mem_map.mp h
      cases he
      obtain ⟨hget, hcontent⟩ := mem_gateCells.mp hcell
      refine ⟨cell.node, hget, ?_⟩
      rw [(Node.gate?_eq_some_iff cell.node cell.gate).mpr hcontent]
      rfl
  rw [hmem, Set.ncard_coe_finset, List.toFinset_card_of_nodup hnodup, List.length_map,
    length_gateCells]

end Grid

/-! ## Writing to the stored nodes -/

namespace GridRecord

variable {α : Type} [Angle α]

/-- The stored nodes after a call. One that is refused leaves them as they are, any other
fault ends the history. -/
def write (record : GridRecord α) : Write α → Except StorageFault (GridRecord α)
  | .set wire column node =>
    match record.set wire column node with
    | .error (.refused _) => .ok record
    | outcome => outcome
  | .clear => .ok record.clear

end GridRecord

namespace Grid

variable {α : Type} [Angle α] {wires columns : Nat} (grid : Grid α wires columns)

theorem toRecord_write (call : Write α) :
    grid.toRecord.write call = .ok (grid.write call).toRecord := by
  cases call with
  | clear => exact congrArg Except.ok grid.toRecord_clear
  | set wire column node =>
    unfold GridRecord.write write
    simp only [toRecord_set]
    cases grid.set wire column node <;> rfl

theorem toRecord_writeAll (writes : List (Write α)) :
    writes.foldlM GridRecord.write grid.toRecord = .ok (grid.writeAll writes).toRecord := by
  induction writes generalizing grid with
  | nil => rfl
  | cons call writes ih =>
    rw [List.foldlM_cons, toRecord_write]
    exact ih (grid.write call)

/-! ## The store -/

/-- The position is refused by every access, and writing there changes nothing. -/
structure Refuses (wire column : Nat) : Prop where
  get : grid.get wire column = .error (.outOfRange wire column wires columns)
  set : ∀ node, grid.set wire column node = .error (.outOfRange wire column wires columns)
  write : ∀ node, grid.write (.set wire column node) = grid
  kindAt : grid.kindAt wire column = .error (.outOfRange wire column wires columns)
  owner : grid.owner? wire column = .error (.outOfRange wire column wires columns)
  side : grid.side? wire column = .error (.outOfRange wire column wires columns)

theorem refuses_of_not {wire column : Nat} (h : ¬ (wire < wires ∧ column < columns)) :
    grid.Refuses wire column where
  get := by
    unfold get
    rw [locate_of_not h]
    rfl
  set node := by
    unfold set
    rw [locate_of_not h]
    rfl
  write := grid.write_set_of_not h
  kindAt := by
    unfold kindAt
    rw [locate_of_not h]
    rfl
  owner := by
    unfold owner?
    rw [locate_of_not h]
    rfl
  side := by
    unfold side?
    rw [locate_of_not h]
    rfl

/-- The grid is a store of cells with this history. -/
structure Stores (writes : List (Write α)) : Prop where
  /-- A cell reads as the one node that its history leaves there. -/
  get : ∀ wire column, wire < wires → column < columns → ∃ node,
    grid.get wire column = .ok node ∧ ∀ other, Write.Leaves writes wire column other ↔ other = node
  /-- No write to a cell is refused. -/
  set : ∀ wire column node, wire < wires → column < columns →
    ∃ next, grid.set wire column node = .ok next
  /-- A column is the list of its cells, wires ascending. -/
  column : ∀ column, column < columns → ∃ nodes, grid.column column = .ok nodes ∧
    nodes.toList.map .ok = (List.range wires).map fun wire => grid.get wire column
  gateCount : grid.gateCount = Set.ncard {position : Nat × Nat |
    ∃ node, grid.get position.1 position.2 = .ok node ∧ node.gate?.isSome}
  refuses : ∀ wire column, wires ≤ wire ∨ columns ≤ column → grid.Refuses wire column
  refuses_column : ∀ column, columns ≤ column →
    grid.column column = .error (.outOfRange 0 column wires columns)

omit [Angle α] in
theorem map_ok_toList (column : Fin columns) : (grid.columnAt column).toList.map .ok =
    (List.range wires).map fun wire => grid.get wire column := by
  rw [toList_eq_map_get, List.map_map, ← List.map_coe_finRange_eq_range, List.map_map]
  apply List.map_congr_left
  intro wire _
  exact (grid.get_fin wire column).symm

theorem stores_of_empty? (hempty : empty? wires columns = .ok grid) (writes : List (Write α)) :
    (grid.writeAll writes).Stores writes where
  get wire column hwire hcolumn := by
    refine ⟨_, (grid.writeAll writes).get_fin ⟨wire, hwire⟩ ⟨column, hcolumn⟩, fun other => ?_⟩
    rw [← grid.get_writeAll_iff ⟨wire, hwire⟩ ⟨column, hcolumn⟩ other hempty, eq_comm]
  set wire column node hwire hcolumn :=
    ⟨_, (grid.writeAll writes).set_fin ⟨wire, hwire⟩ ⟨column, hcolumn⟩ node⟩
  column column hcolumn := by
    refine ⟨(grid.writeAll writes).columnAt ⟨column, hcolumn⟩, ?_, map_ok_toList _ _⟩
    have hlocate := locate_fin (⟨0, grid.wires_pos⟩ : Fin wires) ⟨column, hcolumn⟩
    unfold Grid.column
    rw [show locate wires columns 0 column = _ from hlocate]
    rfl
  gateCount := gateCount_eq_ncard _
  refuses wire column hout := refuses_of_not _ (by omega)
  refuses_column column hout := by
    unfold Grid.column
    rw [locate_of_not (by omega)]
    rfl

/-- The stored nodes answer every access as the grid does. -/
structure StoredAs (record : GridRecord α) : Prop where
  get : ∀ wire column, record.get wire column = (grid.get wire column).mapError .refused
  set : ∀ wire column node, record.set wire column node =
    ((grid.set wire column node).map toRecord).mapError .refused
  column : ∀ column, record.column column =
    ((grid.column column).map Vector.toList).mapError .refused
  gateCount : record.gateCount = grid.gateCount

omit [Angle α] in
theorem storedAs_toRecord : grid.StoredAs grid.toRecord :=
  ⟨grid.toRecord_get, grid.toRecord_set, grid.toRecord_column, grid.toRecord_gateCount⟩

/-- There is a grid for dimensions within the limits, and for no others. After any history of
writes, accepted or refused, it is a store of cells with this history. The nodes stored in one
list, at the index `column * wires + wire` of each cell, go through the same history without a
fault and answer as the grid does. -/
theorem writeAll_stores (wires columns : Nat) :
    ((∃ grid : Grid α wires columns, empty? wires columns = .ok grid) ↔
      (1 ≤ wires ∧ wires ≤ 20) ∧ 1 ≤ columns ∧ columns ≤ 256) ∧
    ∀ grid : Grid α wires columns, empty? wires columns = .ok grid → ∀ writes,
      (grid.writeAll writes).Stores writes ∧
      ∃ start record, GridRecord.empty? wires columns = .ok start ∧
        writes.foldlM GridRecord.write start = .ok record ∧
        (grid.writeAll writes).StoredAs record := by
  refine ⟨⟨?_, fun h => empty?_eq_ok h.1 h.2⟩, ?_⟩
  · rintro ⟨grid, _⟩
    exact ⟨⟨grid.wires_pos, grid.wires_le⟩, grid.columns_pos, grid.columns_le⟩
  · intro grid hempty writes
    refine ⟨stores_of_empty? grid hempty writes, grid.toRecord, _, ?_,
      grid.toRecord_writeAll writes, storedAs_toRecord _⟩
    rw [toRecord_empty?, hempty]
    rfl

/-- Two writes to one cell, one before the grid is cleared, one to a neighbour and one out of
range: the cell reads as it was last set, the cell below it as empty. -/
theorem get_of_rewritten_cell :
    let writes : List (Write Float) :=
      [.set 1 1 (.ofGate .t), .clear, .set 1 0 (.ofGate .hadamard), .set 1 0 (.ofGate .pauliX),
        .set 0 1 (.ofGate .s), .set 18446744073709551615 18446744073709551615 .trace]
    ∃ grid : Grid Float 2 3, empty? 2 3 = .ok grid ∧
      (grid.writeAll writes).get 1 0 = .ok (.ofGate .pauliX) ∧
      (grid.writeAll writes).get 1 1 = .ok .empty := by
  intro writes
  obtain ⟨grid, hempty⟩ := (writeAll_stores (α := Float) 2 3).1.mpr (by decide)
  obtain ⟨hstores, _⟩ := (writeAll_stores 2 3).2 grid hempty writes
  have hread : ∀ wire column node, wire < 2 → column < 3 →
      Write.Leaves writes wire column node →
        (grid.writeAll writes).get wire column = .ok node := by
    intro wire column node hwire hcolumn hleaves
    obtain ⟨found, hget, hunique⟩ := hstores.get wire column hwire hcolumn
    rw [hget, (hunique node).mp hleaves]
  have hset : Write.Leaves writes 1 0 (.ofGate .pauliX) :=
    Or.inl ⟨writes.take 3, writes.drop 4, rfl, by simp [writes], by simp [writes]⟩
  have hunset : Write.Leaves writes 1 1 Node.empty := by
    have hwrites : writes = [] ++ [writes[0]] ++ [.clear] ++ [writes[2]] ++ [writes[3]]
      ++ [writes[4]] ++ [writes[5]] := rfl
    rw [hwrites]
    iterate 4 rw [Write.leaves_append_iff_of_not_touches (by simp [Write.Touches, writes])]
    exact Write.leaves_append_clear_iff.mpr rfl
  exact ⟨grid, hempty, hread 1 0 _ (by decide) (by decide) hset,
    hread 1 1 _ (by decide) (by decide) hunset⟩

end Grid

end CircuitGrid
