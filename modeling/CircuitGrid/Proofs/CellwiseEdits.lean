import CircuitGrid.Proofs.Cellwise
import CircuitGrid.Proofs.Changes
import CircuitGrid.Proofs.Run

/-!
# What an edit cell by cell comes to

Run on an editor whose cursor is on a cell of the grid, the program of an edit
works on the column under the cursor. It ends as the edit of this column says,
without a fault of its own: every cell that it addresses is there, and every sum
and difference that it computes is a word. There is one lemma for each program, and it
is stated for the editor with any nodes at all in that column, so that the lemmas
of two programs in a row compose.
-/

namespace CircuitGrid

namespace Grid

variable {α : Type} {wires columns : Nat}

theorem column_add_le_maxWord64 (grid : Grid α wires columns) {column : Nat}
    (hcolumn : column < columns) : column + 1 ≤ maxWord64 := by
  have hcolumns := grid.columns_le
  unfold maxColumns at hcolumns
  unfold maxWord64
  omega

/-- Wires are so few that stepping by one or two is no matter for words. -/
theorem add_le_maxWord64 (grid : Grid α wires columns) {wire step : Nat} (hwire : wire < wires)
    (hstep : step ≤ 2) : wire + step ≤ maxWord64 := by
  have hwires := grid.wires_le
  unfold maxWires at hwires
  unfold maxWord64
  omega

end Grid

namespace Editor

variable {α : Type} {wires columns : Nat}

/-- The editor with other nodes in one column. -/
def withColumn (editor : Editor α wires columns) (column : Fin columns)
    (nodes : Column α wires) : Editor α wires columns :=
  { editor with grid := editor.grid.setColumn column nodes }

variable (editor : Editor α wires columns) (column : Fin columns) (nodes : Column α wires)

@[simp] theorem columnAt_withColumn :
    (editor.withColumn column nodes).grid.columnAt column = nodes :=
  Grid.columnAt_setColumn_self _ _ _

@[simp] theorem withColumn_columnAt :
    editor.withColumn column (editor.grid.columnAt column) = editor := by
  unfold withColumn
  rw [Grid.setColumn_columnAt]

end Editor

/-- Where putting a control on a wire ends. -/
def Placement.landing {α : Type} {n : Nat} : Placement α n → Landing
  | .placed _ => .placed
  | .outOfBounds => .outOfBounds
  | .blocked found => .blocked found

/-- The column after putting a control on a wire, given the column before. -/
def Placement.columnOr {α : Type} {n : Nat} (nodes : Column α n) : Placement α n → Column α n
  | .placed linked => linked
  | .outOfBounds | .blocked _ => nodes

/-- Put a control on the wire above a gate, if it has one. -/
def Column.placeAbove {α : Type} [Angle α] {n : Nat} (nodes : Column α n) (gate : Fin n) :
    Placement α n :=
  if 0 < gate.val then nodes.placeControl gate (gate - 1) else .outOfBounds

namespace CellProgram

variable {α σ τ : Type} {wires columns : Nat}

/-! ## Running programs -/

section Running

variable {editor next : Editor α wires columns}

/-- A program that ends well hands its result and its editor on. -/
theorem execute_bind_of_ok {first : CellProgram α wires columns σ}
    {rest : σ → CellProgram α wires columns τ} {result : σ}
    (h : first.execute editor = (.ok result, next)) :
    (first >>= rest).execute editor = (rest result).execute next := by
  show (match first.execute editor with
    | (result, next) => (ExceptT.bindCont rest result).run next) = _
  rw [h]
  rfl

theorem execute_ask_of_ok {query : Grid α wires columns → Except GridError τ} {answer : τ}
    (h : query editor.grid = .ok answer) : (ask query).execute editor = (.ok answer, editor) := by
  have hget : (get : CellProgram α wires columns _).execute editor = (.ok editor, editor) := rfl
  unfold ask
  rw [execute_bind_of_ok hget, h]
  rfl

theorem execute_plus {a b : Nat} (h : a + b ≤ maxWord64) :
    (plus a b).execute editor = (.ok (a + b), editor) := by
  unfold plus
  rw [if_pos h]
  rfl

theorem execute_minus {a b : Nat} (h : b ≤ a) :
    (minus a b).execute editor = (.ok (a - b), editor) := by
  unfold minus
  rw [if_pos h]
  rfl

end Running

section Cells

variable (editor : Editor α wires columns) (column : Fin columns) (nodes : Column α wires)

theorem execute_get (wire : Fin wires) :
    (ask (·.get wire column)).execute (editor.withColumn column nodes) =
      (.ok (nodes.get wire), editor.withColumn column nodes) := by
  apply execute_ask_of_ok
  rw [Grid.get_fin, Editor.columnAt_withColumn]

theorem execute_kindAt (wire : Fin wires) :
    (ask (·.kindAt wire column)).execute (editor.withColumn column nodes) =
      (.ok (nodes.kindAt wire), editor.withColumn column nodes) := by
  apply execute_ask_of_ok
  rw [Grid.kindAt_fin, Editor.columnAt_withColumn]

theorem execute_owner (wire : Fin wires) :
    (ask (·.owner? wire column)).execute (editor.withColumn column nodes) =
      (.ok (nodes.owner? wire), editor.withColumn column nodes) := by
  apply execute_ask_of_ok
  rw [Grid.owner?_fin, Editor.columnAt_withColumn]

theorem execute_write (wire : Fin wires) (node : Node α) :
    (write wire column node).execute (editor.withColumn column nodes) =
      (.ok (), editor.withColumn column (nodes.put wire node)) := by
  have hset : (editor.withColumn column nodes).grid.set wire column node =
      .ok (editor.grid.setColumn column (nodes.put wire node)) := by
    rw [Grid.set_fin, Editor.columnAt_withColumn]
    exact congrArg _ (Grid.setColumn_setColumn _ _ _ _)
  unfold write
  rw [execute_bind_of_ok (execute_ask_of_ok hset)]
  rfl

/-! ## Steps of a control -/

theorem execute_step (gate control : Fin wires) (direction : Direction) :
    (step gate control direction).execute (editor.withColumn column nodes) =
      (.ok (Column.controlStep? gate control direction), editor.withColumn column nodes) := by
  cases direction with
  | left | right => rfl
  | up =>
    simp only [step, Column.controlStep?]
    split
    · rfl
    · next hpos =>
      -- above wire 0 there is nothing, also if the gate is to be stepped over
      rw [execute_bind_of_ok (execute_minus (by omega))]
      split
      · next habove =>
        rw [habove]
        split
        · rfl
        · rw [execute_bind_of_ok (execute_minus (by omega))]
          rfl
      · rfl
  | down =>
    simp only [step, Column.controlStep?]
    rw [execute_bind_of_ok (execute_plus (editor.grid.add_le_maxWord64 control.isLt (by decide)))]
    split
    · rw [execute_bind_of_ok
        (execute_plus (editor.grid.add_le_maxWord64 control.isLt (Nat.le_refl 2)))]
      rfl
    · rfl

theorem execute_behind (gate candidate : Fin wires) (direction : Direction) :
    (behind gate candidate direction).execute (editor.withColumn column nodes) =
      (.ok (Column.wireBehind? gate candidate direction), editor.withColumn column nodes) := by
  cases direction with
  | left | right => rfl
  | up =>
    simp only [behind, Column.wireBehind?]
    split
    · rw [execute_bind_of_ok
        (execute_plus (editor.grid.add_le_maxWord64 candidate.isLt (by decide)))]
      rfl
    · rfl
  | down =>
    simp only [behind, Column.wireBehind?]
    split
    · rw [execute_bind_of_ok (execute_minus (by omega))]
      rfl
    · rfl

variable [Angle α]

/-! ## Clearing traces -/

theorem execute_clearTrace (wire : Fin wires) :
    (clearTrace wire column).execute (editor.withColumn column nodes) =
      (.ok (), editor.withColumn column
        (if (nodes.get wire).content = .trace then nodes.put wire Node.empty else nodes)) := by
  unfold clearTrace
  rw [execute_bind_of_ok (execute_get editor column nodes wire)]
  split
  · exact execute_write editor column nodes wire Node.empty
  · rfl

/-- Visiting wires in a row clears the traces on these wires and nothing else. -/
theorem execute_clearVisited (visited : List Nat) (hvisited : ∀ wire ∈ visited, wire < wires) :
    ∃ cleared : Column α wires,
      (visited.forM (clearTrace · column.val)).execute (editor.withColumn column nodes) =
        (.ok (), editor.withColumn column cleared) ∧
      ∀ place : Fin wires, cleared.get place =
        if place.val ∈ visited ∧ (nodes.get place).content = .trace then Node.empty
        else nodes.get place := by
  -- each wire visited may change the nodes that the next one sees
  induction visited generalizing nodes with
  | nil => exact ⟨nodes, rfl, fun place => by simp⟩
  | cons wire visited ih =>
    obtain ⟨hwire, hrest⟩ := List.forall_mem_cons.mp hvisited
    obtain ⟨cleared, hrun, hget⟩ := ih
      (if (nodes.get ⟨wire, hwire⟩).content = .trace then nodes.put ⟨wire, hwire⟩ Node.empty
        else nodes) hrest
    refine ⟨cleared, ?_, ?_⟩
    · show (clearTrace wire column.val >>= fun _ => visited.forM _).execute _ = _
      rw [execute_bind_of_ok (execute_clearTrace editor column nodes ⟨wire, hwire⟩)]
      exact hrun
    · intro place
      rw [hget]
      by_cases hplace : place = ⟨wire, hwire⟩
      · -- the first wire holds no trace when it is visited again
        subst hplace
        by_cases htrace : (nodes.get ⟨wire, hwire⟩).content = .trace
        · simp [htrace, Node.empty]
        · simp [htrace]
      · have hne : place.val ≠ wire := fun h => hplace (Fin.ext h)
        split <;> simp [Column.get_put_of_ne _ _ hplace, hne]

/-- Clearing between a wire of the grid and any wire at all stays inside the grid. -/
theorem execute_clearBetween (gate : Fin wires) (control : Nat) :
    (clearBetween gate control column).execute (editor.withColumn column nodes) =
      (.ok (), editor.withColumn column (nodes.clearTraces gate control)) := by
  have hsum : min gate.val control + 1 ≤ maxWord64 :=
    editor.grid.add_le_maxWord64 (by omega) (by decide)
  unfold clearBetween
  rw [execute_bind_of_ok (execute_plus hsum)]
  obtain ⟨cleared, hrun, hget⟩ := execute_clearVisited editor column nodes
    (List.range' (min gate.val control + 1)
      (min (max gate.val control) wires - (min gate.val control + 1)))
    (fun wire hwire => by
      have := List.mem_range'_1.mp hwire
      omega)
  rw [hrun]
  congr 2
  -- a wire of the grid is visited exactly if it lies strictly between the two
  apply Column.ext_get
  intro place
  rw [hget, Column.get_clearTraces]
  have hplace := place.isLt
  simp only [List.mem_range'_1]
  congr 1
  apply propext
  constructor <;> rintro ⟨hbetween, hrest⟩
  · exact ⟨by omega, by omega, hrest⟩
  · exact ⟨by omega, hrest.2⟩

/-! ## Placing and removing controls -/

theorem execute_placeControl (gate : Fin wires) (candidate : Nat) :
    (placeControl gate candidate column).execute (editor.withColumn column nodes) =
      (.ok (nodes.placeControl gate candidate).landing,
        editor.withColumn column ((nodes.placeControl gate candidate).columnOr nodes)) := by
  unfold placeControl Column.placeControl
  by_cases hcandidate : candidate < wires
  · rw [if_neg (by omega), dif_pos hcandidate,
      execute_bind_of_ok (execute_kindAt editor column nodes ⟨candidate, hcandidate⟩)]
    dsimp only
    split
    · rw [execute_bind_of_ok (execute_get editor column nodes gate),
        execute_bind_of_ok (execute_write editor column nodes gate _),
        execute_bind_of_ok (execute_write editor column _ ⟨candidate, hcandidate⟩ Node.empty)]
      rfl
    · rfl
  · rw [if_pos (by omega), dif_neg hcandidate]
    rfl

theorem execute_placeAbove (gate : Fin wires) :
    (placeAbove gate column).execute (editor.withColumn column nodes) =
      (.ok (nodes.placeAbove gate).landing,
        editor.withColumn column ((nodes.placeAbove gate).columnOr nodes)) := by
  unfold placeAbove Column.placeAbove
  split
  · next hpos =>
    rw [execute_bind_of_ok (execute_minus hpos)]
    exact execute_placeControl editor column nodes gate (gate - 1)
  · rfl

theorem execute_placeBelow (gate : Fin wires) :
    (placeBelow gate column).execute (editor.withColumn column nodes) =
      (.ok (nodes.placeControl gate (gate + 1)).landing,
        editor.withColumn column ((nodes.placeControl gate (gate + 1)).columnOr nodes)) := by
  unfold placeBelow
  rw [execute_bind_of_ok (execute_plus (editor.grid.add_le_maxWord64 gate.isLt (by decide)))]
  exact execute_placeControl editor column nodes gate (gate + 1)

theorem execute_removeControls (gate : Fin wires) :
    (removeControls gate column).execute (editor.withColumn column nodes) =
      (.ok (if (nodes.removeControls? gate).isSome then .changed else .unchanged),
        editor.withColumn column ((nodes.removeControls? gate).getD nodes)) := by
  unfold removeControls Column.removeControls?
  rw [execute_bind_of_ok (execute_get editor column nodes gate)]
  dsimp only
  split
  · cases Column.furthestControl? gate (nodes.get gate) with
    | some control =>
      dsimp only
      rw [execute_bind_of_ok (execute_clearBetween editor column nodes gate control),
        execute_bind_of_ok (execute_write editor column _ gate _)]
      rfl
    | none =>
      dsimp only
      rw [execute_bind_of_ok (execute_write editor column _ gate _)]
      rfl
  · rfl

/-! ## The edits -/

/-- How a program ends that makes an edit of the column under a cursor on `wire`. -/
def settled (wire : Fin wires) :
    ColumnEdit α wires → Except Fault Outcome × Editor α wires columns
  | .changed changed => (.ok .changed, editor.withColumn column changed)
  | .unchanged => (.ok .unchanged, editor.withColumn column nodes)
  | .blocked other found =>
    (.error (.edit (.invalidPlacement other column found)), editor.withColumn column nodes)
  | .noRoom => (.error (.edit (.controlUnavailable wire column)), editor.withColumn column nodes)

theorem execute_placeGate (wire : Fin wires) (gate : Gate) :
    (placeGate wire column gate).execute (editor.withColumn column nodes) =
      settled editor column nodes wire (nodes.placeGate wire gate) := by
  unfold placeGate Column.placeGate
  rw [execute_bind_of_ok (execute_kindAt editor column nodes wire)]
  dsimp only
  split
  · rw [execute_bind_of_ok (execute_write editor column nodes wire _)]
    rfl
  · rfl

theorem execute_delete (wire : Fin wires) :
    (delete wire column).execute (editor.withColumn column nodes) =
      settled editor column nodes wire (nodes.delete wire) := by
  unfold delete Column.delete
  rw [execute_bind_of_ok (execute_kindAt editor column nodes wire)]
  cases nodes.kindAt wire with
  | gate gate =>
    dsimp only
    rw [execute_bind_of_ok (execute_removeControls editor column nodes wire),
      execute_bind_of_ok (execute_write editor column _ wire Node.empty)]
    rfl
  | control =>
    dsimp only
    rw [execute_bind_of_ok (execute_owner editor column nodes wire)]
    cases nodes.owner? wire with
    | none => rfl
    | some owner =>
      dsimp only [Option.bind_some]
      rw [execute_removeControls]
      cases nodes.removeControls? owner <;> rfl
  | empty => rfl
  | trace => rfl
  | swapPartner => rfl

theorem execute_toggleControl (wire : Fin wires) :
    (toggleControl wire column).execute (editor.withColumn column nodes) =
      settled editor column nodes wire (nodes.toggleControl wire) := by
  unfold toggleControl Column.toggleControl
  rw [execute_bind_of_ok (execute_get editor column nodes wire)]
  dsimp only
  split
  · cases (nodes.get wire).controlA with
    | some control =>
      dsimp only
      rw [execute_bind_of_ok (execute_write editor column nodes wire _),
        execute_bind_of_ok (execute_clearBetween editor column _ wire control)]
      rfl
    | none =>
      dsimp only
      split
      · rfl
      · rw [execute_bind_of_ok (execute_placeAbove editor column nodes wire)]
        have habove : (if 0 < wire.val then nodes.placeControl wire (wire - 1)
            else .outOfBounds) = nodes.placeAbove wire := rfl
        rw [habove]
        cases nodes.placeAbove wire with
        | placed placed => rfl
        | outOfBounds | blocked =>
          -- the failed attempt above has left the column alone
          dsimp only [Placement.columnOr]
          rw [if_neg (by simp [Placement.landing]),
            execute_bind_of_ok (execute_placeBelow editor column nodes wire)]
          cases nodes.placeControl wire (wire + 1) <;> rfl
  · rfl

theorem execute_moveControl (wire : Fin wires) (direction : Direction) :
    (moveControl wire column direction).execute (editor.withColumn column nodes) =
      settled editor column nodes wire (nodes.moveControl wire direction) := by
  unfold moveControl Column.moveControl
  rw [execute_bind_of_ok (execute_get editor column nodes wire)]
  dsimp only
  split
  · cases hcontrol : (nodes.get wire).controlA.filter (· < wires) with
    | none => rfl
    | some control =>
      have hlt : control < wires := by
        simpa using (Option.filter_eq_some_iff.mp hcontrol).2
      dsimp only
      rw [execute_bind_of_ok (execute_step editor column nodes wire ⟨control, hlt⟩ direction)]
      dsimp only
      cases Column.controlStep? wire control direction with
      | none => rfl
      | some candidate =>
        dsimp only
        rw [execute_bind_of_ok (execute_placeControl editor column nodes wire candidate)]
        cases hplacement : nodes.placeControl wire candidate with
        | outOfBounds | blocked => rfl
        | placed placed =>
          -- the candidate is a wire of the grid, and so is the wire behind it
          obtain ⟨control, rfl, -, -⟩ := Column.placeControl_eq_placed hplacement
          dsimp only [Placement.landing, Placement.columnOr]
          rw [execute_bind_of_ok (execute_behind editor column placed wire control direction)]
          cases hbehind : Column.wireBehind? wire control direction with
          | none => rfl
          | some left =>
            have hleft := Column.wireBehind?_lt hbehind
            dsimp only
            rw [execute_bind_of_ok (execute_kindAt editor column placed ⟨left, hleft⟩)]
            dsimp only [Option.elim_some]
            unfold Column.markTrace
            rw [dif_pos hleft]
            split
            · rw [execute_bind_of_ok (execute_write editor column placed ⟨left, hleft⟩ _)]
              rfl
            · rfl
  · rfl

theorem execute_rotate (wire : Fin wires) (angle : α) :
    (rotate wire column angle).execute (editor.withColumn column nodes) =
      settled editor column nodes wire (nodes.rotate wire angle) := by
  unfold rotate Column.rotate
  rw [execute_bind_of_ok (execute_get editor column nodes wire)]
  cases (nodes.get wire).rotateBy? angle with
  | some turned =>
    dsimp only
    rw [execute_bind_of_ok (execute_write editor column nodes wire turned)]
    rfl
  | none => rfl

/-- The program of an edit ends as the edit of the column says. -/
theorem execute_edit (wire : Fin wires) (work : Edit α) :
    (CellProgram.edit ⟨wire, column⟩ work).execute (editor.withColumn column nodes) =
      settled editor column nodes wire (work.onColumn nodes wire) := by
  cases work with
  | placeGate gate => exact execute_placeGate editor column nodes wire gate
  | delete => exact execute_delete editor column nodes wire
  | toggleControl => exact execute_toggleControl editor column nodes wire
  | moveControl direction => exact execute_moveControl editor column nodes wire direction
  | rotate angle => exact execute_rotate editor column nodes wire angle

end Cells

end CellProgram

end CircuitGrid
