import CircuitGrid.Proofs.LinkEdits
import CircuitGrid.Proofs.Linearization

/-!
# Second controls

The second control of a node is for an X gate that has a first one. As long as this holds,
an X gate that is not turned compiles to an operation under all the controls it shows. Every
edit keeps it but one: toggling the control of a gate with two takes away the first and
leaves the second, whose marker stays while the gate compiles as if it had no control.
-/

namespace CircuitGrid

/-! ## Paired controls -/

/-- A second control is on an X gate only, next to a first one. -/
def Node.SecondPaired {α : Type} (node : Node α) : Prop :=
  node.controlB.isSome = true → node.gate? = some .pauliX ∧ node.controlA.isSome = true

instance {α : Type} (node : Node α) : Decidable node.SecondPaired :=
  inferInstanceAs (Decidable (_ → _))

/-- The controls under which an X gate compiles are all the controls of its node exactly if
the second is not alone. -/
theorem Node.MapsTo.controls_iff {α : Type} [Angle α] {node : Node α} {primitive : Primitive α}
    {controls : List Nat} {partner : Option Nat} (h : node.MapsTo primitive controls partner)
    (hcontent : node.content = .gate .pauliX) (hrotated : node.isRotated = false) :
    controls = node.controls ↔ node.SecondPaired := by
  have hgate := (Node.gate?_eq_some_iff node _).mpr hcontent
  unfold Node.SecondPaired Node.controls
  cases ha : node.controlA with
  | none =>
    obtain ⟨-, rfl, -⟩ := h.unique (.x hcontent hrotated ha)
    cases node.controlB <;> simp
  | some a =>
    cases hb : node.controlB with
    | none =>
      obtain ⟨-, rfl, -⟩ := h.unique (.cx hcontent hrotated ha hb)
      simp
    | some b =>
      obtain ⟨-, rfl, -⟩ := h.unique (.ccx hcontent hrotated ha hb)
      simp [hgate]

/-- Without a first control there is none in the operation. -/
theorem Node.MapsTo.controls_of_none {α : Type} [Angle α] {node : Node α} {primitive : Primitive α}
    {controls : List Nat} {partner : Option Nat} (h : node.MapsTo primitive controls partner)
    (hnone : node.controlA = none) : controls = [] := by
  cases h <;> simp_all

namespace Column

variable {α : Type} {n : Nat}

/-- The second controls of a column are paired. -/
def SecondPaired (column : Column α n) : Prop := ∀ wire, (column.get wire).SecondPaired

instance (column : Column α n) : Decidable column.SecondPaired :=
  inferInstanceAs (Decidable (∀ _ : Fin n, _))

namespace SecondPaired

variable {column nodes : Column α n} {wire : Fin n} {node : Node α}

/-! ## Writes -/

theorem put (h : column.SecondPaired) (hnode : node.SecondPaired) :
    (column.put wire node).SecondPaired := by
  intro place
  rw [get_put]
  split
  · exact hnode
  · exact h place

variable [Angle α]

theorem fresh : SecondPaired (Vector.replicate n (Node.empty : Node α)) := by
  intro wire
  rw [get_fresh]
  exact nofun

theorem clearTraces (h : column.SecondPaired) (a b : Nat) :
    (column.clearTraces a b).SecondPaired := by
  intro place
  rw [get_clearTraces]
  split
  · exact nofun
  · exact h place

theorem markTrace (h : column.SecondPaired) (left : Nat) :
    (column.markTrace left).SecondPaired := by
  intro place
  rw [get_markTrace]
  split
  · exact nofun
  · exact h place

/-- A new first control does no harm to the second. -/
theorem link (h : column.SecondPaired) (gate control : Fin n) :
    (column.link gate control).SecondPaired := by
  unfold Column.link
  refine (h.put ?_).put nofun
  intro hsecond
  exact ⟨(h gate hsecond).1, rfl⟩

theorem removeControls? (h : column.SecondPaired)
    (hremove : column.removeControls? wire = some nodes) : nodes.SecondPaired := by
  obtain ⟨-, cleared, hcleared, rfl⟩ := removeControls?_eq_some hremove
  refine put ?_ nofun
  rcases hcleared with rfl | ⟨control, -, rfl⟩
  · exact h
  · exact h.clearTraces wire control

/-! ## Edits -/

/-- An edit keeps the second controls paired, unless it toggles the control of a gate with
two. -/
theorem onColumn (h : column.SecondPaired) {work : Edit α}
    (hwork : work = .toggleControl → (column.get wire).controlB = none)
    (hchange : work.onColumn column wire = .changed nodes) : nodes.SecondPaired := by
  cases work with
  | placeGate gate =>
    obtain ⟨-, -, rfl⟩ := placeGate_eq_changed hchange
    exact h.put nofun
  | delete =>
    rcases delete_eq_changed hchange with ⟨gate, -, rfl⟩ | ⟨owner, -, -, hremove⟩
    · refine put ?_ nofun
      cases hremove : column.removeControls? wire with
      | none => exact h
      | some removed => exact h.removeControls? hremove
    · exact h.removeControls? hremove
  | toggleControl =>
    obtain ⟨-, hcases⟩ := toggleControl_eq_changed hchange
    rcases hcases with ⟨control, -, rfl⟩ | ⟨candidate, -, -, -, hplaced⟩
    · -- the first control goes, and there is no second
      refine (h.clearTraces wire control).put fun hsecond => ?_
      have hsecond : (column.get wire).controlB.isSome = true := hsecond
      rw [hwork rfl] at hsecond
      cases hsecond
    · obtain ⟨control, -, -, rfl⟩ := placeControl_eq_placed hplaced
      exact h.link wire control
  | moveControl direction =>
    obtain ⟨-, -, candidate, placed, -, -, -, hplaced, rfl⟩ := moveControl_eq_changed hchange
    obtain ⟨control, -, -, rfl⟩ := placeControl_eq_placed hplaced
    cases wireBehind? wire candidate direction with
    | none => exact h.link wire control
    | some left => exact (h.link wire control).markTrace left
  | rotate angle =>
    obtain ⟨-, rotation, rfl⟩ := rotate_eq_changed hchange
    exact h.put (h wire)

/-- Toggling the control of a gate with two takes away the first, and only that. -/
theorem exists_toggleControl_eq (h : column.SecondPaired)
    (hsecond : (column.get wire).controlB.isSome = true) :
    ∃ nodes, column.toggleControl wire = .changed nodes ∧
      nodes.get wire = { column.get wire with controlA := none } := by
  obtain ⟨hgate, hfirst⟩ := h wire hsecond
  obtain ⟨control, hcontrol⟩ := Option.isSome_iff_exists.mp hfirst
  refine ⟨(column.put wire { column.get wire with controlA := none }).clearTraces wire control,
    ?_, ?_⟩
  · unfold toggleControl Node.isControllable
    dsimp only
    rw [hgate, hcontrol]
    rfl
  · rw [get_clearTraces_left, get_put_self]

end SecondPaired

end Column

/-! ## Sessions -/

namespace Editor

variable {α : Type} [Angle α] {wires columns : Nat}

/-- The action toggles the control of a gate that has a second one. -/
def TogglesDouble (editor : Editor α wires columns) (action : Action α) : Prop :=
  action = .edit .toggleControl ∧ ∃ (wire : Fin wires) (column : Fin columns),
    editor.cursor = ⟨wire, column⟩ ∧
      ((editor.grid.columnAt column).get wire).controlB.isSome = true

variable {editor : Editor α wires columns}

/-- An action keeps the second controls paired exactly if it does not toggle a double
control. -/
theorem secondPaired_perform_iff (hpaired : editor.grid.Each Column.SecondPaired)
    (action : Action α) :
    (editor.perform action).2.grid.Each Column.SecondPaired ↔ ¬ editor.TogglesDouble action := by
  constructor
  · rintro hkept ⟨rfl, wire, column, hcursor, hsecond⟩
    obtain ⟨nodes, hchange, hnode⟩ := (hpaired column).exists_toggleControl_eq hsecond
    have hchange : Edit.toggleControl.onColumn (editor.grid.columnAt column) wire =
        .changed nodes := hchange
    have halone := hkept column wire
    rw [perform_edit hcursor, Grid.columnAt_setColumn_self, Column.after, hchange] at halone
    dsimp only at halone
    rw [hnode] at halone
    -- the second control is still there, the first is not
    cases (halone hsecond).2
  · intro haction column
    rcases columnAt_perform_cases editor action column with
      hsame | ⟨work, wire, rfl, hcursor, hchange⟩ | hfresh
    · rw [hsame]
      exact hpaired column
    · refine (hpaired column).onColumn ?_ hchange
      rintro rfl
      rw [← Option.not_isSome_iff_eq_none]
      exact fun hsecond => haction ⟨rfl, wire, column, hcursor, hsecond⟩
    · rw [hfresh]
      exact .fresh

/-- With paired second controls, the operation of an X gate that is not turned is under the
controls that the gate shows. -/
theorem compile_of_secondPaired {grid : Grid α wires columns}
    (hexclusive : grid.Each Column.LinkExclusive) (hpaired : grid.Each Column.SecondPaired) :
    ∃ ops, grid.compile = .ok ops ∧ List.Forall₂ (fun cell op =>
      op.target.index = cell.wire ∧ (cell.gate = .pauliX → cell.node.isRotated = false →
        op.controls.map Wire.index = cell.node.controls)) grid.gateCells ops := by
  obtain ⟨opsOf, -, hcompile⟩ := grid.compile_eq_ok hexclusive
  refine ⟨_, hcompile, ?_⟩
  have hemits := (Grid.compile_eq_ok_iff.mp hcompile).2
  have hcells : ∀ cell ∈ grid.gateCells, (grid.columnAt cell.column).get cell.wire = cell.node ∧
      cell.node.content = .gate cell.gate := by
    intro cell hmem
    obtain ⟨hnode, hcontent⟩ := Grid.mem_gateCells.mp hmem
    rw [Grid.get_fin] at hnode
    exact ⟨Except.ok.inj hnode, hcontent⟩
  refine ((List.forall₂_and_left _ _).mpr ⟨hcells, hemits⟩).imp ?_
  rintro cell op ⟨⟨hnode, hcontent⟩, hemits⟩
  refine ⟨hemits.target, fun hgate hrotated => ?_⟩
  rw [hgate] at hcontent
  exact (hemits.maps.controls_iff hcontent hrotated).mpr (hnode ▸ hpaired cell.column cell.wire)

/-- From a link-exclusive grid whose second controls are paired, an action leaves one of
them alone exactly if it toggles a double control. A run without such an action keeps them
paired, and the grid compiles with all the controls of its X gates. -/
theorem secondPaired_session (hexclusive : editor.grid.Each Column.LinkExclusive)
    (hpaired : editor.grid.Each Column.SecondPaired) :
    (∀ action, (editor.perform action).2.grid.Each Column.SecondPaired ↔
      ¬ editor.TogglesDouble action) ∧
    ∀ actions, editor.Throughout (fun editor action => ¬ editor.TogglesDouble action) actions →
      let final := (editor.run actions).grid
      final.Each Column.SecondPaired ∧
        ∃ ops, final.compile = .ok ops ∧ List.Forall₂ (fun cell op =>
          op.target.index = cell.wire ∧ (cell.gate = .pauliX → cell.node.isRotated = false →
            op.controls.map Wire.index = cell.node.controls)) final.gateCells ops := by
  refine ⟨secondPaired_perform_iff hpaired, fun actions hactions => ?_⟩
  have hkept : (editor.run actions).grid.Each Column.SecondPaired :=
    run_keeps (Q := fun editor => editor.grid.Each Column.SecondPaired)
      (fun _ action hpaired => (secondPaired_perform_iff hpaired action).mpr) hpaired hactions
  have hlinks : (editor.run actions).grid.Each Column.LinkExclusive :=
    run_each .fresh (fun _ _ _ _ h hchange => h.onColumn hchange) hexclusive actions
  exact ⟨hkept, compile_of_secondPaired hlinks hkept⟩

/-- A session that moves and drops the controls of the Toffoli gate, but does not toggle
them. -/
theorem secondPaired_session_toffoliAndSwap :
    Grid.toffoliAndSwap.Each Column.LinkExclusive ∧ Grid.toffoliAndSwap.Each Column.SecondPaired ∧
      ((start Grid.toffoliAndSwap).run [.navigate .down, .navigate .down,
        .edit (.moveControl .down), .edit (.rotate 0), .navigate .down,
        .edit .delete]).grid.Each Column.SecondPaired := by
  have hexclusive : Grid.toffoliAndSwap.Each Column.LinkExclusive := by decide
  have hpaired : Grid.toffoliAndSwap.Each Column.SecondPaired := by decide
  let editor := start Grid.toffoliAndSwap
  have hsession := secondPaired_session (show editor.grid.Each _ from hexclusive) hpaired
  refine ⟨hexclusive, hpaired, (hsession.2 [.navigate .down, .navigate .down,
    .edit (.moveControl .down), .edit (.rotate 0), .navigate .down, .edit .delete]
    ⟨?_, ?_, ?_, ?_, ?_, ?_, trivial⟩).1⟩
  all_goals exact fun h => (by cases h.1)

end Editor

/-- A doubly controlled X gate and nothing else. -/
def Grid.toffoli : Grid Float 3 1 :=
  .ofColumn #v[.empty, .empty, (Node.ofGate .pauliX).withControls 0 1] (by decide)

/-- Toggling the controls leaves one of them on its wire, while the gate compiles as if it
had none. -/
theorem Editor.toggle_leaves_second_toffoli :
    Grid.toffoli.Each Column.LinkExclusive ∧ Grid.toffoli.Each Column.SecondPaired ∧
      let final := ((Editor.mk Grid.toffoli ⟨2, 0⟩).perform (.edit .toggleControl)).2.grid
      ¬ final.Each Column.SecondPaired ∧ final.kindAt 1 0 = .ok .control ∧
        ∃ op, final.compile = .ok [op] ∧ op.target.index = 2 ∧ op.controls = [] := by
  have hexclusive : Grid.toffoli.Each Column.LinkExclusive := by decide
  have hpaired : Grid.toffoli.Each Column.SecondPaired := by decide
  refine ⟨hexclusive, hpaired, ?_⟩
  intro final
  have halone : ¬ final.Each Column.SecondPaired := by decide
  refine ⟨halone, rfl, ?_⟩
  have hlinks : final.Each Column.LinkExclusive :=
    Editor.perform_each .fresh (fun _ _ _ _ h hchange => h.onColumn hchange) hexclusive _
  obtain ⟨opsOf, -, hcompile⟩ := final.compile_eq_ok hlinks
  obtain ⟨-, hemits⟩ := Grid.compile_eq_ok_iff.mp hcompile
  -- the X gate is the only gate, and it has lost its first control
  have hcells : final.gateCells =
      [⟨2, 0, .pauliX, { (Node.ofGate .pauliX).withControls 0 1 with controlA := none }⟩] := rfl
  rw [hcells, List.forall₂_cons_left_iff] at hemits
  obtain ⟨op, rest, hemits, hrest, hops⟩ := hemits
  rw [List.forall₂_nil_left_iff.mp hrest] at hops
  have hcontrols := hemits.maps.controls_of_none rfl
  exact ⟨op, hcompile.trans (congrArg Except.ok hops), hemits.target,
    List.map_eq_nil_iff.mp hcontrols⟩

end CircuitGrid
