import CircuitGrid.Angle.Radians
import CircuitGrid.Proofs.TraceExact

/-!
# The footprint of a control

Adding, moving and removing the control of a gate, and turning the gate, leave
traces only for as long as the control is there. Whatever these edits do to one
gate, they keep the other gates, so that a trace-exact column is back where it
was as soon as the gate is without a control again.
-/

namespace CircuitGrid

/-- The edits that work on the control or the angle of the gate under the cursor. -/
def Edit.adjustsGate {α : Type} : Edit α → Bool
  | .toggleControl | .moveControl _ | .rotate _ => true
  | .placeGate _ | .delete => false

namespace Column

variable {α : Type} [Angle α] {n : Nat}

/-- The column differs in the control and the angle of one gate, and in traces. -/
structure Adjusted (column : Column α n) (wire : Fin n) (other : Column α n) : Prop where
  trace_exact : other.TraceExact
  keeps_gates : column.KeepsGates wire other
  node : ∃ rotation control,
    other.get wire = { column.get wire with rotation, controlA := control }

variable {column other : Column α n} {wire : Fin n}

theorem TraceExact.adjusted (h : column.TraceExact) : column.Adjusted wire column :=
  ⟨h, .refl column wire, _, _, rfl⟩

theorem TraceExact.adjusted_reroute (h : column.TraceExact) {rotation : α} {control : Option Nat}
    (hfits : column.Fits wire { column.get wire with rotation, controlA := control }) :
    column.Adjusted wire
      (column.reroute wire { column.get wire with rotation, controlA := control }) :=
  ⟨h.reroute hfits, h.keepsGates_reroute hfits, rotation, control, get_reroute_self _ _ _⟩

theorem Adjusted.trans {third : Column α n} (hfirst : column.Adjusted wire other)
    (hsecond : other.Adjusted wire third) : column.Adjusted wire third := by
  refine ⟨hsecond.trace_exact, hfirst.keeps_gates.trans hsecond.keeps_gates, ?_⟩
  obtain ⟨rotation, control, hnode⟩ := hsecond.node
  obtain ⟨_, _, hother⟩ := hfirst.node
  refine ⟨rotation, control, ?_⟩
  rw [hnode, hother]

theorem TraceExact.adjusted_after (h : column.TraceExact) {edit : Edit α}
    (hedit : edit.adjustsGate = true) : column.Adjusted wire (column.after wire edit) := by
  refine after_of_changed h.adjusted ?_
  intro nodes hchange
  cases edit with
  | placeGate gate => cases hedit
  | delete => cases hedit
  | toggleControl =>
    obtain ⟨control, hfits, rfl⟩ := h.toggleControl_eq_reroute hchange
    exact h.adjusted_reroute hfits
  | moveControl direction =>
    obtain ⟨control, hfits, rfl⟩ := h.moveControl_eq_reroute hchange
    exact h.adjusted_reroute hfits
  | rotate angle =>
    obtain ⟨rotation, hfits, rfl⟩ := h.rotate_eq_reroute hchange
    exact h.adjusted_reroute hfits

/-- Any number of edits of the gate adjust it. -/
theorem TraceExact.adjusted_afterAll (h : column.TraceExact) {edits : List (Edit α)}
    (hedits : ∀ edit ∈ edits, edit.adjustsGate = true) :
    column.Adjusted wire (column.afterAll wire edits) := by
  induction edits generalizing column with
  | nil => exact h.adjusted
  | cons edit edits ih =>
    have hfirst : column.Adjusted wire (column.after wire edit) :=
      h.adjusted_after (hedits edit List.mem_cons_self)
    exact hfirst.trans
      (ih hfirst.trace_exact (fun next hnext => hedits next (List.mem_cons_of_mem _ hnext)))

/-- Once the gate is without a control again, only its angle may differ. -/
theorem Adjusted.eq_put (hadjusted : column.Adjusted wire other) (h : column.TraceExact)
    (hbefore : (column.get wire).controlA = none) (hafter : (other.get wire).controlA = none) :
    other = column.put wire { column.get wire with rotation := (other.get wire).rotation } := by
  obtain ⟨rotation, control, hnode⟩ := hadjusted.node
  have hsame : other.get wire =
      { column.get wire with rotation := (other.get wire).rotation } := by
    rw [hnode] at hafter ⊢
    have hcontrol : control = none := hafter
    rw [hcontrol, ← hbefore]
  have heq := h.eq_put hadjusted.trace_exact hadjusted.keeps_gates (hafter.trans hbefore.symm)
  rwa [hsame] at heq

/-- Deleting an adjusted gate leaves what deleting the gate before would have left. -/
theorem Adjusted.delete (hadjusted : column.Adjusted wire other) (h : column.TraceExact)
    (hgate : (column.get wire).gate?.isSome = true)
    (hbefore : (column.get wire).controlA = none) :
    other.delete wire = .changed (column.put wire Node.empty) := by
  obtain ⟨g, hg⟩ := Option.isSome_iff_exists.mp hgate
  have hcontent : (other.get wire).content = .gate g := by
    obtain ⟨_, _, hnode⟩ := hadjusted.node
    rw [hnode]
    exact (Node.gate?_eq_some_iff _ g).mp hg
  have hfits := hadjusted.trace_exact.fits_empty
    (by rw [(Node.gate?_eq_some_iff _ g).mpr hcontent]; rfl)
  rw [hadjusted.trace_exact.delete_of_gate_eq_reroute ((kindAt_eq_gate_iff _ _ g).mpr hcontent)]
  congr 1
  have heq := h.eq_put (hadjusted.trace_exact.reroute hfits)
    (hadjusted.keeps_gates.trans (hadjusted.trace_exact.keepsGates_reroute hfits))
    (by rw [get_reroute_self, hbefore]; rfl)
  rwa [get_reroute_self] at heq

end Column

namespace Editor

variable {α : Type} [Angle α] {wires columns : Nat}

/-- In a session, take a gate without a control and edit its control and angle in
any way. As soon as it is without a control again, the grid is the one from
before but for the angle; and a deletion at any time leaves the grid from before
with the cell of the gate emptied. -/
theorem footprint_reclaimed {grid : Grid α wires columns}
    (hgrid : Grid.empty? wires columns = .ok grid) (history : List (Action α))
    {before after : Editor α wires columns} (hbefore : before = (start grid).run history)
    {node : Node α} (hnode : before.grid.get before.cursor.wire before.cursor.column = .ok node)
    (hgate : node.gate?.isSome = true) (hfree : node.hasControls = false)
    {edits : List (Edit α)} (hedits : ∀ edit ∈ edits, edit.adjustsGate = true)
    (hafter : after = before.run (edits.map .edit)) :
    (∃ now, after.grid.get before.cursor.wire before.cursor.column = .ok now ∧
      (now.hasControls = false →
        before.grid.set before.cursor.wire before.cursor.column
          { node with rotation := now.rotation } = .ok after.grid)) ∧
    ∃ cleared, before.grid.set before.cursor.wire before.cursor.column Node.empty = .ok cleared ∧
      after.perform (.edit .delete) = (.ok .changed, ⟨cleared, before.cursor⟩) := by
  obtain ⟨wire, column, hwire, hcolumn⟩ := Grid.exists_fin_of_get hnode
  have hcursor : before.cursor = ⟨wire, column⟩ := by
    rw [← hwire, ← hcolumn]
  rw [hwire, hcolumn] at hnode ⊢
  rw [Grid.get_fin] at hnode
  cases hnode
  have hexact : (before.grid.columnAt column).TraceExact := by
    rw [hbefore]
    exact traceExact_run_start hgrid history column
  have hadjusted : (before.grid.columnAt column).Adjusted wire _ :=
    hexact.adjusted_afterAll hedits
  have hlink := ((Node.hasControls_eq_false_iff _).mp hfree).1
  rw [run_edits hcursor] at hafter
  subst hafter
  constructor
  · refine ⟨_, Grid.get_fin _ wire column, ?_⟩
    rw [Grid.columnAt_setColumn_self, Grid.set_fin]
    intro hnow
    have hlink' := ((Node.hasControls_eq_false_iff _).mp hnow).1
    rw [← hadjusted.eq_put hexact hlink hlink']
  · refine ⟨_, Grid.set_fin _ wire column _, ?_⟩
    have hdelete : Edit.onColumn .delete ((before.grid.setColumn column
        ((before.grid.columnAt column).afterAll wire edits)).columnAt column) wire =
          .changed ((before.grid.columnAt column).put wire Node.empty) := by
      rw [Grid.columnAt_setColumn_self]
      exact hadjusted.delete hexact hgate hlink
    rw [perform_edit_of_changed hcursor hdelete, Grid.setColumn_setColumn]

/-- The control of an X gate walks up to the first wire, laying traces, and is removed. -/
theorem footprint_reclaimed_after_walk :
    ∃ (grid : Grid Float 4 1) (before after : Editor Float 4 1) (node now : Node Float),
      Grid.empty? 4 1 = .ok grid ∧
      before = (start grid).run [.navigate .down, .navigate .down, .navigate .down,
        .edit (.placeGate .pauliX)] ∧
      before.grid.get before.cursor.wire before.cursor.column = .ok node ∧
      node.gate?.isSome = true ∧ node.hasControls = false ∧
      after = before.run (([.toggleControl, .moveControl .up, .rotate 0.5, .moveControl .up,
        .toggleControl] : List (Edit Float)).map .edit) ∧
      after.grid.get before.cursor.wire before.cursor.column = .ok now ∧
      now.hasControls = false ∧
      before.grid.set before.cursor.wire before.cursor.column
        { node with rotation := now.rotation } = .ok after.grid := by
  have hgrid : Grid.empty? 4 1 =
    .ok (Grid.ofColumn #v[.empty, .empty, .empty, .empty] (by decide) : Grid Float 4 1) := rfl
  have hbefore : (⟨.ofColumn #v[.empty, .empty, .empty, .ofGate .pauliX] (by decide), ⟨3, 0⟩⟩ :
      Editor Float 4 1) =
        (start (.ofColumn #v[.empty, .empty, .empty, .empty] (by decide))).run [.navigate .down,
          .navigate .down, .navigate .down, .edit (.placeGate .pauliX)] := by rfl
  have hedits : ∀ edit ∈ ([.toggleControl, .moveControl .up, .rotate 0.5, .moveControl .up,
      .toggleControl] : List (Edit Float)), edit.adjustsGate = true := by
    simp [Edit.adjustsGate]
  have hafter : (⟨.ofColumn #v[.empty, .empty, .empty,
      (Node.ofGate .pauliX).withRotation (Angle.add Angle.zero 0.5)] (by decide), ⟨3, 0⟩⟩ :
        Editor Float 4 1) =
      Editor.run ⟨.ofColumn #v[.empty, .empty, .empty, .ofGate .pauliX] (by decide), ⟨3, 0⟩⟩
        (([.toggleControl, .moveControl .up, .rotate 0.5, .moveControl .up,
          .toggleControl] : List (Edit Float)).map .edit) := by rfl
  obtain ⟨⟨now, hnow, hback⟩, _⟩ :=
    footprint_reclaimed hgrid _ hbefore rfl rfl rfl hedits hafter
  have hfree : now.hasControls = false := by
    cases hnow
    rfl
  exact ⟨_, _, _, _, now, hgrid, hbefore, rfl, rfl, rfl, hafter, hnow, hfree, hback hfree⟩

end Editor

end CircuitGrid
