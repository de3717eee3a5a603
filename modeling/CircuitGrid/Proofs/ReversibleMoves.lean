import CircuitGrid.Proofs.Footprint

/-!
# Moves of a control are reversible

A control that has moved one step can move back, and the column is then what it was: a trace
left behind is consumed on the way back, one that was consumed is left behind again, and a
control that stepped over its gate steps over it once more. The three cases need not be told
apart. The wire that the control has left is met by no other link of a trace-exact column, so
that it takes the control back; and such a column is determined by its gates and links.
-/

namespace CircuitGrid

/-- The direction of the way back. -/
def Direction.opposite : Direction → Direction
  | .left => .right
  | .right => .left
  | .up => .down
  | .down => .up

namespace Column

/-! ## Steps up and down -/

/-- One step up ends on the next wire, or across the gate if the gate is there. -/
theorem controlStep?_up_iff (gate control candidate : Nat) :
    controlStep? gate control .up = some candidate ↔
      (candidate + 1 = control ∧ candidate ≠ gate) ∨
        (candidate + 1 = gate ∧ gate + 1 = control) := by
  simp only [controlStep?]
  split
  · simp only [reduceCtorEq, false_iff]
    omega
  · split
    · split
      · simp only [reduceCtorEq, false_iff]
        omega
      · rw [Option.some.injEq]
        omega
    · rw [Option.some.injEq]
      omega

/-- One step down ends on the next wire, or across the gate if the gate is there. -/
theorem controlStep?_down_iff (gate control candidate : Nat) :
    controlStep? gate control .down = some candidate ↔
      (control + 1 = candidate ∧ candidate ≠ gate) ∨
        (control + 1 = gate ∧ gate + 1 = candidate) := by
  simp only [controlStep?, Option.some.injEq]
  split <;> omega

/-- A control that is not on its gate steps back to where it came from. -/
theorem controlStep?_opposite {gate control candidate : Nat} {direction : Direction}
    (hne : control ≠ gate) (h : controlStep? gate control direction = some candidate) :
    controlStep? gate candidate direction.opposite = some control := by
  cases direction with
  | left | right => cases h
  | up =>
    rw [controlStep?_up_iff] at h
    rw [Direction.opposite, controlStep?_down_iff]
    exact h.imp (fun hnext => ⟨hnext.1, hne⟩) id
  | down =>
    rw [controlStep?_down_iff] at h
    rw [Direction.opposite, controlStep?_up_iff]
    exact h.imp (fun hnext => ⟨hnext.1, hne⟩) id

/-- The wire of the column on which a control lands that moves one step. -/
def landing? {n : Nat} (gate control : Fin n) (direction : Direction) : Option (Fin n) :=
  (controlStep? gate control direction).bind fun candidate =>
    if h : candidate < n then some ⟨candidate, h⟩ else none

theorem landing?_eq_some_iff {n : Nat} (gate control candidate : Fin n) (direction : Direction) :
    landing? gate control direction = some candidate ↔
      controlStep? gate control direction = some candidate.val := by
  unfold landing?
  cases controlStep? gate control direction with
  | none => simp
  | some next =>
    simp only [Option.bind_some]
    split
    · simp only [Option.some.injEq, Fin.ext_iff]
    · next hge =>
      have hlt := candidate.isLt
      simp only [reduceCtorEq, Option.some.injEq, false_iff]
      omega

/-! ## Moves of a control -/

variable {α : Type} [Angle α] {n : Nat} {column nodes : Column α n} {wire : Fin n}

/-- The column with the first control of a gate moved to `candidate`, where it may leave a trace
behind. -/
def moved (column : Column α n) (gate candidate : Fin n) (direction : Direction) : Column α n :=
  (wireBehind? gate candidate direction).elim (column.link gate candidate)
    (column.link gate candidate).markTrace

/-- What becomes of a move depends on the wire where the control lands. A step past the last
wire, which the placement refuses, is a step to nowhere like the one up from the first. -/
theorem moveControl_eq {control : Fin n} (direction : Direction)
    (hcontrollable : (column.get wire).isControllable = true)
    (hcontrol : (column.get wire).controlA = some control.val) :
    column.moveControl wire direction =
      (landing? wire control direction).elim .unchanged fun candidate =>
        if (column.kindAt candidate).acceptsControl then
          .changed (column.moved wire candidate direction)
        else .blocked candidate (column.kindAt candidate) := by
  have hfilter : (column.get wire).controlA.filter (· < n) = some control.val := by
    rw [hcontrol]
    simp
  unfold moveControl landing?
  simp only [hcontrollable, if_true, hfilter]
  cases controlStep? wire control direction with
  | none => rfl
  | some candidate =>
    by_cases hlt : candidate < n
    · simp only [Option.bind_some, dif_pos hlt, placeControl, Option.elim_some]
      by_cases haccepts : (column.kindAt ⟨candidate, hlt⟩).acceptsControl = true
      · simp only [haccepts, if_true]
        rfl
      · simp only [haccepts]
        rfl
    · simp only [Option.bind_some, dif_neg hlt, placeControl, Option.elim_none]

/-- In a trace-exact column a cell takes a control if it is neither a gate nor a control. -/
theorem TraceExact.acceptsControl (h : column.TraceExact)
    (hnone : (column.get wire).gate? = none)
    (hlinks : ∀ other : Fin n, (column.get other).controlA ≠ some wire.val) :
    (column.kindAt wire).acceptsControl = true := by
  rcases (Node.gate?_eq_none_iff _).mp hnone with hcontent | hcontent
  · have hkind : column.kindAt wire = .empty := by
      refine (kindAt_eq_empty_iff column wire).mpr ⟨hcontent, fun other _ slot => ?_⟩
      cases slot with
      | controlA => exact hlinks other
      | controlB => simp [Node.link?, h.single_link other]
      | partner => simp [Node.link?, h.single_link other]
    rw [hkind]
    rfl
  · rw [(kindAt_eq_trace_iff column wire).mpr hcontent]
    rfl

/-- The wire that a control has left takes it back. -/
theorem TraceExact.acceptsControl_left (h : column.TraceExact) {old control : Fin n}
    (hold : (column.get wire).controlA = some old.val) (hne : control ≠ old)
    (hfits : column.Fits wire ((column.get wire).withControl control)) :
    ((column.reroute wire ((column.get wire).withControl control)).kindAt old).acceptsControl =
      true := by
  have hwire : old ≠ wire := fun he => (h.control_valid wire old hold).2.2 (congrArg Fin.val he)
  apply (h.reroute hfits).acceptsControl
  · rw [(h.reroute_of_ne hfits hwire).1]
    exact (Node.gate?_eq_none_iff _).mpr (Or.inl (h.control_free wire old hold))
  · intro other hlink
    by_cases hother : other = wire
    · rw [hother, get_reroute_self] at hlink
      exact hne (Fin.ext (Option.some.inj hlink))
    · -- two gates would share the control
      rw [(h.reroute_of_ne hfits hother).2] at hlink
      exact hother (h.spans_disjoint other wire old (Node.spans_control hlink other)
        (Node.spans_control hold wire))

/-- A move is undone by the move in the opposite direction. -/
theorem TraceExact.moveControl_opposite (h : column.TraceExact) {direction : Direction}
    (hchange : column.moveControl wire direction = .changed nodes) :
    nodes.moveControl wire direction.opposite = .changed column := by
  obtain ⟨hcontrollable, -⟩ := moveControl_eq_changed hchange
  obtain ⟨old, control, hold, hstep, hfits, rfl⟩ := h.exists_moveControl_eq_reroute hchange
  have hnode := get_reroute_self column wire ((column.get wire).withControl control)
  have hback := controlStep?_opposite (h.control_valid wire old hold).2.2 hstep
  have hne : control ≠ old := fun he => controlStep?_ne hstep (congrArg Fin.val he)
  have hmove := moveControl_eq direction.opposite (by rw [hnode]; exact hcontrollable)
    (by rw [hnode]; rfl)
  rw [(landing?_eq_some_iff _ _ _ _).mpr hback, Option.elim_some,
    if_pos (h.acceptsControl_left hold hne hfits)] at hmove
  -- the control has gone back to the wire it came from
  have hexact := h.reroute hfits
  obtain ⟨from', control', hfrom, hstep', hfits', hnodes⟩ :=
    hexact.exists_moveControl_eq_reroute hmove
  rw [hmove, hnodes]
  rw [hnode] at hfrom
  obtain rfl : control = from' := Fin.ext (Option.some.inj hfrom)
  obtain rfl : old = control' := Fin.ext (Option.some.inj (hback.symm.trans hstep'))
  have hrestored : ((column.reroute wire ((column.get wire).withControl control)).get
      wire).withControl old = column.get wire := by
    rw [hnode, Node.withControl, ← hold]
    rfl
  rw [hrestored] at hfits' ⊢
  have heq := h.eq_put (hexact.reroute hfits')
    ((h.keepsGates_reroute hfits).trans (hexact.keepsGates_reroute hfits'))
    (by rw [get_reroute_self])
  rw [heq, get_reroute_self]
  exact congrArg ColumnEdit.changed (Vector.set_getElem_self wire.isLt)

end Column

namespace Editor

variable {α : Type} [Angle α] {wires columns : Nat}

/-- In a session that starts without gates, a control that has moved one step up moves back
with a step down, and the other way round, and the editor is then the one from before both. -/
theorem moveControl_undone {grid : Grid α wires columns}
    (hgrid : Grid.empty? wires columns = .ok grid) (history : List (Action α))
    {editor : Editor α wires columns} (heditor : editor = (start grid).run history)
    {direction : Direction}
    (hmoved : (editor.perform (.edit (.moveControl direction))).1 = .ok .changed) :
    (editor.perform (.edit (.moveControl direction))).2.perform
      (.edit (.moveControl direction.opposite)) = (.ok .changed, editor) := by
  obtain ⟨wire, column, nodes, hcursor, hchange, -⟩ := exists_of_perform_edit_changed hmoved
  have hexact : (editor.grid.columnAt column).TraceExact := by
    rw [heditor]
    exact traceExact_run_start hgrid history column
  have hback : Edit.onColumn (.moveControl direction.opposite)
      ((editor.grid.setColumn column nodes).columnAt column) wire =
        .changed (editor.grid.columnAt column) := by
    rw [Grid.columnAt_setColumn_self]
    exact hexact.moveControl_opposite hchange
  rw [perform_edit_of_changed hcursor hchange, perform_edit_of_changed hcursor hback,
    Grid.setColumn_setColumn, Grid.setColumn_columnAt]

/-- A control walks up to the first wire, leaving a trace, and back over the trace. -/
theorem moveControl_undone_over_trace :
    ∃ (grid : Grid Float 3 1) (editor moved : Editor Float 3 1),
      Grid.empty? 3 1 = .ok grid ∧
      editor = (start grid).run [.navigate .down, .navigate .down, .edit (.placeGate .pauliX),
        .edit .toggleControl] ∧
      editor.perform (.edit (.moveControl .up)) = (.ok .changed, moved) ∧
      moved.grid.kindAt 1 0 = .ok .trace ∧
      moved.perform (.edit (.moveControl .down)) = (.ok .changed, editor) := by
  have hgrid : Grid.empty? 3 1 =
    .ok (Grid.ofColumn #v[.empty, .empty, .empty] (by decide) : Grid Float 3 1) := rfl
  have heditor : (⟨.ofColumn #v[.empty, .empty, (Node.ofGate .pauliX).withControl 1]
      (by decide), ⟨2, 0⟩⟩ : Editor Float 3 1) =
        (start (.ofColumn #v[.empty, .empty, .empty] (by decide))).run [.navigate .down,
          .navigate .down, .edit (.placeGate .pauliX), .edit .toggleControl] := by rfl
  have hmoved : Editor.perform (⟨.ofColumn #v[.empty, .empty,
      (Node.ofGate .pauliX).withControl 1] (by decide), ⟨2, 0⟩⟩ : Editor Float 3 1)
        (.edit (.moveControl .up)) = (.ok .changed, ⟨.ofColumn #v[.empty, .trace,
          (Node.ofGate .pauliX).withControl 0] (by decide), ⟨2, 0⟩⟩) := by rfl
  have hback := moveControl_undone hgrid _ heditor (congrArg Prod.fst hmoved)
  rw [hmoved] at hback
  exact ⟨_, _, _, hgrid, heditor, hmoved, rfl, hback⟩

end Editor

end CircuitGrid
