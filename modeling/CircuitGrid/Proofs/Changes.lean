import CircuitGrid.Edit.Editor
import CircuitGrid.Proofs.Cells

/-!
# What an edit changes

For each edit of a column, the conditions under which it changes the column and
the column it leaves, and where it may be blocked. No assumption is made on the
column. The invariants are proved from these lemmas, so that the branches of an
edit are split here and nowhere else.
-/

namespace CircuitGrid.Column

variable {α : Type} [Angle α] {n : Nat}

/-! ## Placing and removing controls -/

/-- The column with the first control of a gate put on `control`, whose cell is emptied. -/
def link (column : Column α n) (gate control : Fin n) : Column α n :=
  (column.put gate ((column.get gate).withControl control)).put control Node.empty

theorem get_link (column : Column α n) (gate control wire : Fin n) :
    (column.link gate control).get wire =
      if wire = control then Node.empty
      else if wire = gate then (column.get gate).withControl control
      else column.get wire := by
  unfold link
  rw [get_put, get_put]

/-- A control is placed on a wire of the column that is free or holds a trace. -/
theorem placeControl_eq_placed {column nodes : Column α n} {gate : Fin n} {candidate : Nat}
    (h : column.placeControl gate candidate = .placed nodes) :
    ∃ control : Fin n, control.val = candidate ∧
      (column.kindAt control).acceptsControl = true ∧ nodes = column.link gate control := by
  unfold placeControl at h
  split at h
  · next hlt =>
    dsimp only at h
    split at h
    · next haccepts =>
      cases h
      exact ⟨⟨candidate, hlt⟩, rfl, haccepts, rfl⟩
    · cases h
  · cases h

theorem get_clearTraces_left (column : Column α n) (gate : Fin n) (control : Nat) :
    (column.clearTraces gate control).get gate = column.get gate := by
  rw [get_clearTraces, if_neg]
  omega

theorem clearTraces_put (column : Column α n) (gate : Fin n) (control : Nat) (node : Node α) :
    (column.put gate node).clearTraces gate control =
      (column.clearTraces gate control).put gate node := by
  apply ext_get
  intro wire
  rw [get_clearTraces, get_put, get_put, get_clearTraces]
  by_cases hwire : wire = gate
  · subst hwire
    rw [if_pos rfl, if_pos rfl, if_neg]
    omega
  · rw [if_neg hwire, if_neg hwire]

/-- Removing the controls of a gate clears some traces and then its control slots. -/
theorem removeControls?_eq_some {column nodes : Column α n} {gate : Fin n}
    (h : column.removeControls? gate = some nodes) :
    (column.get gate).hasControls = true ∧
      ∃ cleared, (cleared = column ∨ ∃ control, (furthestControl? gate (column.get gate)) =
          some control ∧ cleared = column.clearTraces gate control) ∧
        nodes = cleared.put gate (column.get gate).withoutControls := by
  unfold removeControls? at h
  dsimp only at h
  split at h
  · next hcontrols =>
    refine ⟨hcontrols, _, ?_, (Option.some.inj h).symm⟩
    split
    · next control hfurthest => exact Or.inr ⟨control, hfurthest, rfl⟩
    · exact Or.inl rfl
  · cases h

theorem get_removeControls?_self {column nodes : Column α n} {gate : Fin n}
    (h : column.removeControls? gate = some nodes) :
    nodes.get gate = (column.get gate).withoutControls := by
  obtain ⟨-, cleared, -, rfl⟩ := removeControls?_eq_some h
  rw [get_put_self]

/-! ## The edits -/

theorem placeGate_eq_changed {column nodes : Column α n} {wire : Fin n} {gate : Gate}
    (h : column.placeGate wire gate = .changed nodes) :
    column.kindAt wire = .empty ∧ gate.isSingleWire = true ∧
      nodes = column.put wire (Node.ofGate gate) := by
  unfold placeGate at h
  dsimp only at h
  split at h
  · next hfree =>
    cases h
    exact ⟨hfree.1, hfree.2, rfl⟩
  · cases h

/-- On a gate, deletion removes the controls and then the gate. -/
theorem delete_of_gate {column : Column α n} {wire : Fin n} {gate : Gate}
    (h : column.kindAt wire = .gate gate) :
    column.delete wire =
      .changed (((column.removeControls? wire).getD column).put wire Node.empty) := by
  unfold delete
  rw [h]

/-- Deletion works on gates and on control markers; on a marker it removes the
controls of the owner. -/
theorem delete_eq_changed {column nodes : Column α n} {wire : Fin n}
    (h : column.delete wire = .changed nodes) :
    (∃ gate, column.kindAt wire = .gate gate ∧
      nodes = ((column.removeControls? wire).getD column).put wire Node.empty) ∨
    (∃ owner, column.kindAt wire = .control ∧ column.owner? wire = some owner ∧
      column.removeControls? owner = some nodes) := by
  unfold delete at h
  split at h
  · next gate hkind =>
    cases h
    exact Or.inl ⟨gate, hkind, rfl⟩
  · next hkind =>
    split at h
    · next found hfound =>
      cases h
      obtain ⟨owner, howner, hremoved⟩ := Option.bind_eq_some_iff.mp hfound
      exact Or.inr ⟨owner, hkind, howner, hremoved⟩
    · cases h
  · cases h
  · cases h
  · cases h

/-- Toggling takes away the first control, or places one next to the gate. -/
theorem toggleControl_eq_changed {column nodes : Column α n} {wire : Fin n}
    (h : column.toggleControl wire = .changed nodes) :
    (column.get wire).isControllable = true ∧
      ((∃ control, (column.get wire).controlA = some control ∧
        nodes = (column.clearTraces wire control).put wire
          { column.get wire with controlA := none }) ∨
      (∃ candidate, (column.get wire).controlA = none ∧
        (column.get wire).isRotated = false ∧
        (candidate + 1 = wire.val ∨ candidate = wire.val + 1) ∧
        column.placeControl wire candidate = .placed nodes)) := by
  unfold toggleControl at h
  dsimp only at h
  split at h
  · next hcontrollable =>
    refine ⟨hcontrollable, ?_⟩
    split at h
    · next control hcontrol =>
      cases h
      exact Or.inl ⟨control, hcontrol, clearTraces_put column wire control _⟩
    · next hcontrol =>
      right
      split at h
      · cases h
      · next hrotated =>
        have hrotated : (column.get wire).isRotated = false := by simpa using hrotated
        split at h
        · next placed hplaced =>
          cases h
          split at hplaced
          · next hpos => exact ⟨wire - 1, hcontrol, hrotated, Or.inl (by omega), hplaced⟩
          · cases hplaced
        · split at h
          · next placed hplaced =>
            cases h
            exact ⟨wire + 1, hcontrol, hrotated, Or.inr rfl, hplaced⟩
          · cases h
  · cases h

/-- Moving places the first control one step further and may leave a trace behind. -/
theorem moveControl_eq_changed {column nodes : Column α n} {wire : Fin n}
    {direction : Direction} (h : column.moveControl wire direction = .changed nodes) :
    (column.get wire).isControllable = true ∧
      ∃ control candidate placed, (column.get wire).controlA = some control ∧ control < n ∧
        controlStep? wire control direction = some candidate ∧
        column.placeControl wire candidate = .placed placed ∧
        nodes = (wireBehind? wire candidate direction).elim placed placed.markTrace := by
  unfold moveControl at h
  dsimp only at h
  split at h
  · next hcontrollable =>
    refine ⟨hcontrollable, ?_⟩
    split at h
    · cases h
    · next control hfilter =>
      obtain ⟨hcontrol, hlt⟩ := Option.filter_eq_some_iff.mp hfilter
      split at h
      · cases h
      · next candidate hstep =>
        split at h
        · cases h
        · cases h
        · next placed hplaced =>
          cases h
          exact ⟨control, candidate, placed, hcontrol, by simpa using hlt, hstep, hplaced, rfl⟩
  · cases h

theorem rotate_eq_changed {column nodes : Column α n} {wire : Fin n} {angle : α}
    (h : column.rotate wire angle = .changed nodes) :
    (column.get wire).gate?.isSome = true ∧
      ∃ rotation, nodes = column.put wire { column.get wire with rotation } := by
  unfold rotate Node.rotateBy? at h
  split at h
  · next node hnode =>
    cases h
    split at hnode
    · next hrotatable =>
      cases hnode
      refine ⟨?_, _, rfl⟩
      cases hgate : (column.get wire).gate? with
      | none => rw [hgate] at hrotatable; cases hrotatable
      | some g => rfl
    · cases hnode
  · cases h

/-! ## Blocked edits -/

/-- A control is blocked on a wire of the column. -/
theorem placeControl_eq_blocked {column : Column α n} {gate : Fin n} {candidate : Nat}
    {found : CellKind} (h : column.placeControl gate candidate = .blocked found) :
    candidate < n := by
  unfold placeControl at h
  split at h
  · next hlt => exact hlt
  · cases h

/-- A move is blocked on a wire of the column. -/
theorem moveControl_eq_blocked {column : Column α n} {wire : Fin n} {direction : Direction}
    {other : Nat} {found : CellKind}
    (h : column.moveControl wire direction = .blocked other found) : other < n := by
  unfold moveControl at h
  dsimp only at h
  split at h
  · split at h
    · cases h
    · split at h
      · cases h
      · split at h
        · cases h
        · next hblocked =>
          cases h
          exact placeControl_eq_blocked hblocked
        · cases h
  · cases h

/-- Whatever the edit, it is blocked on a wire of the column. -/
theorem onColumn_eq_blocked {column : Column α n} {wire : Fin n} {work : Edit α} {other : Nat}
    {found : CellKind} (h : work.onColumn column wire = .blocked other found) : other < n := by
  cases work with
  | placeGate gate =>
    simp only [Edit.onColumn, placeGate] at h
    split at h
    · cases h
    · cases h
      exact wire.isLt
  | delete =>
    simp only [Edit.onColumn, delete] at h
    split at h
    · cases h
    · split at h <;> cases h
    all_goals cases h
  | toggleControl =>
    -- both neighbours may be taken, but that is no blocked wire
    simp only [Edit.onColumn, toggleControl] at h
    split at h
    · split at h
      · cases h
      · split at h
        · cases h
        · split at h
          · cases h
          · split at h <;> cases h
    · cases h
  | moveControl direction => exact moveControl_eq_blocked h
  | rotate angle =>
    simp only [Edit.onColumn, rotate] at h
    split at h <;> cases h

/-! ## One step of a control -/

/-- A control that is not on its gate steps away from it, towards it, or over it.
Behind it lies the wire it leaves, nothing, or the gate. -/
theorem controlStep?_eq_some {gate control candidate : Nat} {direction : Direction}
    (hne : control ≠ gate) (h : controlStep? gate control direction = some candidate) :
    (min gate candidate < control ∧ control < max gate candidate ∧
      (candidate = control + 1 ∨ control = candidate + 1) ∧
      wireBehind? gate candidate direction = some control) ∨
    (min gate control < candidate ∧ candidate < max gate control ∧
      (candidate = control + 1 ∨ control = candidate + 1) ∧
      wireBehind? gate candidate direction = none) ∨
    ((control = gate + 1 ∧ candidate + 1 = gate ∨ control + 1 = gate ∧ candidate = gate + 1) ∧
      wireBehind? gate candidate direction = some gate) := by
  cases direction with
  | left => cases h
  | right => cases h
  | up =>
    simp only [controlStep?] at h
    simp only [wireBehind?]
    split at h
    · cases h
    · split at h
      · split at h
        · cases h
        · cases h
          right
          right
          rw [if_pos (by omega)]
          exact ⟨by omega, congrArg some (by omega)⟩
      · cases h
        by_cases hside : control - 1 < gate
        · left
          rw [if_pos hside]
          exact ⟨by omega, by omega, by omega, congrArg some (by omega)⟩
        · right
          left
          rw [if_neg hside]
          exact ⟨by omega, by omega, by omega, rfl⟩
  | down =>
    simp only [controlStep?] at h
    simp only [wireBehind?]
    cases h
    split
    · right
      right
      rw [if_pos (by omega)]
      exact ⟨by omega, congrArg some (by omega)⟩
    · by_cases hside : gate < control + 1
      · left
        rw [if_pos hside]
        exact ⟨by omega, by omega, by omega, congrArg some (by omega)⟩
      · right
        left
        rw [if_neg hside]
        exact ⟨by omega, by omega, by omega, rfl⟩

/-- A control that moves lands on another wire. -/
theorem controlStep?_ne {gate control candidate : Nat} {direction : Direction}
    (h : controlStep? gate control direction = some candidate) : candidate ≠ control := by
  cases direction with
  | left | right => cases h
  | up =>
    simp only [controlStep?] at h
    split at h
    · cases h
    · split at h
      · split at h
        · cases h
        · cases h
          omega
      · cases h
        omega
  | down =>
    simp only [controlStep?] at h
    cases h
    split <;> omega

/-- The wire that a control leaves behind lies between the control and the gate. -/
theorem wireBehind?_lt {gate candidate : Fin n} {direction : Direction} {left : Nat}
    (h : wireBehind? gate candidate direction = some left) : left < n := by
  have hgate := gate.isLt
  have hcandidate := candidate.isLt
  cases direction with
  | left | right => cases h
  | up =>
    simp only [wireBehind?] at h
    split at h
    · cases h
      omega
    · cases h
  | down =>
    simp only [wireBehind?] at h
    split at h
    · cases h
      omega
    · cases h

end CircuitGrid.Column
