import CircuitGrid.Proofs.Addressing

/-!
# Outcomes tell the truth

An action that is rejected, or that reports no change, leaves the editor as it
was, though an edit tries one wire after another before it gives up. An action
that reports a change has made one. Two actions promise less: a rotation may
bring a gate back to the angle it had, and starting over may find nothing to clear.
No assumption is made on the links of the grid.
-/

namespace CircuitGrid

/-! ## Changed columns differ -/

namespace Column

variable {α : Type} {n : Nat}

theorem ne_of_get_ne {column other : Column α n} (wire : Fin n)
    (h : column.get wire ≠ other.get wire) : column ≠ other :=
  fun heq => h (by rw [heq])

variable [Angle α]

/-- A gate that a control is placed on has this control first, and is still a gate. -/
theorem controlA_get_of_placed {column nodes : Column α n} {gate : Fin n} {candidate : Nat}
    (hgate : (column.get gate).gate?.isSome = true)
    (h : column.placeControl gate candidate = .placed nodes) :
    (nodes.get gate).controlA = some candidate ∧ (nodes.get gate).gate?.isSome = true := by
  obtain ⟨control, rfl, haccepts, rfl⟩ := placeControl_eq_placed h
  rw [get_link, if_neg (ne_of_acceptsControl hgate haccepts).symm, if_pos rfl]
  exact ⟨rfl, hgate⟩

/-- Marking a trace leaves the gates alone. -/
theorem get_markTrace_of_gate {column : Column α n} {gate : Fin n}
    (hgate : (column.get gate).gate?.isSome = true) (wire : Nat) :
    (column.markTrace wire).get gate = column.get gate := by
  obtain ⟨g, hg⟩ := Option.isSome_iff_exists.mp hgate
  have hkind := (kindAt_eq_gate_iff column gate g).mpr ((Node.gate?_eq_some_iff _ _).mp hg)
  rw [get_markTrace, if_neg]
  rw [hkind]
  simp

theorem placeGate_ne {column nodes : Column α n} {wire : Fin n} {gate : Gate}
    (h : column.placeGate wire gate = .changed nodes) : nodes ≠ column := by
  obtain ⟨hfree, -, rfl⟩ := placeGate_eq_changed h
  have hempty := ((kindAt_eq_empty_iff column wire).mp hfree).1
  apply ne_of_get_ne wire
  rw [get_put_self]
  intro hnode
  rw [← hnode] at hempty
  cases hempty

theorem removeControls?_ne {column nodes : Column α n} {gate : Fin n}
    (h : column.removeControls? gate = some nodes) : nodes ≠ column := by
  have hcontrols := (removeControls?_eq_some h).1
  apply ne_of_get_ne gate
  rw [get_removeControls?_self h]
  intro hnode
  rw [← hnode] at hcontrols
  cases hcontrols

theorem delete_ne {column nodes : Column α n} {wire : Fin n}
    (h : column.delete wire = .changed nodes) : nodes ≠ column := by
  rcases delete_eq_changed h with ⟨gate, hkind, rfl⟩ | ⟨owner, -, -, hremoved⟩
  · -- the gate itself is gone
    have hgate := (kindAt_eq_gate_iff column wire gate).mp hkind
    apply ne_of_get_ne wire
    rw [get_put_self]
    intro hnode
    rw [← hnode] at hgate
    cases hgate
  · exact removeControls?_ne hremoved

theorem toggleControl_ne {column nodes : Column α n} {wire : Fin n}
    (h : column.toggleControl wire = .changed nodes) : nodes ≠ column := by
  obtain ⟨hcontrollable, hcases⟩ := toggleControl_eq_changed h
  apply ne_of_get_ne wire
  intro hnode
  rcases hcases with ⟨control, hcontrol, rfl⟩ | ⟨candidate, hcontrol, -, -, hplaced⟩
  · rw [get_put_self] at hnode
    rw [← hnode] at hcontrol
    cases hcontrol
  · have hgate := Node.gate?_isSome_of_isControllable hcontrollable
    rw [← hnode, (controlA_get_of_placed hgate hplaced).1] at hcontrol
    cases hcontrol

theorem moveControl_ne {column nodes : Column α n} {wire : Fin n} {direction : Direction}
    (h : column.moveControl wire direction = .changed nodes) : nodes ≠ column := by
  obtain ⟨hcontrollable, control, candidate, placed, hcontrol, -, hstep, hplaced, rfl⟩ :=
    moveControl_eq_changed h
  have hgate := Node.gate?_isSome_of_isControllable hcontrollable
  obtain ⟨hmoved, hstill⟩ := controlA_get_of_placed hgate hplaced
  apply ne_of_get_ne wire
  intro hnode
  have hkept : (((wireBehind? wire candidate direction).elim placed placed.markTrace).get wire) =
      placed.get wire := by
    cases wireBehind? wire candidate direction with
    | none => rfl
    | some left => exact get_markTrace_of_gate hstill left
  rw [← hnode, hkept, hmoved] at hcontrol
  exact controlStep?_ne hstep (Option.some.inj hcontrol)

/-- An edit that reports a change has made one, unless it is a rotation. -/
theorem onColumn_ne {column nodes : Column α n} {wire : Fin n} {work : Edit α}
    (hturn : ∀ angle, work ≠ .rotate angle) (h : work.onColumn column wire = .changed nodes) :
    nodes ≠ column := by
  cases work with
  | placeGate gate => exact placeGate_ne h
  | delete => exact delete_ne h
  | toggleControl => exact toggleControl_ne h
  | moveControl direction => exact moveControl_ne h
  | rotate angle => exact absurd rfl (hturn angle)

end Column

/-! ## Actions -/

namespace Editor

variable {α : Type} {wires columns : Nat}

/-- What an action that ends in `result` says about the editor is true. -/
structure Truthful {ε : Type} (editor : Editor α wires columns) (action : Action α)
    (result : Except ε Outcome × Editor α wires columns) : Prop where
  /-- A rejected action does nothing. -/
  rejected : ∀ error, result.1 = .error error → result.2 = editor
  /-- An action that reports no change makes none. -/
  unchanged : result.1 = .ok .unchanged → result.2 = editor
  /-- An action that reports a change makes one, unless it turns a gate or starts over. -/
  changed : (∀ angle, action ≠ .edit (.rotate angle)) → action ≠ .reset →
    result.1 = .ok .changed →
      result.2.grid ≠ editor.grid ∨ result.2.cursor ≠ editor.cursor

section Truth

variable {ε ε' : Type} {editor : Editor α wires columns} {action : Action α}
  {result : Except ε Outcome × Editor α wires columns}

theorem Truthful.of_same (hsame : result.2 = editor) (hresult : result.1 ≠ .ok .changed) :
    Truthful editor action result :=
  ⟨fun _ _ => hsame, fun _ => hsame, fun _ _ hchanged => absurd hchanged hresult⟩

theorem Truthful.of_changed (hresult : result.1 = .ok .changed)
    (hchange : (∀ angle, action ≠ .edit (.rotate angle)) → action ≠ .reset →
      result.2.grid ≠ editor.grid ∨ result.2.cursor ≠ editor.cursor) :
    Truthful editor action result := by
  refine ⟨fun error herror => ?_, fun hsame => ?_, fun hturn hreset _ => hchange hturn hreset⟩
  · rw [hresult] at herror
    cases herror
  · rw [hresult] at hsame
    cases hsame

/-- Renaming the errors of a result takes nothing from its truth. -/
theorem Truthful.mapError (h : Truthful editor action result) (f : ε → ε') :
    Truthful editor action (result.1.mapError f, result.2) := by
  obtain ⟨result, next⟩ := result
  cases result with
  | error error => exact .of_same (h.rejected error rfl) (by intro h; cases h)
  | ok outcome =>
    cases outcome with
    | unchanged => exact .of_same (h.unchanged rfl) (by intro h; cases h)
    | changed => exact .of_changed rfl (fun hturn hreset => h.changed hturn hreset rfl)

end Truth

/-- A step of the cursor leads somewhere else. -/
theorem stepCursor?_ne {cursor next : Cursor} {direction : Direction}
    (h : stepCursor? wires columns cursor direction = some next) : next ≠ cursor := by
  intro heq
  have hwire : next.wire = cursor.wire := by rw [heq]
  have hcolumn : next.column = cursor.column := by rw [heq]
  cases direction <;> simp only [stepCursor?] at h <;> split at h <;> cases h <;>
    simp only at hwire hcolumn <;> omega

variable [Angle α]

theorem truthful_navigate (editor : Editor α wires columns) (direction : Direction) :
    Truthful editor (.navigate direction) (editor.perform (.navigate direction)) := by
  show Truthful editor _ (.ok (editor.navigate direction).1, (editor.navigate direction).2)
  unfold Editor.navigate
  cases hstep : stepCursor? wires columns editor.cursor direction with
  | some next => exact .of_changed rfl (fun _ _ => Or.inr (stepCursor?_ne hstep))
  | none => exact .of_same rfl (by simp)

theorem truthful_edit (editor : Editor α wires columns) (work : Edit α) :
    Truthful editor (.edit work) (editor.perform (.edit work)) := by
  show Truthful editor _ (editor.edit work)
  unfold Editor.edit
  split
  · exact .of_same rfl (by simp)
  · next wire column hlocate =>
    split
    · next nodes hchange =>
      refine .of_changed rfl (fun hturn _ => Or.inl fun hgrid => ?_)
      apply Column.onColumn_ne (fun angle hwork => hturn angle (by rw [hwork])) hchange
      rw [← hgrid]
      exact (Grid.columnAt_setColumn_self _ _ _).symm
    · exact .of_same rfl (by simp)
    · exact .of_same rfl (by simp)
    · exact .of_same rfl (by simp)

/-- Every action tells the truth, wherever the cursor is. -/
theorem truthful_perform (editor : Editor α wires columns) (action : Action α) :
    Truthful editor action (editor.perform action) := by
  cases action with
  | navigate direction => exact truthful_navigate editor direction
  | edit work => exact truthful_edit editor work
  | reset => exact .of_changed rfl (fun _ hreset => absurd rfl hreset)

/-- Without a change to report, there is none. -/
theorem eq_of_perform_ne_changed {editor : Editor α wires columns} {action : Action α}
    (h : (editor.perform action).1 ≠ .ok .changed) : (editor.perform action).2 = editor := by
  have htruth := truthful_perform editor action
  cases hresult : (editor.perform action).1 with
  | error error => exact htruth.rejected error hresult
  | ok outcome =>
    cases outcome with
    | changed => exact absurd hresult h
    | unchanged => exact htruth.unchanged hresult

/-- After any history, an action tells the truth, done at once or cell by cell: no edit is
left half made, and no change is reported that is none. -/
theorem session_truthful (grid : Grid α wires columns) (history : List (Action α))
    (action : Action α) :
    let editor := (start grid).run history
    Truthful editor action (editor.perform action) ∧
      Truthful editor action (editor.performCells action) := by
  intro editor
  have hperform := truthful_perform editor action
  refine ⟨hperform, ?_⟩
  rw [performCells_eq ((cursorInside_start grid).run history) action]
  exact hperform.mapError Fault.edit

end Editor

end CircuitGrid
