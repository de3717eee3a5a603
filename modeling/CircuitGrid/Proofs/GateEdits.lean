import CircuitGrid.Proofs.Footprint

/-!
# Edits leave other gates alone

An edit writes on several wires: it empties the cell of a control, lays a trace, or
clears a run of them. Whatever the links of the column, none of these writes lands on a
gate. So an edit changes one gate at most, the one under the cursor or the owner of the
control under it, and apart from a placement and a deletion that gate stays a gate of
the same kind.
-/

namespace CircuitGrid.Column

variable {α : Type} [Angle α] {n : Nat} {column nodes : Column α n} {wire : Fin n}

/-! ## Writes -/

omit [Angle α] in
theorem keepsGates_put (column : Column α n) (wire : Fin n) (node : Node α) :
    column.KeepsGates wire (column.put wire node) := by
  intro place hne _
  exact get_put_of_ne column node hne

omit [Angle α] in
/-- Cells without a gate may change, as long as none is put there. -/
theorem keepsGates_of_gate?_eq_none {other : Column α n}
    (h : ∀ place, other.get place = column.get place ∨
      (column.get place).gate? = none ∧ (other.get place).gate? = none) :
    column.KeepsGates wire other ∧ (other.get wire).gate? = (column.get wire).gate? := by
  constructor
  · intro place _ hgate
    rcases h place with hsame | ⟨hnone, hnone'⟩
    · exact hsame
    · rw [hnone, hnone'] at hgate
      simp at hgate
  · rcases h wire with hsame | ⟨hnone, hnone'⟩
    · rw [hsame]
    · rw [hnone, hnone']

theorem keepsGates_clearTraces (column : Column α n) (wire : Fin n) (a b : Nat) :
    column.KeepsGates wire (column.clearTraces a b) ∧
      ((column.clearTraces a b).get wire).gate? = (column.get wire).gate? := by
  apply keepsGates_of_gate?_eq_none
  intro place
  rw [get_clearTraces]
  split
  · next htrace => exact Or.inr ⟨(Node.gate?_eq_none_iff _).mpr (Or.inr htrace.2.2), rfl⟩
  · exact Or.inl rfl

theorem keepsGates_markTrace (column : Column α n) (wire : Fin n) (left : Nat) :
    column.KeepsGates wire (column.markTrace left) ∧
      ((column.markTrace left).get wire).gate? = (column.get wire).gate? := by
  apply keepsGates_of_gate?_eq_none
  intro place
  rw [get_markTrace]
  split
  · next hfree =>
    have hempty := ((kindAt_eq_empty_iff column place).mp hfree.2).1
    exact Or.inr ⟨(Node.gate?_eq_none_iff _).mpr (Or.inl hempty), rfl⟩
  · exact Or.inl rfl

/-- A control goes to a cell without a gate, so only its own gate notices. -/
theorem keepsGates_link {control : Fin n} (hgate : (column.get wire).gate?.isSome = true)
    (haccepts : (column.kindAt control).acceptsControl = true) :
    column.KeepsGates wire (column.link wire control) ∧
      ((column.link wire control).get wire).gate? = (column.get wire).gate? := by
  constructor
  · intro place hne hsome
    rw [get_link] at hsome ⊢
    split at hsome
    · next hplace =>
      rw [hplace, gate?_of_acceptsControl haccepts] at hsome
      rcases hsome with hsome | hsome <;> cases hsome
    · next hplace => rw [if_neg hplace, if_neg hne]
  · rw [get_link, if_neg (ne_of_acceptsControl hgate haccepts).symm, if_pos rfl]
    rfl

theorem keepsGates_placed {candidate : Nat} (hgate : (column.get wire).gate?.isSome = true)
    (h : column.placeControl wire candidate = .placed nodes) :
    column.KeepsGates wire nodes ∧ (nodes.get wire).gate? = (column.get wire).gate? := by
  obtain ⟨control, -, haccepts, rfl⟩ := placeControl_eq_placed h
  exact keepsGates_link hgate haccepts

/-- Removing the controls of a gate leaves the gate, and the others as they are. -/
theorem removeControls?_keepsGates (h : column.removeControls? wire = some nodes) :
    column.KeepsGates wire nodes ∧ (nodes.get wire).gate? = (column.get wire).gate? := by
  refine ⟨?_, by rw [get_removeControls?_self h]; rfl⟩
  obtain ⟨-, cleared, hcleared, rfl⟩ := removeControls?_eq_some h
  rcases hcleared with rfl | ⟨control, -, rfl⟩
  · exact keepsGates_put _ wire _
  · exact (keepsGates_clearTraces column wire wire control).1.trans (keepsGates_put _ wire _)

/-! ## Edits -/

theorem placeGate_keepsGates {gate : Gate} (h : column.placeGate wire gate = .changed nodes) :
    column.KeepsGates wire nodes ∧ (column.get wire).gate? = none ∧
      (nodes.get wire).gate? = some gate := by
  obtain ⟨hfree, -, rfl⟩ := placeGate_eq_changed h
  have hempty := ((kindAt_eq_empty_iff column wire).mp hfree).1
  refine ⟨keepsGates_put column wire _, (Node.gate?_eq_none_iff _).mpr (Or.inl hempty), ?_⟩
  rw [get_put_self]
  rfl

/-- Deletion on a gate takes away this gate only. -/
theorem exists_delete_of_gate {gate : Gate} (h : column.kindAt wire = .gate gate) :
    ∃ nodes, Edit.delete.onColumn column wire = .changed nodes ∧ column.KeepsGates wire nodes ∧
      (nodes.get wire).gate? = none := by
  refine ⟨_, delete_of_gate h, ?_, ?_⟩
  · refine KeepsGates.trans ?_ (keepsGates_put _ wire _)
    cases hremoved : column.removeControls? wire with
    | none => exact KeepsGates.refl column wire
    | some removed => exact (removeControls?_keepsGates hremoved).1
  · rw [get_put_self]
    rfl

omit [Angle α] in
/-- A control marker has an owner. -/
theorem exists_owner_of_kindAt (h : column.kindAt wire = .control) :
    ∃ owner, column.owner? wire = some owner ∧ (column.get owner).isControlledBy wire = true := by
  obtain ⟨-, other, hne, hcontrolled⟩ := exists_control_of_kindAt h
  unfold owner?
  cases hfound : (List.finRange n).find? fun other =>
      other ≠ wire && (column.get other).isControlledBy wire with
  | none =>
    have hnone := List.find?_eq_none.mp hfound other (List.mem_finRange other)
    simp [hne, hcontrolled] at hnone
  | some owner =>
    have howner := List.find?_some hfound
    simp only [Bool.and_eq_true] at howner
    exact ⟨owner, rfl, howner.2⟩

/-- Deletion on a control marker takes the controls of its owner. -/
theorem exists_removed_of_control (h : column.kindAt wire = .control) :
    ∃ owner nodes, column.owner? wire = some owner ∧
      (column.get owner).isControlledBy wire = true ∧
      column.removeControls? owner = some nodes ∧
      Edit.delete.onColumn column wire = .changed nodes := by
  obtain ⟨owner, howner, hcontrolled⟩ := exists_owner_of_kindAt h
  have hcontrols : (column.get owner).hasControls = true := by
    rw [← Bool.not_eq_false, Node.hasControls_eq_false_iff]
    rintro ⟨ha, hb⟩
    rcases (Node.isControlledBy_iff _ _).mp hcontrolled with hlink | hlink
    · rw [ha] at hlink
      cases hlink
    · rw [hb] at hlink
      cases hlink
  obtain ⟨nodes, hremoved⟩ : ∃ nodes, column.removeControls? owner = some nodes := by
    unfold removeControls?
    dsimp only
    rw [if_pos hcontrols]
    exact ⟨_, rfl⟩
  have hdelete : Edit.delete.onColumn column wire = .changed nodes := by
    show column.delete wire = .changed nodes
    unfold delete
    rw [h, howner]
    dsimp only [Option.bind_some]
    rw [hremoved]
  exact ⟨owner, nodes, howner, hcontrolled, hremoved, hdelete⟩

/-- Deletion on a control marker works on its owner, and this gate stays. -/
theorem exists_delete_of_control (h : column.kindAt wire = .control) :
    ∃ owner nodes, column.owner? wire = some owner ∧
      (column.get owner).isControlledBy wire = true ∧
      Edit.delete.onColumn column wire = .changed nodes ∧ column.KeepsGates owner nodes ∧
      (nodes.get owner).gate? = (column.get owner).gate? := by
  obtain ⟨owner, nodes, howner, hcontrolled, hremoved, hdelete⟩ := exists_removed_of_control h
  obtain ⟨hkeeps, hsame⟩ := removeControls?_keepsGates hremoved
  exact ⟨owner, nodes, howner, hcontrolled, hdelete, hkeeps, hsame⟩

/-- Work on the control and the angle of a gate changes this gate only, and keeps its kind. -/
theorem keepsGates_of_adjustsGate {work : Edit α} (hwork : work.adjustsGate = true)
    (h : work.onColumn column wire = .changed nodes) :
    column.KeepsGates wire nodes ∧ (column.get wire).gate?.isSome = true ∧
      (nodes.get wire).gate? = (column.get wire).gate? := by
  cases work with
  | placeGate gate => cases hwork
  | delete => cases hwork
  | toggleControl =>
    obtain ⟨hcontrollable, hcases⟩ := toggleControl_eq_changed h
    have hgate := Node.gate?_isSome_of_isControllable hcontrollable
    rcases hcases with ⟨control, -, rfl⟩ | ⟨candidate, -, -, -, hplaced⟩
    · refine ⟨?_, hgate, ?_⟩
      · exact (keepsGates_clearTraces column wire wire control).1.trans (keepsGates_put _ wire _)
      · rw [get_put_self]
        rfl
    · obtain ⟨hkeeps, hsame⟩ := keepsGates_placed hgate hplaced
      exact ⟨hkeeps, hgate, hsame⟩
  | moveControl direction =>
    obtain ⟨hcontrollable, -, candidate, placed, -, -, -, hplaced, rfl⟩ :=
      moveControl_eq_changed h
    have hgate := Node.gate?_isSome_of_isControllable hcontrollable
    obtain ⟨hkeeps, hsame⟩ := keepsGates_placed hgate hplaced
    cases wireBehind? wire candidate direction with
    | none => exact ⟨hkeeps, hgate, hsame⟩
    | some left =>
      obtain ⟨hkeeps', hsame'⟩ := keepsGates_markTrace placed wire left
      exact ⟨hkeeps.trans hkeeps', hgate, hsame'.trans hsame⟩
  | rotate angle =>
    obtain ⟨hgate, rotation, rfl⟩ := rotate_eq_changed h
    refine ⟨keepsGates_put column wire _, hgate, ?_⟩
    rw [get_put_self]
    rfl

/-- Every edit that changes the column changes one gate at most. -/
theorem exists_keepsGates {work : Edit α} (h : work.onColumn column wire = .changed nodes) :
    ∃ place, column.KeepsGates place nodes := by
  cases work with
  | placeGate gate => exact ⟨wire, (placeGate_keepsGates h).1⟩
  | delete =>
    rcases delete_eq_changed h with ⟨gate, hkind, -⟩ | ⟨owner, -, -, hremoved⟩
    · obtain ⟨found, hfound, hkeeps, -⟩ := exists_delete_of_gate hkind
      obtain rfl : found = nodes := ColumnEdit.changed.inj (hfound.symm.trans h)
      exact ⟨wire, hkeeps⟩
    · exact ⟨owner, (removeControls?_keepsGates hremoved).1⟩
  | toggleControl => exact ⟨wire, (keepsGates_of_adjustsGate rfl h).1⟩
  | moveControl direction => exact ⟨wire, (keepsGates_of_adjustsGate rfl h).1⟩
  | rotate angle => exact ⟨wire, (keepsGates_of_adjustsGate rfl h).1⟩

end CircuitGrid.Column
