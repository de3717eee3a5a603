import CircuitGrid.Proofs.GateEdits
import CircuitGrid.Proofs.LinkEdits
import CircuitGrid.Proofs.Outcomes

/-!
# Traces keep their link

A trace marks a wire that a control link runs over: it is *linked* if it lies strictly
between a gate and one of the controls of the gate. A gate may have two controls, and the
links of several gates may run over the same wire. Edits keep all traces linked, but for
one case. Dropping two controls on opposite sides of their gate clears the traces of the
further one only, or of neither if both are equally far, and those of the other side stay
behind (`Column.linked_of_onColumn`).
-/

namespace CircuitGrid

/-! ## Links over a wire -/

namespace Node

variable {α : Type}

/-- A control link of a node on wire `gate` runs over `wire`, strictly between its ends. -/
def RunsOver (node : Node α) (gate wire : Nat) : Prop :=
  ∃ control ∈ node.controls, min gate control < wire ∧ wire < max gate control

instance (node : Node α) (gate wire : Nat) : Decidable (node.RunsOver gate wire) :=
  inferInstanceAs (Decidable (∃ control ∈ node.controls, _ ∧ _))

theorem RunsOver.ne {node : Node α} {gate wire : Nat} (h : node.RunsOver gate wire) :
    wire ≠ gate := by
  obtain ⟨control, -, hlow, hhigh⟩ := h
  omega

theorem content_ne_trace {node : Node α} (h : node.gate?.isSome = true) :
    node.content ≠ .trace := by
  intro htrace
  rw [(gate?_eq_none_iff node).mpr (Or.inr htrace)] at h
  cases h

/-- The controls of a node on wire `gate` are on opposite sides of it, `near` no further
away than `far`. -/
structure Straddled (node : Node α) (gate near far : Nat) : Prop where
  controls : node.controlA = some near ∧ node.controlB = some far ∨
    node.controlA = some far ∧ node.controlB = some near
  opposite : min near far < gate ∧ gate < max near far
  nearer : Column.controlDistance gate (some near) ≤ Column.controlDistance gate (some far)

/-- The wire lies between the gate and the nearer of two controls on opposite sides. -/
def OnNearSide (node : Node α) (gate wire : Nat) : Prop :=
  ∃ near far, node.Straddled gate near far ∧ min gate near < wire ∧ wire < max gate near

end Node

namespace Column

variable {α : Type} {n : Nat}

/-- A control link of a gate runs over the wire. -/
def Linked (column : Column α n) (wire : Fin n) : Prop :=
  ∃ gate : Fin n, (column.get gate).gate?.isSome = true ∧ (column.get gate).RunsOver gate wire

instance (column : Column α n) (wire : Fin n) : Decidable (column.Linked wire) :=
  inferInstanceAs (Decidable (∃ _ : Fin n, _ ∧ _))

/-- Every trace of the column is linked. -/
def TracesLinked (column : Column α n) : Prop :=
  ∀ wire, (column.get wire).content = .trace → column.Linked wire

instance (column : Column α n) : Decidable column.TracesLinked :=
  inferInstanceAs (Decidable (∀ _ : Fin n, _ → _))

/-- The gate whose controls a deletion on the wire drops. -/
def strippedBy? (column : Column α n) (wire : Fin n) : Option (Fin n) :=
  match column.kindAt wire with
  | .gate _ => some wire
  | .control => column.owner? wire
  | .empty | .trace | .swapPartner => none

/-- The trace on `place` belongs to a control link that a deletion on `wire` drops without
clearing its traces. -/
def LeftBehind (column : Column α n) (wire place : Fin n) : Prop :=
  (column.get place).content = .trace ∧ ∃ gate : Fin n,
    column.strippedBy? wire = some gate ∧ (column.get gate).OnNearSide gate place

/-! ## What keeps a link -/

variable {column nodes : Column α n} {wire place : Fin n}

/-- A link is kept if its gate is another than the one that changes, or still reaches as far. -/
theorem Linked.of_keepsGates {gate : Fin n} (h : column.Linked place)
    (hkeeps : column.KeepsGates gate nodes)
    (hown : (column.get gate).gate?.isSome = true → (column.get gate).RunsOver gate place →
      nodes.Linked place) : nodes.Linked place := by
  obtain ⟨other, hgate, hover⟩ := h
  by_cases hother : other = gate
  · subst hother
    exact hown hgate hover
  · have hsame := hkeeps other hother (Or.inl hgate)
    exact ⟨other, hsame ▸ hgate, hsame ▸ hover⟩

variable [Angle α]

/-! ## Dropping controls -/

omit [Angle α] in
theorem furthestControl?_cases (gate : Nat) (node : Node α) :
    (furthestControl? gate node = node.controlA ∧
      controlDistance gate node.controlB < controlDistance gate node.controlA) ∨
    (furthestControl? gate node = node.controlB ∧
      controlDistance gate node.controlA < controlDistance gate node.controlB) ∨
    (furthestControl? gate node = none ∧
      controlDistance gate node.controlA = controlDistance gate node.controlB) := by
  unfold furthestControl?
  split
  · next hlt => exact Or.inl ⟨rfl, hlt⟩
  · split
    · next hlt => exact Or.inr (Or.inl ⟨rfl, hlt⟩)
    · exact Or.inr (Or.inr ⟨rfl, by omega⟩)

/-- A trace that is still there after the controls were dropped was there before, and not
on the way to the further control. -/
theorem trace_of_removeControls? {gate : Fin n} (h : column.removeControls? gate = some nodes)
    (hne : place ≠ gate) (htrace : (nodes.get place).content = .trace) :
    (column.get place).content = .trace ∧
      ∀ control, furthestControl? gate (column.get gate) = some control →
        ¬ (min gate.val control < place ∧ place < max gate.val control) := by
  unfold removeControls? at h
  dsimp only at h
  split at h
  · rw [← Option.some.inj h, get_put_of_ne _ _ hne] at htrace
    cases hfurthest : furthestControl? gate (column.get gate) with
    | none =>
      rw [hfurthest] at htrace
      exact ⟨htrace, nofun⟩
    | some control =>
      rw [hfurthest] at htrace
      dsimp only at htrace
      rw [get_clearTraces] at htrace
      split at htrace
      · cases htrace
      · next hkept =>
        refine ⟨htrace, ?_⟩
        rintro other ⟨⟩ ⟨hlow, hhigh⟩
        exact hkept ⟨hlow, hhigh, htrace⟩
  · cases h

/-- A control whose traces stay has another one at least as far away, on the opposite side. -/
theorem exists_opposite {gate control place : Nat} {first second furthest : Option Nat}
    (hfirst : first = some control) (hdiffer : ∀ other, second = some other → control ≠ other)
    (hover : min gate control < place ∧ place < max gate control)
    (hkept : ∀ cleared, furthest = some cleared →
      ¬ (min gate cleared < place ∧ place < max gate cleared))
    (hcases : (furthest = first ∧ controlDistance gate second < controlDistance gate first) ∨
      (furthest = second ∧ controlDistance gate first < controlDistance gate second) ∨
      (furthest = none ∧ controlDistance gate first = controlDistance gate second)) :
    ∃ other, second = some other ∧ (min control other < gate ∧ gate < max control other) ∧
      controlDistance gate (some control) ≤ controlDistance gate (some other) := by
  subst hfirst
  cases second with
  | none =>
    -- the only control is the further one, and its traces go
    rcases hcases with ⟨hfurthest, -⟩ | ⟨-, hlt⟩ | ⟨-, heq⟩
    · exact absurd hover (hkept control hfurthest)
    · simp only [controlDistance] at hlt
      omega
    · simp only [controlDistance] at heq
      omega
  | some other =>
    have hne := hdiffer other rfl
    simp only [controlDistance] at hcases ⊢
    -- on one side of the gate, the traces of the further control are those of both
    rcases hcases with ⟨hfurthest, -⟩ | ⟨hfurthest, hlt⟩ | ⟨-, heq⟩
    · exact absurd hover (hkept control hfurthest)
    · have hother := hkept other hfurthest
      exact ⟨other, rfl, by omega, by omega⟩
    · exact ⟨other, rfl, by omega, by omega⟩

/-- What is left of a dropped link is on the side of the nearer control. -/
theorem onNearSide_of_removeControls? (hexclusive : column.LinkExclusive) {gate : Fin n}
    (h : column.removeControls? gate = some nodes) (htrace : (nodes.get place).content = .trace)
    (hover : (column.get gate).RunsOver gate place) :
    (column.get place).content = .trace ∧ (column.get gate).OnNearSide gate place := by
  obtain ⟨hbefore, hkept⟩ :=
    trace_of_removeControls? h (fun heq => hover.ne (congrArg Fin.val heq)) htrace
  refine ⟨hbefore, ?_⟩
  obtain ⟨near, hmem, hover⟩ := hover
  have hdiffer : ∀ target, (column.get gate).controlA = some target →
      (column.get gate).controlB ≠ some target := by
    intro target ha hb
    cases (hexclusive.target_unique gate .controlA gate .controlB target ha hb).2
  have hcases := furthestControl?_cases gate (column.get gate)
  rcases Node.mem_controls.mp hmem with ha | hb
  · obtain ⟨far, hb, hopposite, hnearer⟩ := exists_opposite ha
      (fun other hb heq => hdiffer near ha (heq ▸ hb)) hover hkept hcases
    exact ⟨near, far, ⟨Or.inl ⟨ha, hb⟩, hopposite, hnearer⟩, hover⟩
  · have hswapped := (or_left_comm.mp hcases).imp_right (Or.imp_right (And.imp_right Eq.symm))
    obtain ⟨far, ha, hopposite, hnearer⟩ := exists_opposite hb
      (fun other ha heq => hdiffer near (heq ▸ ha) hb) hover hkept hswapped
    exact ⟨near, far, ⟨Or.inr ⟨ha, hb⟩, hopposite, hnearer⟩, hover⟩

omit [Angle α] in
theorem LinkExclusive.gate_of_hasControls (h : column.LinkExclusive)
    (hcontrols : (column.get wire).hasControls = true) :
    (column.get wire).gate?.isSome = true := by
  rw [Option.isSome_iff_ne_none]
  intro hnone
  have hlink := h.link?_of_gate?_eq_none hnone
  rw [(Node.hasControls_eq_false_iff _).mpr ⟨hlink .controlA, hlink .controlB⟩] at hcontrols
  cases hcontrols

theorem not_runsOver_of_removeControls? {gate : Fin n} (h : column.removeControls? gate = none) :
    ¬ (column.get gate).RunsOver gate place := by
  have hnone : (column.get gate).hasControls = false := by
    unfold removeControls? at h
    simpa using h
  obtain ⟨ha, hb⟩ := (Node.hasControls_eq_false_iff _).mp hnone
  rintro ⟨control, hmem, -⟩
  simp [Node.mem_controls, ha, hb] at hmem

/-- Once a gate has lost its controls, and perhaps is gone itself, a trace that is left is
linked by another gate, or lies on the side of the nearer control. -/
theorem linked_of_removeControls? (hexclusive : column.LinkExclusive)
    (hlinked : column.TracesLinked) {gate : Fin n} {removed : Column α n}
    (h : column.removeControls? gate = some removed) (hkeeps : column.KeepsGates gate nodes)
    (hne : place ≠ gate) (htrace : (removed.get place).content = .trace) :
    nodes.Linked place ∨
      (column.get place).content = .trace ∧ (column.get gate).OnNearSide gate place := by
  by_cases hover : (column.get gate).RunsOver gate place
  · exact Or.inr (onNearSide_of_removeControls? hexclusive h htrace hover)
  · have hbefore := (trace_of_removeControls? h hne htrace).1
    exact Or.inl ((hlinked place hbefore).of_keepsGates hkeeps fun _ hown => absurd hown hover)

/-! ## Putting controls -/

theorem trace_of_link {gate control : Fin n} (hgate : (column.get gate).gate?.isSome = true)
    (h : ((column.link gate control).get place).content = .trace) :
    place ≠ control ∧ (column.get place).content = .trace := by
  rw [get_link] at h
  split at h
  · cases h
  · next hcontrol =>
    split at h
    · exact absurd h (Node.content_ne_trace hgate)
    · exact ⟨hcontrol, h⟩

/-- A gate that takes another first control keeps a wire linked over which the new control
link runs if the old one did. -/
theorem Linked.link (h : column.Linked place) {gate control : Fin n}
    (hgate : (column.get gate).gate?.isSome = true)
    (haccepts : (column.kindAt control).acceptsControl = true)
    (hover : ∀ old, (column.get gate).controlA = some old →
      min gate.val old < place → place < max gate.val old →
        min gate.val control < place ∧ place < max gate.val control) :
    (column.link gate control).Linked place := by
  refine h.of_keepsGates (keepsGates_link hgate haccepts).1 fun _ hown => ?_
  refine ⟨gate, ?_⟩
  rw [get_link, if_neg (ne_of_acceptsControl hgate haccepts).symm, if_pos rfl]
  refine ⟨hgate, ?_⟩
  obtain ⟨old, hmem, hlow, hhigh⟩ := hown
  rcases Node.mem_controls.mp hmem with ha | hb
  · exact ⟨control, Node.mem_controls.mpr (Or.inl rfl), hover old ha hlow hhigh⟩
  · exact ⟨old, Node.mem_controls.mpr (Or.inr hb), hlow, hhigh⟩

theorem Linked.markTrace (h : column.Linked place) (left : Nat) :
    (column.markTrace left).Linked place := by
  obtain ⟨gate, hgate, hover⟩ := h
  refine ⟨gate, ?_⟩
  rw [get_markTrace_of_gate hgate]
  exact ⟨hgate, hover⟩

/-! ## Edits -/

theorem linked_of_placeGate (hlinked : column.TracesLinked) {gate : Gate}
    (h : column.placeGate wire gate = .changed nodes)
    (htrace : (nodes.get place).content = .trace) : nodes.Linked place := by
  obtain ⟨hkeeps, hnone, -⟩ := placeGate_keepsGates h
  obtain ⟨-, -, rfl⟩ := placeGate_eq_changed h
  rw [get_put] at htrace
  split at htrace
  · cases htrace
  · refine (hlinked place htrace).of_keepsGates hkeeps fun hgate => ?_
    rw [hnone] at hgate
    cases hgate

theorem linked_of_rotate (hlinked : column.TracesLinked) {angle : α}
    (h : column.rotate wire angle = .changed nodes) (htrace : (nodes.get place).content = .trace) :
    nodes.Linked place := by
  obtain ⟨-, rotation, rfl⟩ := rotate_eq_changed h
  have hbefore : (column.get place).content = .trace := by
    rw [get_put] at htrace
    split at htrace
    · next heq => exact heq ▸ htrace
    · exact htrace
  refine (hlinked place hbefore).of_keepsGates (keepsGates_put column wire _) fun hgate hover => ?_
  refine ⟨wire, ?_⟩
  rw [get_put_self]
  exact ⟨hgate, hover⟩

/-- A deletion leaves a trace unlinked only on the side of the nearer control. -/
theorem linked_of_delete (hexclusive : column.LinkExclusive) (hlinked : column.TracesLinked)
    (h : column.delete wire = .changed nodes) (htrace : (nodes.get place).content = .trace) :
    nodes.Linked place ∨ column.LeftBehind wire place := by
  rcases delete_eq_changed h with ⟨gate, hkind, rfl⟩ | ⟨owner, hkind, howner, hremove⟩
  · -- the gate goes with its controls
    rw [get_put] at htrace
    split at htrace
    · cases htrace
    · next hne =>
      have hstripped : column.strippedBy? wire = some wire := by
        unfold strippedBy?
        rw [hkind]
      cases hremove : column.removeControls? wire with
      | none =>
        rw [hremove] at htrace
        exact Or.inl ((hlinked place htrace).of_keepsGates (keepsGates_put column wire _)
          fun _ hown => absurd hown (not_runsOver_of_removeControls? hremove))
      | some removed =>
        rw [hremove] at htrace
        have hkeeps := (removeControls?_keepsGates hremove).1.trans
          (keepsGates_put removed wire Node.empty)
        exact (linked_of_removeControls? hexclusive hlinked hremove hkeeps hne htrace).imp_right
          fun ⟨hbefore, hside⟩ => ⟨hbefore, wire, hstripped, hside⟩
  · -- the owner of the marker stays, and it is a gate
    obtain ⟨hkeeps, hsame⟩ := removeControls?_keepsGates hremove
    have hstripped : column.strippedBy? wire = some owner := by
      unfold strippedBy?
      rw [hkind]
      exact howner
    have hgate : (nodes.get owner).gate?.isSome = true := by
      rw [hsame]
      exact hexclusive.gate_of_hasControls (removeControls?_eq_some hremove).1
    have hne : place ≠ owner := by
      rintro rfl
      exact Node.content_ne_trace hgate htrace
    exact (linked_of_removeControls? hexclusive hlinked hremove hkeeps hne htrace).imp_right
      fun ⟨hbefore, hside⟩ => ⟨hbefore, owner, hstripped, hside⟩

/-- The control that goes takes its traces with it, and the other control keeps its own. -/
theorem linked_of_toggleControl (hlinked : column.TracesLinked)
    (h : column.toggleControl wire = .changed nodes)
    (htrace : (nodes.get place).content = .trace) : nodes.Linked place := by
  obtain ⟨hcontrollable, hcases⟩ := toggleControl_eq_changed h
  have hgate := Node.gate?_isSome_of_isControllable hcontrollable
  rcases hcases with ⟨control, hcontrol, rfl⟩ | ⟨candidate, hnone, -, -, hplaced⟩
  · -- the first control goes
    rw [get_put] at htrace
    split at htrace
    · exact absurd htrace (Node.content_ne_trace hgate)
    · rw [get_clearTraces] at htrace
      split at htrace
      · cases htrace
      · next hkept =>
        have hkeeps := (keepsGates_clearTraces column wire wire control).1.trans
          (keepsGates_put _ wire { column.get wire with controlA := none })
        refine (hlinked place htrace).of_keepsGates hkeeps fun _ hown => ⟨wire, ?_⟩
        rw [get_put_self]
        refine ⟨hgate, ?_⟩
        obtain ⟨other, hmem, hlow, hhigh⟩ := hown
        rcases Node.mem_controls.mp hmem with ha | hb
        · cases hcontrol.symm.trans ha
          exact absurd ⟨hlow, hhigh, htrace⟩ hkept
        · exact ⟨other, Node.mem_controls.mpr (Or.inr hb), hlow, hhigh⟩
  · -- a first control comes
    obtain ⟨control, -, haccepts, rfl⟩ := placeControl_eq_placed hplaced
    refine (hlinked place (trace_of_link hgate htrace).2).link hgate haccepts ?_
    intro old hold
    rw [hnone] at hold
    cases hold

/-- The control link gets longer or shorter by one wire. The trace on this wire is put
or consumed. -/
theorem linked_of_moveControl (hexclusive : column.LinkExclusive) (hlinked : column.TracesLinked)
    {direction : Direction} (h : column.moveControl wire direction = .changed nodes)
    (htrace : (nodes.get place).content = .trace) : nodes.Linked place := by
  obtain ⟨hcontrollable, old, candidate, placed, hold, -, hstep, hplaced, rfl⟩ :=
    moveControl_eq_changed h
  have hgate := Node.gate?_isSome_of_isControllable hcontrollable
  obtain ⟨hcontrol, hstill⟩ := controlA_get_of_placed hgate hplaced
  obtain ⟨control, rfl, haccepts, rfl⟩ := placeControl_eq_placed hplaced
  have hne : old ≠ wire := by
    obtain ⟨target, rfl, hne, -⟩ := hexclusive.target_free wire .controlA old hold
    exact Fin.val_ne_of_ne hne
  have hcases := controlStep?_eq_some hne hstep
  -- a trace that was there before is still between the gate and its control
  have hkept : ((column.link wire control).get place).content = .trace →
      (column.link wire control).Linked place := by
    intro htrace
    obtain ⟨hplace, hbefore⟩ := trace_of_link hgate htrace
    have hplace := Fin.val_ne_of_ne hplace
    refine (hlinked place hbefore).link hgate haccepts ?_
    intro old' hold'
    cases hold.symm.trans hold'
    omega
  cases hbehind : wireBehind? wire control direction with
  | none =>
    rw [hbehind] at htrace
    exact hkept htrace
  | some left =>
    rw [hbehind] at htrace
    change (((column.link wire control).markTrace left).get place).content = .trace at htrace
    rw [get_markTrace] at htrace
    split at htrace
    · next hmarked =>
      -- the new trace is on the wire that the control has left
      have hempty := ((kindAt_eq_empty_iff _ _).mp hmarked.2).1
      have hplace : place ≠ wire := by
        rintro rfl
        rw [(Node.gate?_eq_none_iff _).mpr (Or.inl hempty)] at hstill
        cases hstill
      refine Linked.markTrace ⟨wire, hstill, control, ?_, ?_⟩ left
      · exact Node.mem_controls.mpr (Or.inl hcontrol)
      · rw [hmarked.1]
        rcases hcases with ⟨hlow, hhigh, -, hleft⟩ | ⟨-, -, -, hleft⟩ | ⟨-, hleft⟩
        · cases hbehind.symm.trans hleft
          exact ⟨hlow, hhigh⟩
        · cases hbehind.symm.trans hleft
        · cases hbehind.symm.trans hleft
          exact absurd (Fin.ext hmarked.1) hplace
    · exact (hkept htrace).markTrace left

/-- After an edit a trace is linked, unless it was there before and a deletion has left it
behind. -/
theorem linked_of_onColumn (hexclusive : column.LinkExclusive) (hlinked : column.TracesLinked)
    {work : Edit α} (h : work.onColumn column wire = .changed nodes)
    (htrace : (nodes.get place).content = .trace) :
    nodes.Linked place ∨ work = .delete ∧ column.LeftBehind wire place := by
  cases work with
  | placeGate gate => exact Or.inl (linked_of_placeGate hlinked h htrace)
  | delete => exact (linked_of_delete hexclusive hlinked h htrace).imp_right (And.intro rfl)
  | toggleControl => exact Or.inl (linked_of_toggleControl hlinked h htrace)
  | moveControl direction => exact Or.inl (linked_of_moveControl hexclusive hlinked h htrace)
  | rotate angle => exact Or.inl (linked_of_rotate hlinked h htrace)

end Column

/-! ## Sessions -/

namespace Editor

variable {α : Type} [Angle α] {wires columns : Nat}

/-- The action is a deletion that drops two controls on opposite sides of their gate. -/
def DropsStraddled (editor : Editor α wires columns) (action : Action α) : Prop :=
  action = .edit .delete ∧ ∃ (wire gate : Fin wires) (column : Fin columns) (near far : Nat),
    editor.cursor = ⟨wire, column⟩ ∧
      (editor.grid.columnAt column).strippedBy? wire = some gate ∧
      ((editor.grid.columnAt column).get gate).Straddled gate near far

variable {editor : Editor α wires columns}

theorem linked_of_perform (hexclusive : editor.grid.Each Column.LinkExclusive)
    (hlinked : editor.grid.Each Column.TracesLinked) (action : Action α) {column : Fin columns}
    {place : Fin wires}
    (htrace : (((editor.perform action).2.grid.columnAt column).get place).content = .trace) :
    ((editor.perform action).2.grid.columnAt column).Linked place ∨
      action = .edit .delete ∧ ∃ wire : Fin wires, editor.cursor = ⟨wire, column⟩ ∧
        (editor.grid.columnAt column).LeftBehind wire place := by
  rcases columnAt_perform_cases editor action column with
    hsame | ⟨work, wire, rfl, hcursor, hchange⟩ | hfresh
  · rw [hsame] at htrace ⊢
    exact Or.inl (hlinked column place htrace)
  · exact (Column.linked_of_onColumn (hexclusive column) (hlinked column) hchange htrace).imp_right
      fun ⟨hwork, hleft⟩ => ⟨congrArg Action.edit hwork, wire, hcursor, hleft⟩
  · rw [hfresh, Column.get_fresh] at htrace
    cases htrace

theorem tracesLinked_perform (hexclusive : editor.grid.Each Column.LinkExclusive)
    (hlinked : editor.grid.Each Column.TracesLinked) {action : Action α}
    (haction : ¬ editor.DropsStraddled action) :
    (editor.perform action).2.grid.Each Column.TracesLinked := by
  intro column place htrace
  rcases linked_of_perform hexclusive hlinked action htrace with
    hkept | ⟨hdelete, wire, hcursor, -, gate, hstripped, near, far, hstraddled, -⟩
  · exact hkept
  · exact absurd ⟨hdelete, wire, gate, column, near, far, hcursor, hstripped, hstraddled⟩ haction

/-- An action other than a deletion that drops controls on both sides of a gate keeps all
traces linked, and so does a run of such actions. After any other deletion, the traces that
are not linked are those it has left behind, on the way to the nearer control. -/
theorem tracesLinked_session (hexclusive : editor.grid.Each Column.LinkExclusive)
    (hlinked : editor.grid.Each Column.TracesLinked) :
    (∀ action, ¬ editor.DropsStraddled action →
      (editor.perform action).2.grid.Each Column.TracesLinked) ∧
    (∀ action column place,
      (((editor.perform action).2.grid.columnAt column).get place).content = .trace →
        ((editor.perform action).2.grid.columnAt column).Linked place ∨
          action = .edit .delete ∧ ∃ wire : Fin wires, editor.cursor = ⟨wire, column⟩ ∧
            (editor.grid.columnAt column).LeftBehind wire place) ∧
    ∀ actions, editor.Throughout (fun editor action => ¬ editor.DropsStraddled action) actions →
      (editor.run actions).grid.Each Column.TracesLinked := by
  refine ⟨fun action haction => tracesLinked_perform hexclusive hlinked haction,
    fun action column place htrace => linked_of_perform hexclusive hlinked action htrace, ?_⟩
  intro actions hactions
  refine (run_keeps (Q := fun editor => editor.grid.Each Column.LinkExclusive ∧
    editor.grid.Each Column.TracesLinked) ?_ ⟨hexclusive, hlinked⟩ hactions).2
  intro editor action ⟨hexclusive, hlinked⟩ haction
  exact ⟨perform_each .fresh (fun _ _ _ _ h hchange => h.onColumn hchange) hexclusive action,
    tracesLinked_perform hexclusive hlinked haction⟩

end Editor

/-- An X gate with a control three wires above it and one two wires below it. -/
def Grid.lopsided : Grid Float 6 1 :=
  .ofColumn #v[.empty, .trace, .trace, (Node.ofGate .pauliX).withControls 0 5, .trace, .empty]
    (by decide)

namespace Editor

theorem tracesLinked_session_lopsided :
    Grid.lopsided.Each Column.LinkExclusive ∧ Grid.lopsided.Each Column.TracesLinked ∧
      ((Editor.mk Grid.lopsided ⟨3, 0⟩).run [.edit .toggleControl, .navigate .up,
        .edit (.placeGate .hadamard)]).grid.Each Column.TracesLinked := by
  have hexclusive : Grid.lopsided.Each Column.LinkExclusive := by decide
  have hlinked : Grid.lopsided.Each Column.TracesLinked := by decide
  let editor : Editor Float 6 1 := ⟨Grid.lopsided, ⟨3, 0⟩⟩
  have hsession := tracesLinked_session (show editor.grid.Each _ from hexclusive) hlinked
  -- none of the actions is a deletion
  exact ⟨hexclusive, hlinked, hsession.2.2 _
    ⟨fun h => (by cases h.1), fun h => (by cases h.1), fun h => (by cases h.1), trivial⟩⟩

/-- The controls of the deleted gate are not equally far, and the trace of the nearer one
stays all the same. -/
theorem delete_leaves_trace_lopsided :
    Grid.lopsided.Each Column.LinkExclusive ∧ Grid.lopsided.Each Column.TracesLinked ∧
      (Grid.lopsided.columnAt 0).get 3 = (Node.ofGate .pauliX).withControls 0 5 ∧
      Column.controlDistance 3 (some 0) ≠ Column.controlDistance 3 (some 5) ∧
      ¬ ((Editor.mk Grid.lopsided ⟨3, 0⟩).perform (.edit .delete)).2.grid.Each
        Column.TracesLinked :=
  ⟨by decide, by decide, rfl, by decide, by decide⟩

end Editor

end CircuitGrid
