import CircuitGrid.Proofs.Changes
import CircuitGrid.Proofs.LinkExclusive
import CircuitGrid.Proofs.Run

/-!
# Edits keep links exclusive

Every edit is made of a few writes: a node without links on a wire that no link
names, fewer links for a gate, traces cleared, or one more control on a free
wire. Each of them keeps a column link-exclusive, and so does a whole session,
whatever link-exclusive grid it starts from.
-/

namespace CircuitGrid

namespace Column

variable {α : Type} [Angle α] {n : Nat}

namespace LinkExclusive

variable {column nodes : Column α n} {wire : Fin n} {node : Node α}

theorem fresh : LinkExclusive (Vector.replicate n (Node.empty : Node α)) := by
  have hlink : ∀ (wire : Fin n) slot,
      ((Vector.replicate n (Node.empty : Node α)).get wire).link? slot = none := by
    intro wire slot
    rw [get_fresh]
    cases slot <;> rfl
  refine ⟨?_, ?_, ?_, ?_⟩
  · intro wire slot target h
    rw [hlink] at h
    cases h
  · intro wire h
    rw [get_fresh] at h
    cases h
  · intro wire slot target h
    rw [hlink] at h
    cases h
  · intro wire slot other slot' target h
    rw [hlink] at h
    cases h

theorem clearTraces (h : column.LinkExclusive) (a b : Nat) :
    (column.clearTraces a b).LinkExclusive := by
  have hcases : ∀ place, (column.clearTraces a b).get place = column.get place ∨
      (column.clearTraces a b).get place = Node.empty := by
    intro place
    rw [get_clearTraces]
    split
    · exact Or.inr rfl
    · exact Or.inl rfl
  have hlink : ∀ place slot target,
      ((column.clearTraces a b).get place).link? slot = some target →
        (column.clearTraces a b).get place = column.get place := by
    intro place slot target hlink
    rcases hcases place with hsame | hempty
    · exact hsame
    · rw [hempty] at hlink
      cases slot <;> cases hlink
  apply h.of_fewer
  · intro place slot target h'
    rwa [hlink place slot target h'] at h'
  · intro place slot target h'
    have hsame := hlink place slot target h'
    rw [hsame] at h' ⊢
    exact h.gate_of_link place slot target h'
  · intro place hswap
    rcases hcases place with hsame | hempty
    · rw [hsame] at hswap ⊢
      exact h.swap_partner place hswap
    · rw [hempty] at hswap
      cases hswap
  · intro place hcontent
    left
    rcases hcases place with hsame | hempty
    · rw [hsame, hcontent]
    · rw [hempty]
      rfl

theorem markTrace (h : column.LinkExclusive) (behind : Nat) :
    (column.markTrace behind).LinkExclusive := by
  unfold Column.markTrace
  split
  · split
    · next hkind =>
      exact h.put_unlinked (fun slot => by cases slot <;> rfl) nofun
        (Or.inr (h.unnamed_of_kindAt hkind))
    · exact h
  · exact h

theorem link (h : column.LinkExclusive) {control : Fin n}
    (hgate : (column.get wire).gate?.isSome = true)
    (haccepts : (column.kindAt control).acceptsControl = true) :
    (column.link wire control).LinkExclusive := by
  have hne := ne_of_acceptsControl hgate haccepts
  have hunnamed := h.unnamed_of_acceptsControl haccepts
  have hemptied : (column.put control Node.empty).LinkExclusive :=
    h.put_unlinked (fun slot => by cases slot <;> rfl) nofun (Or.inl rfl)
  have hwire : (column.put control Node.empty).get wire = column.get wire :=
    get_put_of_ne column Node.empty hne.symm
  have hlinked := hemptied.put_control hne (by rw [hwire]; exact hgate)
    (by rw [get_put_self]; rfl) (by
      intro place slot hlink
      rw [get_put] at hlink
      split at hlink
      · cases slot <;> cases hlink
      · exact hunnamed place slot hlink)
  -- the two writes of a link are on different wires
  have heq : column.link wire control =
      (column.put control Node.empty).put wire ((column.get wire).withControl control) := by
    apply ext_get
    intro place
    rw [get_link, get_put, get_put]
    by_cases hplace : place = control
    · rw [if_pos hplace, if_pos hplace, if_neg (hplace ▸ hne)]
    · rw [if_neg hplace, if_neg hplace]
  rw [heq, ← hwire]
  exact hlinked

theorem removeControls? (h : column.LinkExclusive)
    (hremove : column.removeControls? wire = some nodes) : nodes.LinkExclusive := by
  obtain ⟨_, cleared, hcleared, rfl⟩ := removeControls?_eq_some hremove
  have hexclusive : cleared.LinkExclusive := by
    rcases hcleared with rfl | ⟨control, _, rfl⟩
    · exact h
    · exact h.clearTraces wire control
  have hwire : cleared.get wire = column.get wire := by
    rcases hcleared with rfl | ⟨control, _, rfl⟩
    · rfl
    · exact get_clearTraces_left column wire control
  apply hexclusive.put_fewer
  · rw [hwire]
    rfl
  · rw [hwire]
    rfl
  · intro slot target hlink
    rw [hwire]
    cases slot with
    | controlA => cases hlink
    | controlB => cases hlink
    | partner => exact hlink

/-- Every edit keeps a column link-exclusive. -/
theorem onColumn (h : column.LinkExclusive) {edit : Edit α}
    (hchange : edit.onColumn column wire = .changed nodes) : nodes.LinkExclusive := by
  cases edit with
  | placeGate gate =>
    obtain ⟨hkind, hsingle, rfl⟩ := placeGate_eq_changed hchange
    apply h.put_unlinked
    · intro slot
      cases slot <;> rfl
    · -- a swap, which would need a partner, is not placed alone
      intro hswap
      cases hswap
      cases hsingle
    · exact Or.inr (h.unnamed_of_kindAt hkind)
  | delete =>
    rcases delete_eq_changed hchange with ⟨gate, _, rfl⟩ | ⟨owner, _, _, hremove⟩
    · have hremoved : ((column.removeControls? wire).getD column).LinkExclusive := by
        cases hremove : column.removeControls? wire with
        | none => exact h
        | some removed => exact h.removeControls? hremove
      exact hremoved.put_unlinked (fun slot => by cases slot <;> rfl) nofun (Or.inl rfl)
    · exact h.removeControls? hremove
  | toggleControl =>
    obtain ⟨hcontrollable, hcases⟩ := toggleControl_eq_changed hchange
    rcases hcases with ⟨control, _, rfl⟩ | ⟨candidate, _, _, _, hplaced⟩
    · -- the first control goes, the second one stays
      have hwire := get_clearTraces_left column wire control
      apply (h.clearTraces wire control).put_fewer
      · rw [hwire]
      · rw [hwire]
      · intro slot target hlink
        rw [hwire]
        cases slot with
        | controlA => cases hlink
        | controlB => exact hlink
        | partner => exact hlink
    · obtain ⟨control, _, haccepts, rfl⟩ := placeControl_eq_placed hplaced
      exact h.link (Node.gate?_isSome_of_isControllable hcontrollable) haccepts
  | moveControl direction =>
    obtain ⟨hcontrollable, _, candidate, placed, _, _, _, hplaced, rfl⟩ :=
      moveControl_eq_changed hchange
    obtain ⟨control, _, haccepts, rfl⟩ := placeControl_eq_placed hplaced
    have hlinked := h.link (Node.gate?_isSome_of_isControllable hcontrollable) haccepts
    cases wireBehind? wire candidate direction with
    | none => exact hlinked
    | some behind => exact hlinked.markTrace behind
  | rotate angle =>
    obtain ⟨_, rotation, rfl⟩ := rotate_eq_changed hchange
    exact h.put_fewer rfl rfl (fun slot target hlink => by cases slot <;> exact hlink)

end LinkExclusive

end Column

/-! ## Sessions -/

namespace Editor

variable {α : Type} [Angle α] {wires columns : Nat}

/-- From a link-exclusive grid, every action of a session leaves a link-exclusive
grid. In it a wire stands for a control exactly when one gate, and no other, has
it as a control, and for a swap partner exactly when one gate has it as its
partner. -/
theorem linkExclusive_session {grid : Grid α wires columns}
    (hgrid : grid.Each Column.LinkExclusive) (actions : List (Action α)) :
    ((start grid).run actions).grid.Each fun column =>
      column.LinkExclusive ∧
      ∀ wire,
        (column.kindAt wire = .control ↔ ∃! gate, (column.get gate).gate?.isSome = true ∧
          (column.get gate).isControlledBy wire = true) ∧
        (column.kindAt wire = .swapPartner ↔ ∃! gate, (column.get gate).gate?.isSome = true ∧
          (column.get gate).partner = some wire.val) := by
  intro column
  have h : (((start grid).run actions).grid.columnAt column).LinkExclusive :=
    run_each .fresh (fun _ _ _ _ h hchange => h.onColumn hchange) hgrid actions column
  exact ⟨h, fun wire => ⟨h.kindAt_eq_control_iff wire, h.kindAt_eq_swapPartner_iff wire⟩⟩

/-- A session that takes one control of the Toffoli gate away, puts it back and
moves it, and then deletes the controlled swap. -/
theorem linkExclusive_session_toffoliAndSwap :
    Grid.toffoliAndSwap.Each Column.LinkExclusive ∧
      ((start Grid.toffoliAndSwap).run [.navigate .down, .navigate .down, .edit .toggleControl,
        .edit .toggleControl, .edit (.moveControl .up), .navigate .down, .navigate .down,
        .navigate .down, .edit .delete]).grid.Each Column.LinkExclusive := by
  have hgrid : Grid.toffoliAndSwap.Each Column.LinkExclusive := by
    show ∀ column : Fin 1, (Grid.toffoliAndSwap.columnAt column).LinkExclusive
    decide
  exact ⟨hgrid, fun column => (linkExclusive_session hgrid _ column).1⟩

end Editor

end CircuitGrid
