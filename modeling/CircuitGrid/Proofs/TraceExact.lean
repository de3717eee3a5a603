import CircuitGrid.Angle.Radians
import CircuitGrid.Proofs.Changes
import CircuitGrid.Proofs.Routing
import CircuitGrid.Proofs.Run

/-!
# Edits keep columns trace-exact

On a trace-exact column every edit is a rerouting: it replaces the node of one
wire, takes up the traces of the old link and lays those of the new one. So no
edit eats the trace of another gate or leaves one of its own behind, and every
column of a session that starts without gates is trace-exact.
-/

namespace CircuitGrid

namespace Column

variable {α : Type} [Angle α] {n : Nat}

section Removing

variable {column : Column α n} {wire : Fin n} {node : Node α}

theorem Fits.of_unlinked
    (halone : ∀ other : Fin n, (column.get other).Spans other wire → other = wire)
    (hplain : node = Node.empty ∨ node.gate?.isSome = true)
    (hsingle : node.controlB = none ∧ node.partner = none) (hnone : node.controlA = none) :
    column.Fits wire node := by
  refine ⟨halone, hplain, hsingle, ?_, ?_⟩
  · intro control hcontrol
    rw [hnone] at hcontrol
    cases hcontrol
  · intro other _ hspans
    exact absurd hspans (Node.not_spans_of_none hnone _ _)

/-- Without links before and after, rerouting is a plain write. -/
theorem reroute_eq_put (hold : (column.get wire).controlA = none) (hnone : node.controlA = none) :
    column.reroute wire node = column.put wire node := by
  refine (eq_reroute (get_put_self column wire node) ?_).symm
  intro other hne
  rw [get_put_of_ne column node hne, if_neg (Node.not_crosses_of_none hnone wire other),
    if_neg (Node.not_crosses_of_none hold wire other)]

/-- A node without a link may be replaced by another one after rerouting. -/
theorem put_reroute {next : Node α} (hnone : node.controlA = none)
    (hnext : next.controlA = none) :
    (column.reroute wire node).put wire next = column.reroute wire next := by
  refine eq_reroute (get_put_self _ wire next) ?_
  intro other hne
  rw [get_put_of_ne _ next hne, get_reroute_of_ne column node hne,
    if_neg (Node.not_crosses_of_none hnone wire other),
    if_neg (Node.not_crosses_of_none hnext wire other)]

/-- On a trace-exact column, clearing the traces of a link takes up exactly these. -/
theorem TraceExact.clearTraces_put (h : column.TraceExact) {control : Nat}
    (hcontrol : (column.get wire).controlA = some control) (hnone : node.controlA = none) :
    (column.clearTraces wire control).put wire node = column.reroute wire node := by
  refine eq_reroute (get_put_self _ wire node) ?_
  intro other hne
  rw [get_put_of_ne _ node hne, get_clearTraces,
    if_neg (Node.not_crosses_of_none hnone wire other)]
  by_cases hcrosses : (column.get wire).Crosses wire other
  · have hbetween := (Node.crosses_iff hcontrol wire other).mp hcrosses
    have htrace := h.trace_of_crosses wire other hcrosses
    rw [if_pos hcrosses, if_pos ⟨hbetween.1, hbetween.2, htrace⟩]
  · rw [if_neg hcrosses, if_neg]
    rintro ⟨hlow, hhigh, _⟩
    exact hcrosses ((Node.crosses_iff hcontrol wire other).mpr ⟨hlow, hhigh⟩)

/-- On a trace-exact column, removing controls takes up the link of the gate. -/
theorem TraceExact.removeControls? (h : column.TraceExact)
    (hcontrols : (column.get wire).hasControls = true) :
    column.removeControls? wire =
      some (column.reroute wire (column.get wire).withoutControls) := by
  have hb := (h.single_link wire).1
  obtain ⟨control, hcontrol⟩ : ∃ control, (column.get wire).controlA = some control := by
    rw [← Option.isSome_iff_exists]
    unfold Node.hasControls at hcontrols
    rw [hb] at hcontrols
    simpa using hcontrols
  have hne := (h.control_valid wire control hcontrol).2.2
  -- the first control is the further one, as there is no second
  have hfurthest : furthestControl? wire (column.get wire) = some control := by
    unfold furthestControl?
    rw [hb, hcontrol, if_pos]
    simp only [controlDistance]
    omega
  unfold Column.removeControls?
  dsimp only
  rw [if_pos hcontrols, hfurthest]
  exact congrArg some (h.clearTraces_put hcontrol rfl)

end Removing

section Linking

variable {column : Column α n} {wire control : Fin n}

/-- A cell that takes a control next to a wire which only one gate spans is met
by no other link either: a link that crosses the cell would reach its neighbours. -/
theorem TraceExact.room_of_acceptsControl (h : column.TraceExact)
    (haccepts : (column.kindAt control).acceptsControl = true) (near : Fin n)
    (hle : near.val ≤ control + 1) (hge : control.val ≤ near + 1)
    (hnear : ∀ other : Fin n, (column.get other).Spans other near → other = wire) :
    ∀ other : Fin n, (column.get other).Spans other control → other = wire := by
  intro other hspans
  rcases kindAt_of_acceptsControl haccepts with hkind | hkind
  · exact absurd hspans ((h.free_of_kindAt_empty hkind).2 other)
  · obtain ⟨gate, hcrosses, _⟩ :=
      h.crosses_of_trace control ((kindAt_eq_trace_iff column control).mp hkind)
    have heq : other = gate := h.spans_disjoint other gate control hspans hcrosses.spans
    subst heq
    exact hnear other (hcrosses.spans_of_near hle hge)

/-- A gate may be linked to a wire that takes a control if the new link crosses
only wires that the old one spans. -/
theorem TraceExact.fits_withControl (h : column.TraceExact)
    (hcontrollable : (column.get wire).isControllable = true)
    (haccepts : (column.kindAt control).acceptsControl = true)
    (hroom : ∀ other : Fin n, (column.get other).Spans other control → other = wire)
    (hway : ∀ other : Fin n, ((column.get wire).withControl control).Crosses wire other →
      (column.get wire).Spans wire other) :
    column.Fits wire ((column.get wire).withControl control) := by
  have hgate := Node.gate?_isSome_of_isControllable hcontrollable
  refine ⟨fun other => h.eq_of_spans_gate hgate, Or.inr hgate, h.single_link wire, ?_, ?_⟩
  · intro candidate hcandidate
    cases hcandidate
    have hne := ne_of_acceptsControl hgate haccepts
    exact ⟨hcontrollable, control.isLt, fun he => hne (Fin.ext he)⟩
  · intro other hne hspans
    by_cases hother : other = control
    · subst hother
      exact ⟨gate?_of_acceptsControl haccepts, hroom⟩
    · have hcrosses : ((column.get wire).withControl control).Crosses wire other := by
        apply hspans.crosses (Fin.val_ne_of_ne hne)
        intro heq
        exact hother (Fin.ext (Option.some.inj heq).symm)
      exact h.way_free_of_spans hne (hway other hcrosses)

/-- Linking a gate reads like rerouting it wherever the old and the new link agree. -/
theorem TraceExact.get_link_eq_reroute (h : column.TraceExact)
    (hgate : (column.get wire).gate?.isSome = true)
    (haccepts : (column.kindAt control).acceptsControl = true)
    (hroom : ∀ other : Fin n, (column.get other).Spans other control → other = wire)
    (other : Fin n)
    (hsame : other = control ∨ (((column.get wire).withControl control).Crosses wire other ↔
      (column.get wire).Crosses wire other)) :
    (column.link wire control).get other =
      (column.reroute wire ((column.get wire).withControl control)).get other := by
  have hne := ne_of_acceptsControl hgate haccepts
  rw [get_link, get_reroute]
  by_cases hwire : other = wire
  · subst hwire
    rw [if_neg hne.symm, if_pos rfl, if_pos rfl]
  rw [if_neg hwire, if_neg hwire]
  by_cases hcontrol : other = control
  · -- the control itself: a trace of the old link is consumed
    subst hcontrol
    have hnew : ¬ ((column.get wire).withControl other).Crosses wire other :=
      fun hcrosses => hcrosses.ne.2 rfl
    rw [if_pos rfl, if_neg hnew]
    split
    · rfl
    · next hold =>
      refine (h.get_of_not_crosses (gate?_of_acceptsControl haccepts) ?_).symm
      intro gate hcrosses
      rw [hroom gate hcrosses.spans] at hcrosses
      exact hold hcrosses
  · rw [if_neg hcontrol]
    have hsame := hsame.resolve_left hcontrol
    by_cases hold : (column.get wire).Crosses wire other
    · rw [if_pos (hsame.mpr hold)]
      exact h.get_of_crosses hold
    · rw [if_neg (fun hnew => hold (hsame.mp hnew)), if_neg hold]

theorem TraceExact.kindAt_left (h : column.TraceExact) {left : Fin n}
    (hleft : (column.get wire).controlA = some left.val) (hne : left ≠ control) :
    (column.link wire control).kindAt left = .empty := by
  have hwire : left ≠ wire :=
    fun he => (h.control_valid wire left hleft).2.2 (congrArg Fin.val he)
  rw [kindAt_eq_empty_iff, get_link, if_neg hne, if_neg hwire]
  refine ⟨h.control_free wire left hleft, ?_⟩
  intro other _ slot hslot
  rw [get_link] at hslot
  by_cases hcontrol : other = control
  · rw [if_pos hcontrol] at hslot
    cases slot <;> cases hslot
  rw [if_neg hcontrol] at hslot
  by_cases hother : other = wire
  · rw [if_pos hother] at hslot
    cases slot with
    | controlA =>
      have heq : some control.val = some left.val := hslot
      exact hne (Fin.ext (Option.some.inj heq).symm)
    | controlB => exact absurd hslot (by simp [Node.link?, Node.withControl, h.single_link wire])
    | partner => exact absurd hslot (by simp [Node.link?, Node.withControl, h.single_link wire])
  · rw [if_neg hother] at hslot
    cases slot with
    | controlA =>
      exact hother (h.spans_disjoint other wire left (Node.spans_control hslot other)
        (Node.spans_control hleft wire))
    | controlB => exact absurd hslot (by simp [Node.link?, h.single_link other])
    | partner => exact absurd hslot (by simp [Node.link?, h.single_link other])

/-- A control placed next to its gate, which had none there or on the other side
of it, crosses nothing. -/
theorem TraceExact.link_next_to_gate (h : column.TraceExact)
    (hcontrollable : (column.get wire).isControllable = true)
    (haccepts : (column.kindAt control).acceptsControl = true)
    (hnear : control.val + 1 = wire ∨ control.val = wire + 1)
    (hold : ∀ other : Fin n, ¬ (column.get wire).Crosses wire other) :
    column.Fits wire ((column.get wire).withControl control) ∧
      column.link wire control = column.reroute wire ((column.get wire).withControl control) := by
  have hgate := Node.gate?_isSome_of_isControllable hcontrollable
  have hroom := h.room_of_acceptsControl haccepts wire (by omega) (by omega)
    (fun other => h.eq_of_spans_gate hgate)
  have hnew : ∀ other : Fin n, ¬ ((column.get wire).withControl control).Crosses wire other := by
    intro other hcrosses
    have hbetween := (Node.crosses_iff rfl wire other).mp hcrosses
    omega
  refine ⟨h.fits_withControl hcontrollable haccepts hroom
    (fun other hcrosses => absurd hcrosses (hnew other)), ?_⟩
  apply ext_get
  intro other
  exact h.get_link_eq_reroute hgate haccepts hroom other
    (Or.inr ⟨fun hcrosses => absurd hcrosses (hnew other),
      fun hcrosses => absurd hcrosses (hold other)⟩)

/-- A control that steps towards its gate consumes the trace it lands on. -/
theorem TraceExact.link_towards (h : column.TraceExact)
    (hcontrollable : (column.get wire).isControllable = true)
    (haccepts : (column.kindAt control).acceptsControl = true) {old : Fin n}
    (hold : (column.get wire).controlA = some old.val)
    (hnear : control.val = old + 1 ∨ old.val = control + 1)
    (hbetween : min wire.val old < control ∧ control.val < max wire.val old) :
    column.Fits wire ((column.get wire).withControl control) ∧
      column.link wire control = column.reroute wire ((column.get wire).withControl control) := by
  have hgate := Node.gate?_isSome_of_isControllable hcontrollable
  have hroom := h.room_of_acceptsControl haccepts old (by omega) (by omega)
    (fun other hother => h.spans_disjoint other wire old hother (Node.spans_control hold wire))
  -- the links cross the same wires, but for the new control
  have hsame : ∀ other : Fin n, other ≠ control →
      (((column.get wire).withControl control).Crosses wire other ↔
        (column.get wire).Crosses wire other) := by
    intro other hne
    have hne := Fin.val_ne_of_ne hne
    rw [Node.crosses_iff rfl, Node.crosses_iff hold]
    omega
  constructor
  · apply h.fits_withControl hcontrollable haccepts hroom
    intro other hcrosses
    have hne : other ≠ control := fun he => hcrosses.ne.2 (by rw [he]; rfl)
    exact ((hsame other hne).mp hcrosses).spans
  · apply ext_get
    intro other
    apply h.get_link_eq_reroute hgate haccepts hroom
    by_cases hne : other = control
    · exact Or.inl hne
    · exact Or.inr (hsame other hne)

/-- A control that steps away from its gate leaves a trace on the wire it leaves. -/
theorem TraceExact.link_away (h : column.TraceExact)
    (hcontrollable : (column.get wire).isControllable = true)
    (haccepts : (column.kindAt control).acceptsControl = true) {old : Fin n}
    (hold : (column.get wire).controlA = some old.val)
    (hnear : control.val = old + 1 ∨ old.val = control + 1)
    (hbetween : min wire.val control < old ∧ old.val < max wire.val control) :
    column.Fits wire ((column.get wire).withControl control) ∧
      (column.link wire control).markTrace old =
        column.reroute wire ((column.get wire).withControl control) := by
  have hgate := Node.gate?_isSome_of_isControllable hcontrollable
  have hroom := h.room_of_acceptsControl haccepts old (by omega) (by omega)
    (fun other hother => h.spans_disjoint other wire old hother (Node.spans_control hold wire))
  have hne : old ≠ control := by
    intro he
    rw [he] at hbetween
    omega
  constructor
  · apply h.fits_withControl hcontrollable haccepts hroom
    intro other hcrosses
    have hnew := (Node.crosses_iff rfl wire other).mp hcrosses
    rw [Node.spans_iff hold]
    omega
  · apply ext_get
    intro other
    rw [get_markTrace]
    by_cases hother : other = old
    · -- the wire left behind is crossed by the new link
      subst hother
      rw [if_pos ⟨rfl, h.kindAt_left hold hne⟩, get_reroute, if_neg, if_pos]
      · exact (Node.crosses_iff rfl wire other).mpr hbetween
      · intro he
        rw [he] at hbetween
        omega
    · have hval := Fin.val_ne_of_ne hother
      rw [if_neg (fun hleft => hval hleft.1)]
      apply h.get_link_eq_reroute hgate haccepts hroom
      by_cases hcontrol : other = control
      · exact Or.inl hcontrol
      · right
        have hcontrol := Fin.val_ne_of_ne hcontrol
        rw [Node.crosses_iff rfl, Node.crosses_iff hold]
        omega

end Linking

/-! ## The edits as reroutings -/

namespace TraceExact

variable {column nodes : Column α n} {wire : Fin n}

theorem placeGate_eq_reroute (h : column.TraceExact) {gate : Gate}
    (hchange : column.placeGate wire gate = .changed nodes) :
    column.Fits wire (Node.ofGate gate) ∧ nodes = column.reroute wire (Node.ofGate gate) := by
  obtain ⟨hkind, _, rfl⟩ := placeGate_eq_changed hchange
  obtain ⟨hnone, hfree⟩ := h.free_of_kindAt_empty hkind
  refine ⟨.of_unlinked (fun other hspans => absurd hspans (hfree other)) (Or.inr rfl) ⟨rfl, rfl⟩
    rfl, ?_⟩
  exact (reroute_eq_put (h.controlA_of_gate?_eq_none hnone) rfl).symm

theorem fits_empty (h : column.TraceExact) (hgate : (column.get wire).gate?.isSome = true) :
    column.Fits wire Node.empty :=
  .of_unlinked (fun _ => h.eq_of_spans_gate hgate) (Or.inl rfl) ⟨rfl, rfl⟩ rfl

/-- Deleting a gate reroutes its wire to the empty node. -/
theorem delete_of_gate_eq_reroute (h : column.TraceExact) {gate : Gate}
    (hkind : column.kindAt wire = .gate gate) :
    column.delete wire = .changed (column.reroute wire Node.empty) := by
  rw [delete_of_gate hkind]
  congr 1
  cases hcontrols : (column.get wire).hasControls with
  | true =>
    rw [h.removeControls? hcontrols]
    exact put_reroute rfl rfl
  | false =>
    have hnone := ((Node.hasControls_eq_false_iff _).mp hcontrols).1
    have hremove : column.removeControls? wire = none := by
      unfold Column.removeControls?
      dsimp only
      rw [hcontrols]
      rfl
    rw [hremove]
    exact (reroute_eq_put hnone rfl).symm

/-- Deleting at a marker reroutes the owner to its node without controls. -/
theorem removeControls?_eq_reroute (h : column.TraceExact)
    (hremove : column.removeControls? wire = some nodes) :
    column.Fits wire (column.get wire).withoutControls ∧
      nodes = column.reroute wire (column.get wire).withoutControls := by
  obtain ⟨hcontrols, _⟩ := removeControls?_eq_some hremove
  rw [h.removeControls? hcontrols] at hremove
  have hgate : (column.get wire).gate?.isSome = true := by
    cases hnone : (column.get wire).gate? with
    | some g => rfl
    | none =>
      have hfalse := (Node.hasControls_eq_false_iff (column.get wire)).mpr
        ⟨h.controlA_of_gate?_eq_none hnone, (h.single_link wire).1⟩
      rw [hfalse] at hcontrols
      cases hcontrols
  refine ⟨.of_unlinked (fun _ => h.eq_of_spans_gate hgate) (Or.inr hgate)
    ⟨rfl, (h.single_link wire).2⟩ rfl, (Option.some.inj hremove).symm⟩

theorem toggleControl_eq_reroute (h : column.TraceExact)
    (hchange : column.toggleControl wire = .changed nodes) :
    ∃ control, column.Fits wire { column.get wire with controlA := control } ∧
      nodes = column.reroute wire { column.get wire with controlA := control } := by
  obtain ⟨hcontrollable, hcases⟩ := toggleControl_eq_changed hchange
  have hgate := Node.gate?_isSome_of_isControllable hcontrollable
  rcases hcases with ⟨control, hcontrol, rfl⟩ | ⟨candidate, hnone, _, hnear, hplaced⟩
  · -- the control goes
    refine ⟨none, ?_, h.clearTraces_put hcontrol rfl⟩
    exact .of_unlinked (fun _ => h.eq_of_spans_gate hgate) (Or.inr hgate) (h.single_link wire) rfl
  · -- a control comes
    obtain ⟨control, rfl, haccepts, rfl⟩ := placeControl_eq_placed hplaced
    exact ⟨some control, h.link_next_to_gate hcontrollable haccepts hnear
      (fun other => Node.not_crosses_of_none hnone wire other)⟩

/-- The wire of a gate is never marked as a trace. -/
theorem markTrace_gate {gate control : Fin n} (hgate : (column.get gate).gate?.isSome = true)
    (hne : control ≠ gate) :
    (column.link gate control).markTrace gate = column.link gate control := by
  apply ext_get
  intro other
  rw [get_markTrace, if_neg]
  rintro ⟨heq, hkind⟩
  have heq := Fin.ext heq
  subst heq
  have hcontent := ((kindAt_eq_empty_iff _ _).mp hkind).1
  have hnone := (Node.gate?_eq_none_iff _).mpr (Or.inl hcontent)
  rw [get_link, if_neg hne.symm, if_pos rfl] at hnone
  have hnone : (column.get other).gate? = none := hnone
  rw [hnone] at hgate
  cases hgate

/-- A move reroutes the gate to the wire on which its control lands. -/
theorem exists_moveControl_eq_reroute (h : column.TraceExact) {direction : Direction}
    (hchange : column.moveControl wire direction = .changed nodes) :
    ∃ old control : Fin n, (column.get wire).controlA = some old.val ∧
      controlStep? wire old direction = some control.val ∧
      column.Fits wire ((column.get wire).withControl control) ∧
      nodes = column.reroute wire ((column.get wire).withControl control) := by
  obtain ⟨hcontrollable, old, candidate, placed, hold, hlt, hstep, hplaced, rfl⟩ :=
    moveControl_eq_changed hchange
  have hgate := Node.gate?_isSome_of_isControllable hcontrollable
  obtain ⟨old, rfl⟩ : ∃ wire : Fin n, wire.val = old := ⟨⟨old, hlt⟩, rfl⟩
  obtain ⟨control, rfl, haccepts, rfl⟩ := placeControl_eq_placed hplaced
  refine ⟨old, control, hold, hstep, ?_⟩
  have holdwire := (h.control_valid wire old hold).2.2
  rcases controlStep?_eq_some holdwire hstep with
    ⟨hlow, hhigh, hnear, hbehind⟩ | ⟨hlow, hhigh, hnear, hbehind⟩ | ⟨hnear, hbehind⟩
  · -- away from the gate
    rw [hbehind]
    exact h.link_away hcontrollable haccepts hold hnear ⟨hlow, hhigh⟩
  · -- towards the gate
    rw [hbehind]
    exact h.link_towards hcontrollable haccepts hold hnear ⟨hlow, hhigh⟩
  · -- over the gate: both controls are next to it
    rw [hbehind]
    show _ ∧ (column.link wire control).markTrace wire = _
    rw [markTrace_gate hgate (ne_of_acceptsControl hgate haccepts)]
    apply h.link_next_to_gate hcontrollable haccepts (by omega)
    intro other hcrosses
    have hbetween := (Node.crosses_iff hold wire other).mp hcrosses
    omega

theorem moveControl_eq_reroute (h : column.TraceExact) {direction : Direction}
    (hchange : column.moveControl wire direction = .changed nodes) :
    ∃ control, column.Fits wire { column.get wire with controlA := control } ∧
      nodes = column.reroute wire { column.get wire with controlA := control } := by
  obtain ⟨_, control, _, _, hfits, heq⟩ := h.exists_moveControl_eq_reroute hchange
  exact ⟨some control, hfits, heq⟩

theorem rotate_eq_reroute (h : column.TraceExact) {angle : α}
    (hchange : column.rotate wire angle = .changed nodes) :
    ∃ rotation, column.Fits wire { column.get wire with rotation } ∧
      nodes = column.reroute wire { column.get wire with rotation } := by
  obtain ⟨hgate, rotation, rfl⟩ := rotate_eq_changed hchange
  refine ⟨rotation, ⟨fun other => h.eq_of_spans_gate hgate, Or.inr hgate, h.single_link wire,
    h.control_valid wire, fun other => h.way_free_of_spans⟩, ?_⟩
  -- old link and new link cross the same wires, all of which hold traces
  refine eq_reroute (get_put_self column wire _) ?_
  intro other hne
  rw [get_put_of_ne column _ hne]
  split
  · next hcrosses => exact h.get_of_crosses hcrosses
  · next hcrosses => exact (if_neg hcrosses).symm

/-- Every edit keeps a column trace-exact. -/
theorem onColumn (h : column.TraceExact) {edit : Edit α}
    (hchange : edit.onColumn column wire = .changed nodes) : nodes.TraceExact := by
  cases edit with
  | placeGate gate =>
    obtain ⟨hfits, rfl⟩ := h.placeGate_eq_reroute hchange
    exact h.reroute hfits
  | delete =>
    rcases delete_eq_changed hchange with ⟨gate, hkind, _⟩ | ⟨owner, _, _, hremove⟩
    · have hgate : (column.get wire).gate?.isSome = true := by
        rw [(Node.gate?_eq_some_iff _ gate).mpr ((kindAt_eq_gate_iff _ _ gate).mp hkind)]
        rfl
      have heq : ColumnEdit.changed nodes = .changed (column.reroute wire Node.empty) :=
        hchange.symm.trans (h.delete_of_gate_eq_reroute hkind)
      cases heq
      exact h.reroute (h.fits_empty hgate)
    · obtain ⟨hfits, rfl⟩ := h.removeControls?_eq_reroute hremove
      exact h.reroute hfits
  | toggleControl =>
    obtain ⟨control, hfits, rfl⟩ := h.toggleControl_eq_reroute hchange
    exact h.reroute hfits
  | moveControl direction =>
    obtain ⟨control, hfits, rfl⟩ := h.moveControl_eq_reroute hchange
    exact h.reroute hfits
  | rotate angle =>
    obtain ⟨rotation, hfits, rfl⟩ := h.rotate_eq_reroute hchange
    exact h.reroute hfits

end TraceExact

end Column

/-! ## Sessions -/

namespace Editor

variable {α : Type} [Angle α] {wires columns : Nat}

theorem traceExact_run {editor : Editor α wires columns}
    (hgrid : editor.grid.Each Column.TraceExact) (actions : List (Action α)) :
    (editor.run actions).grid.Each Column.TraceExact :=
  run_each .fresh (fun _ _ _ _ h hchange => h.onColumn hchange) hgrid actions

/-- Whatever the actions of a session that starts without gates, its columns are
trace-exact. -/
theorem traceExact_run_start {grid : Grid α wires columns}
    (hgrid : Grid.empty? wires columns = .ok grid) (actions : List (Action α)) :
    ((start grid).run actions).grid.Each Column.TraceExact := by
  refine traceExact_run ?_ actions
  intro column
  show (grid.columnAt column).TraceExact
  rw [Grid.columnAt_of_empty? hgrid]
  exact .fresh

/-- Sessions exist for all valid sizes, and whatever actions they consist of,
every column is trace-exact after them. -/
theorem traceExact_session (hwires : 0 < wires ∧ wires ≤ maxWires)
    (hcolumns : 0 < columns ∧ columns ≤ maxColumns) :
    ∃ grid : Grid α wires columns, Grid.empty? wires columns = .ok grid ∧
      ∀ (actions : List (Action α)) (column : Fin columns),
        (((start grid).run actions).grid.columnAt column).TraceExact := by
  obtain ⟨grid, hgrid⟩ := Grid.empty?_eq_ok (α := α) hwires hcolumns
  refine ⟨grid, hgrid, ?_⟩
  intro actions column
  exact traceExact_run_start hgrid actions column

theorem traceExact_session_four_by_two :
    (0 < 4 ∧ 4 ≤ maxWires) ∧ (0 < 2 ∧ 2 ≤ maxColumns) ∧
      ∃ grid : Grid Float 4 2, Grid.empty? 4 2 = .ok grid ∧
        ∀ (actions : List (Action Float)) (column : Fin 2),
          (((start grid).run actions).grid.columnAt column).TraceExact :=
  ⟨by decide, by decide, traceExact_session (by decide) (by decide)⟩

end Editor

end CircuitGrid
