import CircuitGrid.Proofs.Cells
import Mathlib.Logic.ExistsUnique

/-!
# Routing: control links and their traces

The control link of a gate spans the wires from the gate to its control and
crosses those strictly between. A column is *trace-exact* if the spans of its
gates keep clear of each other and the stored traces are exactly the crossed
wires (`Column.TraceExact`). Everything between the gates is then determined by
the gates.

`Column.reroute` replaces the node of one wire and lays the traces of its link
anew. It keeps a column trace-exact whenever the new link fits
(`Column.TraceExact.reroute`); the edits turn out to be such replacements.
-/

namespace CircuitGrid

/-! ## Spans -/

namespace Node

variable {α : Type}

/-- The control link of a node on wire `gate` reaches from it to the control
and covers `wire`, an end or a wire between. -/
def Spans (node : Node α) (gate wire : Nat) : Prop :=
  ∃ control, node.controlA = some control ∧ min gate control ≤ wire ∧ wire ≤ max gate control

/-- The control link of a node on wire `gate` passes through `wire`, strictly
between the gate and its control. -/
def Crosses (node : Node α) (gate wire : Nat) : Prop :=
  ∃ control, node.controlA = some control ∧ min gate control < wire ∧ wire < max gate control

theorem spans_iff {node : Node α} {control : Nat} (h : node.controlA = some control)
    (gate wire : Nat) :
    node.Spans gate wire ↔ min gate control ≤ wire ∧ wire ≤ max gate control := by
  constructor
  · rintro ⟨control', heq, hbetween⟩
    rw [h] at heq
    cases heq
    exact hbetween
  · intro hbetween
    exact ⟨control, h, hbetween⟩

theorem crosses_iff {node : Node α} {control : Nat} (h : node.controlA = some control)
    (gate wire : Nat) :
    node.Crosses gate wire ↔ min gate control < wire ∧ wire < max gate control := by
  constructor
  · rintro ⟨control', heq, hbetween⟩
    rw [h] at heq
    cases heq
    exact hbetween
  · intro hbetween
    exact ⟨control, h, hbetween⟩

instance (node : Node α) (gate wire : Nat) : Decidable (node.Crosses gate wire) :=
  match h : node.controlA with
  | none => isFalse (by
      rintro ⟨control, hcontrol, _⟩
      rw [h] at hcontrol
      cases hcontrol)
  | some control => decidable_of_iff _ (crosses_iff h gate wire).symm

theorem Crosses.spans {node : Node α} {gate wire : Nat} (h : node.Crosses gate wire) :
    node.Spans gate wire := by
  obtain ⟨control, hcontrol, hlow, hhigh⟩ := h
  exact ⟨control, hcontrol, by omega, by omega⟩

theorem Crosses.ne {node : Node α} {gate wire : Nat} (h : node.Crosses gate wire) :
    wire ≠ gate ∧ node.controlA ≠ some wire := by
  obtain ⟨control, hcontrol, hlow, hhigh⟩ := h
  refine ⟨by omega, ?_⟩
  intro hwire
  rw [hcontrol] at hwire
  cases hwire
  omega

theorem Crosses.spans_of_near {node : Node α} {gate wire near : Nat}
    (h : node.Crosses gate wire) (hle : near ≤ wire + 1) (hge : wire ≤ near + 1) :
    node.Spans gate near := by
  obtain ⟨control, hcontrol, hlow, hhigh⟩ := h
  exact ⟨control, hcontrol, by omega, by omega⟩

theorem spans_gate {node : Node α} {control : Nat} (h : node.controlA = some control)
    (gate : Nat) : node.Spans gate gate :=
  ⟨control, h, Nat.min_le_left _ _, Nat.le_max_left _ _⟩

theorem spans_control {node : Node α} {control : Nat} (h : node.controlA = some control)
    (gate : Nat) : node.Spans gate control :=
  ⟨control, h, Nat.min_le_right _ _, Nat.le_max_right _ _⟩

theorem not_spans_of_none {node : Node α} (h : node.controlA = none) (gate wire : Nat) :
    ¬ node.Spans gate wire := by
  rintro ⟨control, hcontrol, _⟩
  rw [h] at hcontrol
  cases hcontrol

theorem not_crosses_of_none {node : Node α} (h : node.controlA = none) (gate wire : Nat) :
    ¬ node.Crosses gate wire :=
  fun hcrosses => not_spans_of_none h gate wire hcrosses.spans

theorem Spans.crosses {node : Node α} {gate wire : Nat} (h : node.Spans gate wire)
    (hgate : wire ≠ gate) (hcontrol : node.controlA ≠ some wire) : node.Crosses gate wire := by
  obtain ⟨control, heq, hlow, hhigh⟩ := h
  have hne : wire ≠ control := fun he => hcontrol (he ▸ heq)
  exact ⟨control, heq, by omega, by omega⟩

theorem spans_congr {node other : Node α} (h : node.controlA = other.controlA)
    (gate wire : Nat) : node.Spans gate wire ↔ other.Spans gate wire := by
  unfold Spans
  rw [h]

theorem crosses_congr {node other : Node α} (h : node.controlA = other.controlA)
    (gate wire : Nat) : node.Crosses gate wire ↔ other.Crosses gate wire := by
  unfold Crosses
  rw [h]

end Node

/-! ## Trace-exact columns -/

namespace Column

variable {α : Type} [Angle α] {n : Nat}

/-- A column whose gates are linked by first controls only, whose links keep
clear of each other and of other gates, and whose traces are exactly the crossed
wires. -/
structure TraceExact (column : Column α n) : Prop where
  /-- A node that stores nothing is the default one. -/
  empty_default : ∀ wire, (column.get wire).content = .empty → column.get wire = Node.empty
  /-- A trace is the default one. -/
  trace_default : ∀ wire, (column.get wire).content = .trace → column.get wire = Node.trace
  /-- No node has a second control or a partner. -/
  single_link : ∀ wire, (column.get wire).controlB = none ∧ (column.get wire).partner = none
  /-- Only gates that take controls have one, and it names another wire of the column. -/
  control_valid : ∀ gate control, (column.get gate).controlA = some control →
    (column.get gate).isControllable = true ∧ control < n ∧ control ≠ gate
  /-- The spans of two gates have no wire in common. -/
  spans_disjoint : ∀ gate other wire : Fin n, (column.get gate).Spans gate wire →
    (column.get other).Spans other wire → gate = other
  /-- No gate but its own sits on the span of a gate. -/
  spans_gate_free : ∀ gate wire : Fin n, (column.get gate).Spans gate wire →
    (column.get wire).gate?.isSome = true → wire = gate
  /-- A control wire stores nothing. -/
  control_free : ∀ gate control : Fin n, (column.get gate).controlA = some control.val →
    (column.get control).content = .empty
  /-- A crossed wire holds a trace. -/
  trace_of_crosses : ∀ gate wire : Fin n, (column.get gate).Crosses gate wire →
    (column.get wire).content = .trace
  /-- A trace is crossed by exactly one gate's link. -/
  crosses_of_trace : ∀ wire : Fin n, (column.get wire).content = .trace →
    ∃! gate : Fin n, (column.get gate).Crosses gate wire

/-- The conditions on gates, and what the other cells hold, make a column trace-exact. -/
theorem TraceExact.of_gates {column : Column α n}
    (hcells : ∀ wire : Fin n, (column.get wire).gate? = none →
      (column.get wire = Node.trace ∧ ∃ gate : Fin n, (column.get gate).Crosses gate wire) ∨
      (column.get wire = Node.empty ∧ ∀ gate : Fin n, ¬ (column.get gate).Crosses gate wire))
    (hsingle : ∀ wire, (column.get wire).controlB = none ∧ (column.get wire).partner = none)
    (hvalid : ∀ gate control, (column.get gate).controlA = some control →
      (column.get gate).isControllable = true ∧ control < n ∧ control ≠ gate)
    (hdisjoint : ∀ gate other wire : Fin n, (column.get gate).Spans gate wire →
      (column.get other).Spans other wire → gate = other)
    (hgate : ∀ gate wire : Fin n, (column.get gate).Spans gate wire →
      (column.get wire).gate?.isSome = true → wire = gate) :
    column.TraceExact := by
  have hnone : ∀ gate wire : Fin n, (column.get gate).Spans gate wire → wire ≠ gate →
      (column.get wire).gate? = none := by
    intro gate wire hspans hne
    rw [← Option.not_isSome_iff_eq_none]
    exact fun hsome => hne (hgate gate wire hspans hsome)
  refine ⟨?_, ?_, hsingle, hvalid, hdisjoint, hgate, ?_, ?_, ?_⟩
  · -- empty_default
    intro wire hcontent
    rcases hcells wire ((Node.gate?_eq_none_iff _).mpr (Or.inl hcontent)) with h | h
    · rw [h.1] at hcontent
      cases hcontent
    · exact h.1
  · -- trace_default
    intro wire hcontent
    rcases hcells wire ((Node.gate?_eq_none_iff _).mpr (Or.inr hcontent)) with h | h
    · exact h.1
    · rw [h.1] at hcontent
      cases hcontent
  · -- control_free: a second link through the control would share it
    intro gate control hcontrol
    have hne : control ≠ gate := fun he => (hvalid gate control hcontrol).2.2 (congrArg Fin.val he)
    have hspans := Node.spans_control hcontrol gate.val
    rcases hcells control (hnone gate control hspans hne) with ⟨_, other, hcrosses⟩ | h
    · have heq : other = gate := hdisjoint other gate control hcrosses.spans hspans
      subst heq
      exact absurd hcontrol hcrosses.ne.2
    · rw [h.1]
      rfl
  · -- trace_of_crosses
    intro gate wire hcrosses
    have hne : wire ≠ gate := fun he => hcrosses.ne.1 (congrArg Fin.val he)
    rcases hcells wire (hnone gate wire hcrosses.spans hne) with h | h
    · rw [h.1]
      rfl
    · exact absurd hcrosses (h.2 gate)
  · -- crosses_of_trace
    intro wire hcontent
    rcases hcells wire ((Node.gate?_eq_none_iff _).mpr (Or.inr hcontent)) with h | h
    · obtain ⟨gate, hcrosses⟩ := h.2
      exact ⟨gate, hcrosses,
        fun other hother => hdisjoint other gate wire hother.spans hcrosses.spans⟩
    · rw [h.1] at hcontent
      cases hcontent

namespace TraceExact

variable {column : Column α n}

theorem fresh : TraceExact (Vector.replicate n (Node.empty : Node α)) := by
  have hlink : ∀ wire : Fin n,
      ((Vector.replicate n (Node.empty : Node α)).get wire).controlA = none := by
    intro wire
    rw [get_fresh]
    rfl
  apply TraceExact.of_gates
  · intro wire _
    right
    refine ⟨get_fresh wire, ?_⟩
    intro gate
    exact Node.not_crosses_of_none (hlink gate) _ _
  · intro wire
    rw [get_fresh]
    exact ⟨rfl, rfl⟩
  · intro gate control h
    rw [hlink gate] at h
    cases h
  · intro gate other wire hspans
    exact absurd hspans (Node.not_spans_of_none (hlink gate) _ _)
  · intro gate wire hspans
    exact absurd hspans (Node.not_spans_of_none (hlink gate) _ _)

theorem isSome_of_spans (h : column.TraceExact) {gate : Fin n} {wire : Nat}
    (hspans : (column.get gate).Spans gate wire) : (column.get gate).gate?.isSome = true := by
  obtain ⟨control, hcontrol, _⟩ := hspans
  exact Node.gate?_isSome_of_isControllable (h.control_valid gate control hcontrol).1

theorem controlA_of_gate?_eq_none (h : column.TraceExact) {wire : Fin n}
    (hnone : (column.get wire).gate? = none) : (column.get wire).controlA = none := by
  cases hcontrol : (column.get wire).controlA with
  | none => rfl
  | some control =>
    have hsome := h.isSome_of_spans (Node.spans_gate hcontrol wire)
    rw [hnone] at hsome
    cases hsome

theorem get_of_crosses (h : column.TraceExact) {gate wire : Fin n}
    (hcrosses : (column.get gate).Crosses gate wire) : column.get wire = Node.trace :=
  h.trace_default wire (h.trace_of_crosses gate wire hcrosses)

theorem get_of_not_crosses (h : column.TraceExact) {wire : Fin n}
    (hnone : (column.get wire).gate? = none)
    (hcrosses : ∀ gate : Fin n, ¬ (column.get gate).Crosses gate wire) :
    column.get wire = Node.empty := by
  rcases (Node.gate?_eq_none_iff _).mp hnone with hcontent | hcontent
  · exact h.empty_default wire hcontent
  · obtain ⟨gate, hgate, _⟩ := h.crosses_of_trace wire hcontent
    exact absurd hgate (hcrosses gate)

/-- What a cell without a gate holds is decided by the links. -/
theorem get_of_gate?_eq_none (h : column.TraceExact) {wire : Fin n}
    (hnone : (column.get wire).gate? = none) :
    (column.get wire = Node.trace ∧ ∃ gate : Fin n, (column.get gate).Crosses gate wire) ∨
    (column.get wire = Node.empty ∧ ∀ gate : Fin n, ¬ (column.get gate).Crosses gate wire) := by
  by_cases hcrosses : ∃ gate : Fin n, (column.get gate).Crosses gate wire
  · obtain ⟨gate, hgate⟩ := hcrosses
    exact Or.inl ⟨h.get_of_crosses hgate, gate, hgate⟩
  · have hnot : ∀ gate : Fin n, ¬ (column.get gate).Crosses gate wire :=
      fun gate hgate => hcrosses ⟨gate, hgate⟩
    exact Or.inr ⟨h.get_of_not_crosses hnone hnot, hnot⟩

/-- Between the gates, trace-exact columns with the same links hold the same. -/
theorem get_eq_of_links {other : Column α n} (h : column.TraceExact) (hother : other.TraceExact)
    (hlinks : ∀ wire, (other.get wire).controlA = (column.get wire).controlA) {wire : Fin n}
    (hnone : (column.get wire).gate? = none) (hnone' : (other.get wire).gate? = none) :
    other.get wire = column.get wire := by
  rcases h.get_of_gate?_eq_none hnone with ⟨heq, gate, hgate⟩ | ⟨heq, hgate⟩
  · rw [heq, hother.get_of_crosses ((Node.crosses_congr (hlinks gate) _ _).mpr hgate)]
  · rw [heq, hother.get_of_not_crosses hnone']
    exact fun gate hcrosses => hgate gate ((Node.crosses_congr (hlinks gate) _ _).mp hcrosses)

theorem eq_of_spans_gate (h : column.TraceExact) {gate other : Fin n}
    (hgate : (column.get gate).gate?.isSome = true)
    (hspans : (column.get other).Spans other gate) : other = gate :=
  (h.spans_gate_free other gate hspans hgate).symm

/-- What a link spans, but for its gate, is no gate and spanned by no other link. -/
theorem way_free_of_spans (h : column.TraceExact) {gate wire : Fin n} (hne : wire ≠ gate)
    (hspans : (column.get gate).Spans gate wire) : (column.get wire).gate? = none ∧
      ∀ other : Fin n, (column.get other).Spans other wire → other = gate := by
  constructor
  · rw [← Option.not_isSome_iff_eq_none]
    exact fun hsome => hne (h.spans_gate_free gate wire hspans hsome)
  · intro other hother
    exact h.spans_disjoint other gate wire hother hspans

/-- A free cell stores no gate and is spanned by no link. -/
theorem free_of_kindAt_empty (h : column.TraceExact) {wire : Fin n}
    (hkind : column.kindAt wire = .empty) : (column.get wire).gate? = none ∧
      ∀ gate : Fin n, ¬ (column.get gate).Spans gate wire := by
  obtain ⟨hcontent, hunlinked⟩ := (kindAt_eq_empty_iff column wire).mp hkind
  have hnone := (Node.gate?_eq_none_iff _).mpr (Or.inl hcontent)
  refine ⟨hnone, ?_⟩
  intro gate hspans
  have hne : wire ≠ gate := by
    intro he
    subst he
    have hsome := h.isSome_of_spans hspans
    rw [hnone] at hsome
    cases hsome
  -- an end of the link would carry a marker, a wire inside it a trace
  have hcrosses : (column.get gate).Crosses gate wire :=
    hspans.crosses (fun he => hne (Fin.ext he)) (hunlinked gate hne.symm .controlA)
  have htrace := h.trace_of_crosses gate wire hcrosses
  rw [hcontent] at htrace
  cases htrace

end TraceExact

/-- Another column has the same gates on all wires but one. -/
def KeepsGates (column : Column α n) (wire : Fin n) (other : Column α n) : Prop :=
  ∀ place, place ≠ wire →
    (column.get place).gate?.isSome = true ∨ (other.get place).gate?.isSome = true →
      other.get place = column.get place

omit [Angle α] in
theorem KeepsGates.refl (column : Column α n) (wire : Fin n) : column.KeepsGates wire column :=
  fun _ _ _ => rfl

omit [Angle α] in
theorem KeepsGates.trans {column middle other : Column α n} {wire : Fin n}
    (hfirst : column.KeepsGates wire middle) (hsecond : middle.KeepsGates wire other) :
    column.KeepsGates wire other := by
  intro place hne hsome
  -- a gate at either end of the chain is in the middle as well
  rcases hsome with hsome | hsome
  · have hmiddle := hfirst place hne (Or.inl hsome)
    rw [hsecond place hne (Or.inl (hmiddle ▸ hsome)), hmiddle]
  · have hother := hsecond place hne (Or.inr hsome)
    rw [hother, hfirst place hne (Or.inr (hother ▸ hsome))]

/-- A trace-exact column is determined by its gates: one that keeps the other
gates and the link of `wire` differs on that wire alone. -/
theorem TraceExact.eq_put {column other : Column α n} (h : column.TraceExact)
    (hother : other.TraceExact) {wire : Fin n} (hgates : column.KeepsGates wire other)
    (hlink : (other.get wire).controlA = (column.get wire).controlA) :
    other = column.put wire (other.get wire) := by
  have hcases : ∀ place, place ≠ wire → other.get place = column.get place ∨
      ((column.get place).gate? = none ∧ (other.get place).gate? = none) := by
    intro place hne
    by_cases hsome : (column.get place).gate?.isSome = true ∨ (other.get place).gate?.isSome = true
    · exact Or.inl (hgates place hne hsome)
    · simp only [not_or, Option.not_isSome_iff_eq_none] at hsome
      exact Or.inr hsome
  -- so all links agree, and with them what the cells between the gates hold
  have hlinks : ∀ place, (other.get place).controlA = (column.get place).controlA := by
    intro place
    by_cases hplace : place = wire
    · rw [hplace, hlink]
    · rcases hcases place hplace with heq | ⟨hnone, hnone'⟩
      · rw [heq]
      · rw [h.controlA_of_gate?_eq_none hnone, hother.controlA_of_gate?_eq_none hnone']
  apply ext_get
  intro place
  rw [get_put]
  by_cases hplace : place = wire
  · rw [if_pos hplace, hplace]
  · rw [if_neg hplace]
    rcases hcases place hplace with heq | ⟨hnone, hnone'⟩
    · exact heq
    · exact h.get_eq_of_links hother hlinks hnone hnone'

/-! ## Rerouting -/

/-- The column with another node on wire `gate`, the traces of the old link
taken up and those of the new one laid. -/
def reroute (column : Column α n) (gate : Fin n) (node : Node α) : Column α n :=
  Vector.ofFn fun wire =>
    if wire = gate then node
    else if node.Crosses gate wire then Node.trace
    else if (column.get gate).Crosses gate wire then Node.empty
    else column.get wire

theorem get_reroute (column : Column α n) (gate wire : Fin n) (node : Node α) :
    (column.reroute gate node).get wire =
      if wire = gate then node
      else if node.Crosses gate wire then Node.trace
      else if (column.get gate).Crosses gate wire then Node.empty
      else column.get wire :=
  Vector.getElem_ofFn wire.isLt

@[simp] theorem get_reroute_self (column : Column α n) (gate : Fin n) (node : Node α) :
    (column.reroute gate node).get gate = node := by
  rw [get_reroute, if_pos rfl]

theorem get_reroute_of_ne (column : Column α n) {gate wire : Fin n} (node : Node α)
    (h : wire ≠ gate) :
    (column.reroute gate node).get wire =
      if node.Crosses gate wire then Node.trace
      else if (column.get gate).Crosses gate wire then Node.empty
      else column.get wire := by
  rw [get_reroute, if_neg h]

/-- A column is rerouted if it has the node on its wire and the traces elsewhere. -/
theorem eq_reroute {column other : Column α n} {gate : Fin n} {node : Node α}
    (hself : other.get gate = node)
    (hrest : ∀ wire, wire ≠ gate → other.get wire =
      if node.Crosses gate wire then Node.trace
      else if (column.get gate).Crosses gate wire then Node.empty
      else column.get wire) :
    other = column.reroute gate node := by
  apply ext_get
  intro wire
  by_cases hwire : wire = gate
  · rw [hwire, hself, get_reroute_self]
  · rw [get_reroute_of_ne column node hwire, hrest wire hwire]

/-- When a node can take the place of the one on wire `gate`: it is a gate, or
nothing, linked by a first control at most, and no other gate comes in the way. -/
structure Fits (column : Column α n) (gate : Fin n) (node : Node α) : Prop where
  /-- No other link passes the wire itself. -/
  alone : ∀ other : Fin n, (column.get other).Spans other gate → other = gate
  plain : node = Node.empty ∨ node.gate?.isSome = true
  single_link : node.controlB = none ∧ node.partner = none
  control_valid : ∀ control, node.controlA = some control →
    node.isControllable = true ∧ control < n ∧ control ≠ gate
  /-- The new link meets no gate and no other link. -/
  way_free : ∀ wire : Fin n, wire ≠ gate → node.Spans gate wire →
    (column.get wire).gate? = none ∧
      ∀ other : Fin n, (column.get other).Spans other wire → other = gate

section Reroute

variable {column : Column α n} {gate : Fin n} {node : Node α}

theorem TraceExact.get_reroute_of_isSome (h : column.TraceExact) (hfits : column.Fits gate node)
    {wire : Fin n} (hne : wire ≠ gate) (hsome : (column.get wire).gate?.isSome = true) :
    (column.reroute gate node).get wire = column.get wire := by
  rw [get_reroute_of_ne column node hne, if_neg, if_neg]
  -- neither the old link nor the new one may cross a gate
  · intro hcrosses
    exact hne (h.spans_gate_free gate wire hcrosses.spans hsome)
  · intro hcrosses
    rw [(hfits.way_free wire hne hcrosses.spans).1] at hsome
    cases hsome

theorem gate?_reroute_of_eq_none {wire : Fin n} (hne : wire ≠ gate)
    (hnone : (column.get wire).gate? = none) :
    ((column.reroute gate node).get wire).gate? = none := by
  rw [get_reroute_of_ne column node hne]
  split
  · rfl
  · split
    · rfl
    · exact hnone

/-- Away from its wire, rerouting keeps the gates and the links between them. -/
theorem TraceExact.reroute_of_ne (h : column.TraceExact) (hfits : column.Fits gate node)
    {wire : Fin n} (hne : wire ≠ gate) :
    ((column.reroute gate node).get wire).gate? = (column.get wire).gate? ∧
    ((column.reroute gate node).get wire).controlA = (column.get wire).controlA := by
  cases hgate : (column.get wire).gate? with
  | some g => rw [h.get_reroute_of_isSome hfits hne (by rw [hgate]; rfl), hgate]; exact ⟨rfl, rfl⟩
  | none =>
    refine ⟨gate?_reroute_of_eq_none hne hgate, ?_⟩
    rw [h.controlA_of_gate?_eq_none hgate, get_reroute_of_ne column node hne]
    split
    · rfl
    · split
      · rfl
      · exact h.controlA_of_gate?_eq_none hgate

theorem TraceExact.keepsGates_reroute (h : column.TraceExact) (hfits : column.Fits gate node) :
    column.KeepsGates gate (column.reroute gate node) := by
  intro wire hne hsome
  apply h.get_reroute_of_isSome hfits hne
  rcases hsome with hsome | hsome
  · exact hsome
  · rwa [(h.reroute_of_ne hfits hne).1] at hsome

theorem TraceExact.spans_reroute_of_ne (h : column.TraceExact) (hfits : column.Fits gate node)
    {other : Fin n} (hne : other ≠ gate) (wire : Nat) :
    ((column.reroute gate node).get other).Spans other wire ↔
      (column.get other).Spans other wire :=
  Node.spans_congr (h.reroute_of_ne hfits hne).2 _ _

theorem TraceExact.crosses_reroute_of_ne (h : column.TraceExact) (hfits : column.Fits gate node)
    {other : Fin n} (hne : other ≠ gate) (wire : Nat) :
    ((column.reroute gate node).get other).Crosses other wire ↔
      (column.get other).Crosses other wire :=
  Node.crosses_congr (h.reroute_of_ne hfits hne).2 _ _

/-- No other link meets the new one, its ends included. -/
theorem Fits.not_spans (hfits : column.Fits gate node) {other wire : Fin n} (hne : other ≠ gate)
    (hnew : node.Spans gate wire) : ¬ (column.get other).Spans other wire := by
  intro hold
  by_cases hwire : wire = gate
  · subst hwire
    exact hne (hfits.alone other hold)
  · exact hne ((hfits.way_free wire hwire hnew).2 other hold)

/-- After rerouting, a wire without a gate holds a trace if a link crosses it and
nothing otherwise. -/
theorem TraceExact.reroute_cells (h : column.TraceExact) (hfits : column.Fits gate node)
    {wire : Fin n} (hnone : ((column.reroute gate node).get wire).gate? = none) :
    ((column.reroute gate node).get wire = Node.trace ∧
      ∃ other : Fin n, ((column.reroute gate node).get other).Crosses other wire) ∨
    ((column.reroute gate node).get wire = Node.empty ∧
      ∀ other : Fin n, ¬ ((column.reroute gate node).get other).Crosses other wire) := by
  by_cases hwire : wire = gate
  · -- the wire itself: a gate, or emptied
    subst hwire
    right
    rw [get_reroute_self] at hnone ⊢
    rcases hfits.plain with hplain | hsome
    · refine ⟨hplain, ?_⟩
      intro other hother
      by_cases hne : other = wire
      · subst hne
        exact hother.ne.1 rfl
      · exact hne (hfits.alone other ((h.crosses_reroute_of_ne hfits hne wire).mp hother).spans)
    · rw [hnone] at hsome
      cases hsome
  rw [(h.reroute_of_ne hfits hwire).1] at hnone
  by_cases hnew : node.Crosses gate wire
  · left
    rw [get_reroute_of_ne column node hwire, if_pos hnew]
    exact ⟨rfl, gate, by rw [get_reroute_self]; exact hnew⟩
  · -- a link that crosses the wire is not the new one, so it was there before
    have hother : ∀ other : Fin n, ((column.reroute gate node).get other).Crosses other wire →
        other ≠ gate ∧ (column.get other).Crosses other wire := by
      intro other hcross
      have hne : other ≠ gate := by
        intro he
        subst he
        rw [get_reroute_self] at hcross
        exact hnew hcross
      exact ⟨hne, (h.crosses_reroute_of_ne hfits hne wire).mp hcross⟩
    rw [get_reroute_of_ne column node hwire, if_neg hnew]
    by_cases hold : (column.get gate).Crosses gate wire
    · rw [if_pos hold]
      right
      refine ⟨rfl, ?_⟩
      intro other hcross
      obtain ⟨hne, hcross⟩ := hother other hcross
      exact hne (h.spans_disjoint other gate wire hcross.spans hold.spans)
    · rw [if_neg hold]
      rcases h.get_of_gate?_eq_none hnone with ⟨heq, other, hcross⟩ | ⟨heq, hcross⟩
      · have hne : other ≠ gate := fun he => hold (he ▸ hcross)
        exact Or.inl ⟨heq, other, (h.crosses_reroute_of_ne hfits hne wire).mpr hcross⟩
      · exact Or.inr ⟨heq, fun other hnow => hcross other (hother other hnow).2⟩

/-- Rerouting a fitting node keeps a column trace-exact. -/
theorem TraceExact.reroute (h : column.TraceExact) (hfits : column.Fits gate node) :
    (column.reroute gate node).TraceExact := by
  apply TraceExact.of_gates
  · intro wire hnone
    exact h.reroute_cells hfits hnone
  · -- single links
    intro wire
    rw [get_reroute]
    split
    · exact hfits.single_link
    · split
      · exact ⟨rfl, rfl⟩
      · split
        · exact ⟨rfl, rfl⟩
        · exact h.single_link wire
  · -- valid controls
    intro other control hcontrol
    by_cases hne : other = gate
    · subst hne
      rw [get_reroute_self] at hcontrol ⊢
      exact hfits.control_valid control hcontrol
    · rw [(h.reroute_of_ne hfits hne).2] at hcontrol
      have hsome := h.isSome_of_spans (Node.spans_gate hcontrol other)
      rw [h.get_reroute_of_isSome hfits hne hsome]
      exact h.control_valid other control hcontrol
  · -- disjoint spans: the new link against the others, the others as before
    intro first second wire hfirst hsecond
    by_cases hf : first = gate
    · by_cases hs : second = gate
      · rw [hf, hs]
      · subst hf
        rw [get_reroute_self] at hfirst
        exact absurd ((h.spans_reroute_of_ne hfits hs wire).mp hsecond)
          (hfits.not_spans hs hfirst)
    · by_cases hs : second = gate
      · subst hs
        rw [get_reroute_self] at hsecond
        exact absurd ((h.spans_reroute_of_ne hfits hf wire).mp hfirst)
          (hfits.not_spans hf hsecond)
      · exact h.spans_disjoint first second wire
          ((h.spans_reroute_of_ne hfits hf wire).mp hfirst)
          ((h.spans_reroute_of_ne hfits hs wire).mp hsecond)
  · -- no gate on the span of another
    intro other wire hother hsome
    by_cases hwire : wire = other
    · exact hwire
    exfalso
    by_cases hne : other = gate
    · subst hne
      rw [get_reroute_self] at hother
      rw [(h.reroute_of_ne hfits hwire).1, (hfits.way_free wire hwire hother).1] at hsome
      cases hsome
    · have hold := (h.spans_reroute_of_ne hfits hne wire).mp hother
      by_cases hgate : wire = gate
      · subst hgate
        exact hne (hfits.alone other hold)
      · rw [(h.reroute_of_ne hfits hgate).1] at hsome
        exact hwire (h.spans_gate_free other wire hold hsome)

end Reroute

end Column

end CircuitGrid
