import CircuitGrid.Edit.Column

/-!
# Cells of a column

What a cell of a column reads after each primitive write, and what the marker
queries answer in terms of links. The proofs about edits go through these
lemmas and never look at how a column is stored.
-/

namespace CircuitGrid

theorem CellKind.acceptsControl_iff (kind : CellKind) :
    kind.acceptsControl = true ↔ kind = .empty ∨ kind = .trace := by
  cases kind <;> simp [acceptsControl]

/-! ## Links of a node -/

/-- The three places of a node that can name another wire. -/
inductive LinkSlot where
  | controlA
  | controlB
  | partner
  deriving DecidableEq, Repr

namespace Node

variable {α : Type}

/-- The wire that a node names in a slot. -/
def link? (node : Node α) : LinkSlot → Option Nat
  | .controlA => node.controlA
  | .controlB => node.controlB
  | .partner => node.partner

theorem isControlledBy_iff (node : Node α) (wire : Nat) :
    node.isControlledBy wire = true ↔ node.controlA = some wire ∨ node.controlB = some wire := by
  simp [isControlledBy]

/-- The control wires that a node names. -/
def controls (node : Node α) : List Nat := node.controlA.toList ++ node.controlB.toList

theorem mem_controls {node : Node α} {wire : Nat} :
    wire ∈ node.controls ↔ node.controlA = some wire ∨ node.controlB = some wire := by
  simp [controls]

theorem hasControls_eq_false_iff (node : Node α) :
    node.hasControls = false ↔ node.controlA = none ∧ node.controlB = none := by
  simp [hasControls]

/-- A node marks no wire that none of its slots names. -/
theorem markerOn_eq_none_iff (node : Node α) (wire : Nat) :
    node.markerOn wire = none ↔ ∀ slot, node.link? slot ≠ some wire := by
  unfold markerOn
  constructor
  · intro h slot hslot
    split at h
    · cases h
    · next hcontrol =>
      rw [isControlledBy_iff, not_or] at hcontrol
      split at h
      · cases h
      · next hpartner =>
        cases slot with
        | controlA => exact hcontrol.1 hslot
        | controlB => exact hcontrol.2 hslot
        | partner => exact hpartner hslot
  · intro h
    have hcontrol : ¬ node.isControlledBy wire = true := by
      rw [isControlledBy_iff, not_or]
      exact ⟨h .controlA, h .controlB⟩
    have hpartner : node.partner ≠ some wire := h .partner
    rw [if_neg hcontrol, if_neg hpartner]

theorem markerOn_eq_control_iff (node : Node α) (wire : Nat) :
    node.markerOn wire = some .control ↔ node.isControlledBy wire = true := by
  unfold markerOn
  split <;> simp_all

/-- A partner marker comes from the partner slot, on a wire that is no control. -/
theorem markerOn_eq_swapPartner_iff (node : Node α) (wire : Nat) :
    node.markerOn wire = some .swapPartner ↔
      node.isControlledBy wire = false ∧ node.partner = some wire := by
  unfold markerOn
  split <;> simp_all

theorem markerOn_cases {node : Node α} {wire : Nat} {kind : CellKind}
    (h : node.markerOn wire = some kind) : kind = .control ∨ kind = .swapPartner := by
  unfold markerOn at h
  split at h
  · exact Or.inl (Option.some.inj h).symm
  · split at h
    · exact Or.inr (Option.some.inj h).symm
    · cases h

theorem gate?_isSome_of_isControllable {node : Node α} (h : node.isControllable = true) :
    node.gate?.isSome = true := by
  unfold isControllable at h
  cases hg : node.gate? with
  | none => rw [hg] at h; cases h
  | some g => rfl

theorem gate?_eq_some_iff (node : Node α) (g : Gate) :
    node.gate? = some g ↔ node.content = .gate g := by
  unfold gate?
  cases node.content <;> simp [Content.gate?]

theorem gate?_eq_none_iff (node : Node α) :
    node.gate? = none ↔ node.content = .empty ∨ node.content = .trace := by
  unfold gate?
  cases node.content <;> simp [Content.gate?]

end Node

namespace Column

variable {α : Type} {n : Nat}

/-! ## Reading after writing -/

theorem ext_get {column other : Column α n} (h : ∀ wire, column.get wire = other.get wire) :
    column = other := by
  apply Vector.ext
  intro i hi
  exact h ⟨i, hi⟩

@[simp] theorem get_put_self (column : Column α n) (wire : Fin n) (node : Node α) :
    (column.put wire node).get wire = node := by
  show (column.set wire.val node wire.isLt)[wire.val] = node
  exact Vector.getElem_set_self wire.isLt

theorem get_put_of_ne (column : Column α n) {wire other : Fin n} (node : Node α)
    (h : other ≠ wire) : (column.put wire node).get other = column.get other := by
  show (column.set wire.val node wire.isLt)[other.val] = column[other.val]
  exact Vector.getElem_set_ne wire.isLt other.isLt (fun he => h (Fin.ext he.symm))

theorem get_put (column : Column α n) (wire other : Fin n) (node : Node α) :
    (column.put wire node).get other = if other = wire then node else column.get other := by
  by_cases h : other = wire
  · rw [if_pos h, h, get_put_self]
  · rw [if_neg h, get_put_of_ne column node h]

@[simp] theorem get_fresh [Angle α] (wire : Fin n) :
    (Vector.replicate n (Node.empty : Node α)).get wire = Node.empty :=
  Vector.getElem_replicate wire.isLt

/-- Clearing traces empties the trace cells strictly between the two wires. -/
theorem get_clearTraces [Angle α] (column : Column α n) (a b : Nat) (wire : Fin n) :
    (column.clearTraces a b).get wire =
      if min a b < wire ∧ wire < max a b ∧ (column.get wire).content = .trace then Node.empty
      else column.get wire := by
  show (column.clearTraces a b)[wire.val] = _
  unfold clearTraces
  rw [Vector.getElem_mapFinIdx]
  rfl

/-- A trace put on a wire is seen there if the cell was free, and nowhere else. -/
theorem get_markTrace [Angle α] (column : Column α n) (wire : Nat) (other : Fin n) :
    (column.markTrace wire).get other =
      if other.val = wire ∧ column.kindAt other = .empty then Node.trace
      else column.get other := by
  unfold markTrace
  by_cases hother : other.val = wire
  · -- on the wire itself the bound of the trace is that of the cell
    subst hother
    rw [dif_pos other.isLt]
    by_cases hkind : column.kindAt other = .empty
    · rw [if_pos hkind, if_pos ⟨rfl, hkind⟩, get_put_self]
    · rw [if_neg hkind, if_neg (fun h => hkind h.2)]
  · rw [if_neg (fun h => hother h.1)]
    split
    · next hlt =>
      split
      · exact get_put_of_ne column Node.trace (fun he => hother (congrArg Fin.val he))
      · rfl
    · rfl

/-! ## Markers -/

/-- A cell that stores nothing is free of markers, or takes one from a linked node. -/
theorem kindAt_of_content_empty {column : Column α n} {wire : Fin n}
    (h : (column.get wire).content = .empty) :
    (column.kindAt wire = .empty ∧
      ∀ other, other ≠ wire → (column.get other).markerOn wire = none) ∨
    ∃ other, other ≠ wire ∧ (column.get other).markerOn wire = some (column.kindAt wire) := by
  unfold kindAt
  rw [h]
  cases hfound : (List.finRange n).findSome? fun other =>
      if other = wire then none else (column.get other).markerOn wire with
  | none =>
    left
    refine ⟨rfl, ?_⟩
    intro other hne
    have hnone := List.findSome?_eq_none_iff.mp hfound other (List.mem_finRange other)
    rwa [if_neg hne] at hnone
  | some kind =>
    right
    obtain ⟨other, _, hother⟩ := List.exists_of_findSome?_eq_some hfound
    split at hother
    · cases hother
    · next hne => exact ⟨other, hne, hother⟩

theorem kindAt_cases_of_content_empty {column : Column α n} {wire : Fin n}
    (h : (column.get wire).content = .empty) :
    column.kindAt wire = .empty ∨ column.kindAt wire = .control ∨
      column.kindAt wire = .swapPartner := by
  rcases kindAt_of_content_empty h with ⟨hempty, _⟩ | ⟨other, _, hmark⟩
  · exact Or.inl hempty
  · exact Or.inr (Node.markerOn_cases hmark)

theorem kindAt_eq_gate_iff (column : Column α n) (wire : Fin n) (g : Gate) :
    column.kindAt wire = .gate g ↔ (column.get wire).content = .gate g := by
  cases hcontent : (column.get wire).content with
  | gate g' => simp [kindAt, hcontent]
  | trace => simp [kindAt, hcontent]
  | empty =>
    -- an unstored cell reads as nothing or as a marker, never as a gate
    rcases kindAt_cases_of_content_empty hcontent with h | h | h <;> simp [h]

theorem kindAt_eq_trace_iff (column : Column α n) (wire : Fin n) :
    column.kindAt wire = .trace ↔ (column.get wire).content = .trace := by
  cases hcontent : (column.get wire).content with
  | gate g => simp [kindAt, hcontent]
  | trace => simp [kindAt, hcontent]
  | empty => rcases kindAt_cases_of_content_empty hcontent with h | h | h <;> simp [h]

/-- A cell that is free, or a marker, stores nothing. -/
theorem content_eq_empty_of_kindAt {column : Column α n} {wire : Fin n}
    (hgate : ∀ g, column.kindAt wire ≠ .gate g) (htrace : column.kindAt wire ≠ .trace) :
    (column.get wire).content = .empty := by
  cases hcontent : (column.get wire).content with
  | gate g => exact absurd ((kindAt_eq_gate_iff column wire g).mpr hcontent) (hgate g)
  | trace => exact absurd ((kindAt_eq_trace_iff column wire).mpr hcontent) htrace
  | empty => rfl

/-- A cell is free exactly when it stores nothing and no other node is linked to it. -/
theorem kindAt_eq_empty_iff (column : Column α n) (wire : Fin n) :
    column.kindAt wire = .empty ↔ (column.get wire).content = .empty ∧
      ∀ other, other ≠ wire → ∀ slot, (column.get other).link? slot ≠ some wire.val := by
  constructor
  · intro hkind
    have hcontent : (column.get wire).content = .empty :=
      content_eq_empty_of_kindAt (by simp [hkind]) (by simp [hkind])
    refine ⟨hcontent, ?_⟩
    intro other hne
    rw [← Node.markerOn_eq_none_iff]
    rcases kindAt_of_content_empty hcontent with ⟨_, hnone⟩ | ⟨other, _, hmark⟩
    · exact hnone other hne
    · rw [hkind] at hmark
      rcases Node.markerOn_cases hmark with h | h <;> cases h
  · rintro ⟨hcontent, hunlinked⟩
    rcases kindAt_of_content_empty hcontent with ⟨hempty, _⟩ | ⟨other, hne, hmark⟩
    · exact hempty
    · have hnone := (Node.markerOn_eq_none_iff _ _).mpr (hunlinked other hne)
      rw [hnone] at hmark
      cases hmark

/-- A cell that takes a control is free or holds a trace. -/
theorem kindAt_of_acceptsControl {column : Column α n} {wire : Fin n}
    (h : (column.kindAt wire).acceptsControl = true) :
    column.kindAt wire = .empty ∨ column.kindAt wire = .trace :=
  (CellKind.acceptsControl_iff _).mp h

theorem gate?_of_acceptsControl {column : Column α n} {wire : Fin n}
    (h : (column.kindAt wire).acceptsControl = true) : (column.get wire).gate? = none := by
  rw [Node.gate?_eq_none_iff]
  rcases kindAt_of_acceptsControl h with hkind | hkind
  · exact Or.inl ((kindAt_eq_empty_iff column wire).mp hkind).1
  · exact Or.inr ((kindAt_eq_trace_iff column wire).mp hkind)

theorem ne_of_acceptsControl {column : Column α n} {gate wire : Fin n}
    (hgate : (column.get gate).gate?.isSome = true)
    (h : (column.kindAt wire).acceptsControl = true) : wire ≠ gate := by
  intro he
  rw [← he, gate?_of_acceptsControl h] at hgate
  cases hgate

/-- A cell that stores nothing and is not free carries a marker of another node. -/
theorem exists_markerOn_of_kindAt (column : Column α n) (wire : Fin n)
    (hgate : ∀ g, column.kindAt wire ≠ .gate g) (htrace : column.kindAt wire ≠ .trace)
    (hempty : column.kindAt wire ≠ .empty) : (column.get wire).content = .empty ∧
      ∃ other, other ≠ wire ∧ (column.get other).markerOn wire = some (column.kindAt wire) := by
  have hcontent : (column.get wire).content = .empty := content_eq_empty_of_kindAt hgate htrace
  rcases kindAt_of_content_empty hcontent with ⟨hkind, _⟩ | hmarker
  · exact absurd hkind hempty
  · exact ⟨hcontent, hmarker⟩

theorem exists_control_of_kindAt {column : Column α n} {wire : Fin n}
    (h : column.kindAt wire = .control) : (column.get wire).content = .empty ∧
      ∃ other, other ≠ wire ∧ (column.get other).isControlledBy wire = true := by
  obtain ⟨hcontent, other, hne, hmarker⟩ :=
    exists_markerOn_of_kindAt column wire (by simp [h]) (by simp [h]) (by simp [h])
  rw [h, Node.markerOn_eq_control_iff] at hmarker
  exact ⟨hcontent, other, hne, hmarker⟩

/-- What owns a marker is on another wire. -/
theorem ne_of_owner? {column : Column α n} {wire owner : Fin n}
    (h : column.owner? wire = some owner) : owner ≠ wire := by
  have howner := List.find?_some h
  simp only [Bool.and_eq_true, decide_eq_true_eq] at howner
  exact howner.1

theorem exists_partner_of_kindAt {column : Column α n} {wire : Fin n}
    (h : column.kindAt wire = .swapPartner) : (column.get wire).content = .empty ∧
      ∃ other, other ≠ wire ∧ (column.get other).partner = some wire.val := by
  obtain ⟨hcontent, other, hne, hmarker⟩ :=
    exists_markerOn_of_kindAt column wire (by simp [h]) (by simp [h]) (by simp [h])
  rw [h, Node.markerOn_eq_swapPartner_iff] at hmarker
  exact ⟨hcontent, other, hne, hmarker.2⟩

end Column

end CircuitGrid
