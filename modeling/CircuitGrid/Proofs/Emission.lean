import CircuitGrid.Compile
import CircuitGrid.Proofs.LinkExclusive
import CircuitGrid.Proofs.Run
import CircuitGrid.Proofs.Traversal
import Mathlib.Data.List.Nodup

/-!
# What a link-exclusive grid compiles to

The operation of a gate acts on wires that the gate reaches: its own and those
its links name (`Node.reach`). In a link-exclusive column a gate reaches no wire
twice and no two gates reach a wire in common. So every gate compiles, its
operation has as many wires as its primitive gate asks for, and the operations
of one column act on disjoint wires.
-/

namespace CircuitGrid

/-! ## Well-formed operations -/

/-- An operation that makes sense on `wires` wires. -/
structure Operation.WellFormed {α : Type} (op : Operation α) (wires : Nat) : Prop where
  /-- It has as many wires as its gate acts on. -/
  arity : op.wires.length = op.gate.arity
  in_range : ∀ wire ∈ op.wires, wire.index < wires
  distinct : op.wires.Nodup
  /-- It has a partner exactly if its gate exchanges wires. -/
  partner : op.partner.isSome = op.gate.isSwap

/-! ## Reach -/

namespace Node

variable {α : Type}

/-- The wires a gate on `wire` can act on: its own and those its links name. -/
def reach (node : Node α) (wire : Nat) : List Nat :=
  (node.controlA.toList ++ node.controlB.toList) ++ wire :: node.partner.toList

theorem mem_reach {node : Node α} {wire target : Nat} :
    target ∈ node.reach wire ↔ target = wire ∨ ∃ slot, node.link? slot = some target := by
  simp only [reach, List.mem_append, List.mem_cons, Option.mem_toList]
  constructor
  · rintro ((h | h) | h | h)
    · exact Or.inr ⟨.controlA, h⟩
    · exact Or.inr ⟨.controlB, h⟩
    · exact Or.inl h
    · exact Or.inr ⟨.partner, h⟩
  · rintro (h | ⟨slot, h⟩)
    · exact Or.inr (Or.inl h)
    · cases slot with
      | controlA => exact Or.inl (Or.inl h)
      | controlB => exact Or.inl (Or.inr h)
      | partner => exact Or.inr (Or.inr h)

/-- An operation acts on reached wires if its operands come from the links in order. -/
theorem sublist_reach {node : Node α} {wire : Nat} {op : Operation α}
    {controlA controlB partner : Option Wire} (htarget : op.target.index = wire)
    (hcontrols : op.controls.Sublist (controlA.toList ++ controlB.toList))
    (hpartner : op.partner.toList.Sublist partner.toList)
    (hA : controlA.map Wire.index = node.controlA) (hB : controlB.map Wire.index = node.controlB)
    (hP : (partner.map Wire.index).toList.Sublist node.partner.toList) :
    (op.wires.map Wire.index).Sublist (node.reach wire) := by
  unfold Operation.wires reach
  rw [List.map_append, List.map_cons, htarget]
  refine List.Sublist.append ?_ (List.Sublist.cons_cons _ ?_)
  · have hmap := hcontrols.map Wire.index
    rwa [List.map_append, ← Option.toList_map, ← Option.toList_map, hA, hB] at hmap
  · have hmap := hpartner.map Wire.index
    rw [← Option.toList_map (o := partner)] at hmap
    exact hmap.trans hP

end Node

namespace Column.LinkExclusive

variable {α : Type} {n : Nat} {column : Column α n}

theorem lt_of_mem_reach (h : column.LinkExclusive) {wire : Fin n} {target : Nat}
    (hmem : target ∈ (column.get wire).reach wire) : target < n := by
  rcases Node.mem_reach.mp hmem with rfl | ⟨slot, hlink⟩
  · exact wire.isLt
  · obtain ⟨place, rfl, _, _⟩ := h.target_free wire slot target hlink
    exact place.isLt

/-- A gate reaches no wire twice. -/
theorem nodup_reach (h : column.LinkExclusive) (wire : Fin n) :
    ((column.get wire).reach wire).Nodup := by
  have hown : ∀ slot, (column.get wire).link? slot ≠ some wire.val := by
    intro slot hlink
    obtain ⟨place, hplace, hne, _⟩ := h.target_free wire slot wire hlink
    exact hne (Fin.ext hplace)
  have hdistinct : ∀ slot slot' target, slot ≠ slot' →
      (column.get wire).link? slot = some target → (column.get wire).link? slot' ≠ some target :=
    fun slot slot' target hne hlink hlink' =>
      hne (h.target_unique wire slot wire slot' target hlink hlink').2
  unfold Node.reach
  refine List.nodup_append'.mpr ⟨List.nodup_append'.mpr ⟨Option.toList_nodup _,
    Option.toList_nodup _, ?_⟩, List.nodup_cons.mpr ⟨?_, Option.toList_nodup _⟩, ?_⟩
  · intro target ha hb
    exact hdistinct .controlA .controlB target (by decide) (Option.mem_toList.mp ha)
      (Option.mem_toList.mp hb)
  · intro hp
    exact hown .partner (Option.mem_toList.mp hp)
  · intro target hcontrol hrest
    rcases List.mem_append.mp hcontrol with ha | hb <;> rcases List.mem_cons.mp hrest with rfl | hp
    · exact hown .controlA (Option.mem_toList.mp ha)
    · exact hdistinct .controlA .partner target (by decide) (Option.mem_toList.mp ha)
        (Option.mem_toList.mp hp)
    · exact hown .controlB (Option.mem_toList.mp hb)
    · exact hdistinct .controlB .partner target (by decide) (Option.mem_toList.mp hb)
        (Option.mem_toList.mp hp)

/-- Two gates of a column reach no wire in common. -/
theorem disjoint_reach (h : column.LinkExclusive) {wire other : Fin n} (hne : wire ≠ other)
    (hgate : (column.get wire).gate?.isSome = true)
    (hgate' : (column.get other).gate?.isSome = true) :
    ((column.get wire).reach wire).Disjoint ((column.get other).reach other) := by
  -- a gate stores something, so that no link names its wire
  have hown : ∀ {first second : Fin n} {slot}, (column.get first).gate?.isSome = true →
      (column.get second).link? slot ≠ some first.val := by
    intro first second slot hsome
    refine h.unnamed_of_content ?_ second slot
    intro hcontent
    rw [(Node.gate?_eq_none_iff _).mpr (Or.inl hcontent)] at hsome
    cases hsome
  intro target hmem hmem'
  rcases Node.mem_reach.mp hmem with rfl | ⟨slot, hlink⟩
  · rcases Node.mem_reach.mp hmem' with heq | ⟨slot', hlink'⟩
    · exact hne (Fin.ext heq)
    · exact hown hgate hlink'
  · rcases Node.mem_reach.mp hmem' with rfl | ⟨slot', hlink'⟩
    · exact hown hgate' hlink
    · exact hne (h.target_unique wire slot other slot' target hlink hlink').1

end Column.LinkExclusive

/-! ## Lowering one gate -/

section Lowering

variable {α : Type} {gate : Gate} {angle : α} {rotated : Bool} {target : Wire}
  {controlA controlB partner : Option Wire}

/-- Every gate has an operation, a swap provided that it has a partner. -/
theorem lowerGate_isSome (hpartner : gate = .swap → partner.isSome = true) :
    (lowerGate gate angle rotated target controlA controlB partner).isSome = true := by
  cases gate with
  | pauliX => cases rotated <;> cases controlA <;> cases controlB <;> rfl
  | pauliY => cases rotated <;> cases controlA <;> rfl
  | pauliZ => cases rotated <;> cases controlA <;> rfl
  | hadamard => cases controlA <;> rfl
  | swap =>
    obtain ⟨wire, rfl⟩ := Option.isSome_iff_exists.mp (hpartner rfl)
    cases controlA <;> rfl
  | s => rfl
  | sDagger => rfl
  | t => rfl
  | tDagger => rfl
  | identity => rfl

/-- The operation of a gate targets its wire, takes its controls among those of
the node in order, and has wires for its primitive gate. -/
theorem lowerGate_eq_some {op : Operation α}
    (h : lowerGate gate angle rotated target controlA controlB partner = some op) :
    op.target = target ∧ op.controls.Sublist (controlA.toList ++ controlB.toList) ∧
      op.partner.toList.Sublist partner.toList ∧ op.wires.length = op.gate.arity ∧
      op.partner.isSome = op.gate.isSwap := by
  cases gate with
  | pauliX =>
    simp only [lowerGate] at h
    split at h <;> cases h
    · exact ⟨rfl, List.nil_sublist _, List.nil_sublist _, rfl, rfl⟩
    · exact ⟨rfl, List.Sublist.refl _, List.nil_sublist _, rfl, rfl⟩
    · exact ⟨rfl, List.Sublist.refl _, List.nil_sublist _, rfl, rfl⟩
    · exact ⟨rfl, List.nil_sublist _, List.nil_sublist _, rfl, rfl⟩
  | pauliY =>
    simp only [lowerGate] at h
    split at h <;> cases h
    · exact ⟨rfl, List.nil_sublist _, List.nil_sublist _, rfl, rfl⟩
    · exact ⟨rfl, List.sublist_append_left _ _, List.nil_sublist _, rfl, rfl⟩
    · exact ⟨rfl, List.nil_sublist _, List.nil_sublist _, rfl, rfl⟩
  | pauliZ =>
    simp only [lowerGate] at h
    split at h <;> cases h
    · exact ⟨rfl, List.sublist_append_left _ _, List.nil_sublist _, rfl, rfl⟩
    · exact ⟨rfl, List.nil_sublist _, List.nil_sublist _, rfl, rfl⟩
    · exact ⟨rfl, List.sublist_append_left _ _, List.nil_sublist _, rfl, rfl⟩
    · exact ⟨rfl, List.nil_sublist _, List.nil_sublist _, rfl, rfl⟩
  | hadamard =>
    simp only [lowerGate] at h
    split at h <;> cases h
    · exact ⟨rfl, List.sublist_append_left _ _, List.nil_sublist _, rfl, rfl⟩
    · exact ⟨rfl, List.nil_sublist _, List.nil_sublist _, rfl, rfl⟩
  | swap =>
    simp only [lowerGate] at h
    split at h <;> cases h
    · exact ⟨rfl, List.sublist_append_left _ _, List.Sublist.refl _, rfl, rfl⟩
    · exact ⟨rfl, List.nil_sublist _, List.Sublist.refl _, rfl, rfl⟩
  | s => cases h; exact ⟨rfl, List.nil_sublist _, List.nil_sublist _, rfl, rfl⟩
  | sDagger => cases h; exact ⟨rfl, List.nil_sublist _, List.nil_sublist _, rfl, rfl⟩
  | t => cases h; exact ⟨rfl, List.nil_sublist _, List.nil_sublist _, rfl, rfl⟩
  | tDagger => cases h; exact ⟨rfl, List.nil_sublist _, List.nil_sublist _, rfl, rfl⟩
  | identity => cases h; exact ⟨rfl, List.nil_sublist _, List.nil_sublist _, rfl, rfl⟩

theorem linkedWire_eq_ok {wires : Nat} (wires_le : wires ≤ maxWires) {link : Option Nat}
    (hlink : ∀ wire, link = some wire → wire < wires) :
    ∃ found, linkedWire wires wires_le link = .ok found ∧ found.map Wire.index = link := by
  cases link with
  | none => exact ⟨none, rfl, rfl⟩
  | some wire =>
    refine ⟨some ⟨wire, Nat.lt_of_lt_of_le (hlink wire rfl)
      (Nat.le_trans wires_le (by decide))⟩, ?_, rfl⟩
    exact dif_pos (hlink wire rfl)

/-- With its links looked up, a gate fails to lower only as a swap without partner. -/
theorem lower_of_links {α : Type} [Angle α] {wires : Nat} (wires_le : wires ≤ maxWires)
    {gate : Gate} {node : Node α} (wire : Fin wires) (column : Nat) {a b p : Option Wire}
    (ha : linkedWire wires wires_le node.controlA = .ok a)
    (hb : linkedWire wires wires_le node.controlB = .ok b)
    (hp : linkedWire wires wires_le (if gate = .swap then node.partner else none) = .ok p) :
    lower wires_le gate node wire column =
      match lowerGate gate node.rotation node.isRotated
        ⟨wire, Nat.lt_of_lt_of_le wire.isLt (Nat.le_trans wires_le (by decide))⟩ a b p with
      | some op => .ok op
      | none => .error (.missingSwapPartner wire column) := by
  unfold lower
  rw [ha, hb, hp]
  rfl

end Lowering

/-! ## Compiling a column -/

namespace Grid

variable {α : Type} {wires columns : Nat}

theorem mem_gateCellsOf {grid : Grid α wires columns} {column : Fin columns}
    {cell : GateCell α wires columns} (hmem : cell ∈ grid.gateCellsOf column) :
    cell.node = (grid.columnAt column).get cell.wire ∧
      ((grid.columnAt column).get cell.wire).gate? = some cell.gate := by
  obtain ⟨wire, _, hcell⟩ := List.mem_filterMap.mp hmem
  obtain ⟨gate, hgate, rfl⟩ := Option.map_eq_some_iff.mp hcell
  exact ⟨rfl, hgate⟩

theorem pairwise_gateCellsOf (grid : Grid α wires columns) (column : Fin columns) :
    (grid.gateCellsOf column).Pairwise fun cell other => cell.wire ≠ other.wire := by
  refine List.pairwise_filterMap.mpr ((List.nodup_finRange wires).imp ?_)
  intro wire other hne cell hcell cell' hcell'
  obtain ⟨_, _, rfl⟩ := Option.map_eq_some_iff.mp hcell
  obtain ⟨_, _, rfl⟩ := Option.map_eq_some_iff.mp hcell'
  exact hne

variable [Angle α]

/-- The operations of one column, one per gate, wires ascending. -/
def compileColumn (grid : Grid α wires columns) (column : Fin columns) :
    Except GridError (List (Operation α)) :=
  (grid.gateCellsOf column).mapM fun cell =>
    lower grid.wires_le cell.gate cell.node cell.wire cell.column

/-- A gate of a link-exclusive column compiles to a well-formed operation on
wires that it reaches. -/
theorem lower_eq_ok {column : Column α wires} (h : column.LinkExclusive)
    (wires_le : wires ≤ maxWires) {wire : Fin wires} {gate : Gate}
    (hgate : (column.get wire).gate? = some gate) (position : Nat) :
    ∃ op, lower wires_le gate (column.get wire) wire position = .ok op ∧ op.WellFormed wires ∧
      (op.wires.map Wire.index).Sublist ((column.get wire).reach wire) := by
  have hrange : ∀ slot target, (column.get wire).link? slot = some target → target < wires :=
    fun slot target hlink => h.lt_of_mem_reach (Node.mem_reach.mpr (Or.inr ⟨slot, hlink⟩))
  obtain ⟨a, ha, haindex⟩ : ∃ a, linkedWire wires wires_le (column.get wire).controlA = .ok a ∧
      a.map Wire.index = (column.get wire).controlA :=
    linkedWire_eq_ok wires_le (hrange .controlA)
  obtain ⟨b, hb, hbindex⟩ : ∃ b, linkedWire wires wires_le (column.get wire).controlB = .ok b ∧
      b.map Wire.index = (column.get wire).controlB :=
    linkedWire_eq_ok wires_le (hrange .controlB)
  have hpartner : ∀ target, (if gate = .swap then (column.get wire).partner else none) =
      some target → target < wires := by
    intro target htarget
    split at htarget
    · exact hrange .partner target htarget
    · cases htarget
  obtain ⟨p, hp, hpindex⟩ := linkedWire_eq_ok wires_le hpartner
  let target : Wire :=
    ⟨wire, Nat.lt_of_lt_of_le wire.isLt (Nat.le_trans wires_le (by decide))⟩
  have hswap : gate = .swap → p.isSome = true := by
    intro hswap
    have hsome := h.swap_partner wire (hswap ▸ hgate)
    rw [if_pos hswap] at hpindex
    rwa [← hpindex, Option.isSome_map] at hsome
  have hsome : (lowerGate gate (column.get wire).rotation (column.get wire).isRotated target
      a b p).isSome = true := lowerGate_isSome hswap
  obtain ⟨op, hop⟩ := Option.isSome_iff_exists.mp hsome
  obtain ⟨htarget, hcontrols, hpartners, harity, hisSwap⟩ := lowerGate_eq_some hop
  have hlower : lower wires_le gate (column.get wire) wire position = .ok op := by
    rw [lower_of_links wires_le wire position ha hb hp, hop]
  have hreach : (op.wires.map Wire.index).Sublist ((column.get wire).reach wire) := by
    refine Node.sublist_reach (congrArg Wire.index htarget) hcontrols hpartners haindex hbindex ?_
    rw [hpindex]
    split
    · exact List.Sublist.refl _
    · exact List.nil_sublist _
  refine ⟨op, hlower, ⟨harity, ?_, ?_, hisSwap⟩, hreach⟩
  · intro used hused
    exact h.lt_of_mem_reach (hreach.subset (List.mem_map_of_mem hused))
  · exact ((h.nodup_reach wire).sublist hreach).of_map

/-- A link-exclusive column compiles to well-formed operations on disjoint wires. -/
theorem compileColumn_eq_ok {grid : Grid α wires columns} (h : grid.Each Column.LinkExclusive)
    (column : Fin columns) :
    ∃ ops, grid.compileColumn column = .ok ops ∧ (∀ op ∈ ops, op.WellFormed wires) ∧
      ops.Pairwise fun op op' => op.wires.Disjoint op'.wires := by
  have hcells : ∀ cell ∈ grid.gateCellsOf column, ∃ op,
      lower grid.wires_le cell.gate cell.node cell.wire cell.column = .ok op ∧
        cell ∈ grid.gateCellsOf column ∧ op.WellFormed wires ∧
        (op.wires.map Wire.index).Sublist (cell.node.reach cell.wire) := by
    intro cell hmem
    obtain ⟨hnode, hgate⟩ := mem_gateCellsOf hmem
    obtain ⟨op, hop, hwell, hreach⟩ := lower_eq_ok (h column) grid.wires_le hgate cell.column
    exact ⟨op, hnode ▸ hop, hmem, hwell, hnode ▸ hreach⟩
  obtain ⟨ops, hops, hall⟩ := exists_mapM_eq_ok hcells
  refine ⟨ops, hops, ?_, pairwise_of_forall₂ hall (grid.pairwise_gateCellsOf column) ?_⟩
  · intro op hmem
    obtain ⟨_, _, _, hwell, _⟩ := exists_mem_of_forall₂ hall hmem
    exact hwell
  · intro cell op cell' op' ⟨hmem, _, hreach⟩ ⟨hmem', _, hreach'⟩ hne used hused hused'
    obtain ⟨hnode, hgate⟩ := mem_gateCellsOf hmem
    obtain ⟨hnode', hgate'⟩ := mem_gateCellsOf hmem'
    rw [hnode] at hreach
    rw [hnode'] at hreach'
    exact (h column).disjoint_reach hne (Option.isSome_of_eq_some hgate)
      (Option.isSome_of_eq_some hgate') (hreach.subset (List.mem_map_of_mem hused))
      (hreach'.subset (List.mem_map_of_mem hused'))

/-- A link-exclusive grid compiles, column after column. -/
theorem compile_eq_ok {grid : Grid α wires columns} (h : grid.Each Column.LinkExclusive) :
    ∃ opsOf : Fin columns → List (Operation α),
      (∀ column, grid.compileColumn column = .ok (opsOf column) ∧
        (∀ op ∈ opsOf column, op.WellFormed wires) ∧
        (opsOf column).Pairwise fun op op' => op.wires.Disjoint op'.wires) ∧
      grid.compile = .ok ((List.finRange columns).flatMap opsOf) := by
  choose opsOf hops using grid.compileColumn_eq_ok h
  exact ⟨opsOf, hops, mapM_flatMap_eq_ok (fun column => (hops column).1) _⟩

end Grid

end CircuitGrid
