import CircuitGrid.Proofs.Emission

/-!
# Compilation as a linearization

What a grid compiles to, said without the compiler. `Node.MapsTo` is the mapping
table, one rule for each primitive gate. A gate cell is *defective* if it names a
control wire that does not exist, or is a swap without an existing partner;
`GateCell.Reports` says which error is due to it.

A grid without defective cells compiles to the operations of its gate cells,
columns ascending and wires ascending within a column. Any other grid is refused
with the error of its first defective cell in this order.
-/

namespace CircuitGrid

/-! ## The mapping table -/

/-- The primitive gate that a node stands for, with the control wires and the
second wire it acts on. -/
inductive Node.MapsTo {α : Type} [Angle α] (node : Node α) :
    Primitive α → List Nat → Option Nat → Prop
  | x : node.content = .gate .pauliX → node.isRotated = false → node.controlA = none →
      node.MapsTo .x [] none
  | cx {a : Nat} : node.content = .gate .pauliX → node.isRotated = false →
      node.controlA = some a → node.controlB = none → node.MapsTo .cx [a] none
  | ccx {a b : Nat} : node.content = .gate .pauliX → node.isRotated = false →
      node.controlA = some a → node.controlB = some b → node.MapsTo .ccx [a, b] none
  | rx : node.content = .gate .pauliX → node.isRotated = true →
      node.MapsTo (.rx node.rotation) [] none
  | y : node.content = .gate .pauliY → node.isRotated = false → node.controlA = none →
      node.MapsTo .y [] none
  | cy {a : Nat} : node.content = .gate .pauliY → node.isRotated = false →
      node.controlA = some a → node.MapsTo .cy [a] none
  | ry : node.content = .gate .pauliY → node.isRotated = true →
      node.MapsTo (.ry node.rotation) [] none
  | z : node.content = .gate .pauliZ → node.isRotated = false → node.controlA = none →
      node.MapsTo .z [] none
  | cz {a : Nat} : node.content = .gate .pauliZ → node.isRotated = false →
      node.controlA = some a → node.MapsTo .cz [a] none
  | rz : node.content = .gate .pauliZ → node.isRotated = true → node.controlA = none →
      node.MapsTo (.rz node.rotation) [] none
  | crz {a : Nat} : node.content = .gate .pauliZ → node.isRotated = true →
      node.controlA = some a → node.MapsTo (.crz node.rotation) [a] none
  | h : node.content = .gate .hadamard → node.controlA = none → node.MapsTo .h [] none
  | ch {a : Nat} : node.content = .gate .hadamard → node.controlA = some a →
      node.MapsTo .ch [a] none
  | s : node.content = .gate .s → node.MapsTo .s [] none
  | sdg : node.content = .gate .sDagger → node.MapsTo .sdg [] none
  | t : node.content = .gate .t → node.MapsTo .t [] none
  | tdg : node.content = .gate .tDagger → node.MapsTo .tdg [] none
  | id : node.content = .gate .identity → node.MapsTo .id [] none
  | swap {p : Nat} : node.content = .gate .swap → node.controlA = none →
      node.partner = some p → node.MapsTo .swap [] (some p)
  | cswap {a p : Nat} : node.content = .gate .swap → node.controlA = some a →
      node.partner = some p → node.MapsTo .cswap [a] (some p)

namespace Node

variable {α : Type} [Angle α] {node : Node α}

/-- No two rules apply to one node. -/
theorem MapsTo.unique {primitive primitive' : Primitive α} {controls controls' : List Nat}
    {partner partner' : Option Nat} (h : node.MapsTo primitive controls partner)
    (h' : node.MapsTo primitive' controls' partner') :
    primitive = primitive' ∧ controls = controls' ∧ partner = partner' := by
  cases h <;> cases h' <;> simp_all

/-- Lowering follows the table. -/
theorem mapsTo_of_lowerGate {gate : Gate} {target : Wire} {a b p : Option Wire}
    {op : Operation α} (hcontent : node.content = .gate gate)
    (hA : a.map Wire.index = node.controlA) (hB : b.map Wire.index = node.controlB)
    (hP : gate = .swap → p.map Wire.index = node.partner)
    (h : lowerGate gate node.rotation node.isRotated target a b p = some op) :
    node.MapsTo op.gate (op.controls.map Wire.index) (op.partner.map Wire.index) := by
  cases gate with
  | pauliX =>
    cases hrotated : node.isRotated with
    | true =>
      rw [hrotated] at h
      cases h
      exact .rx hcontent hrotated
    | false =>
      rw [hrotated] at h
      cases a with
      | none => cases h; exact .x hcontent hrotated hA.symm
      | some a =>
        cases b with
        | none => cases h; exact .cx hcontent hrotated hA.symm hB.symm
        | some b => cases h; exact .ccx hcontent hrotated hA.symm hB.symm
  | pauliY =>
    cases hrotated : node.isRotated with
    | true =>
      rw [hrotated] at h
      cases h
      exact .ry hcontent hrotated
    | false =>
      rw [hrotated] at h
      cases a with
      | none => cases h; exact .y hcontent hrotated hA.symm
      | some a => cases h; exact .cy hcontent hrotated hA.symm
  | pauliZ =>
    cases hrotated : node.isRotated with
    | true =>
      rw [hrotated] at h
      cases a with
      | none => cases h; exact .rz hcontent hrotated hA.symm
      | some a => cases h; exact .crz hcontent hrotated hA.symm
    | false =>
      rw [hrotated] at h
      cases a with
      | none => cases h; exact .z hcontent hrotated hA.symm
      | some a => cases h; exact .cz hcontent hrotated hA.symm
  | hadamard =>
    cases a with
    | none => cases h; exact .h hcontent hA.symm
    | some a => cases h; exact .ch hcontent hA.symm
  | swap =>
    cases p with
    | none => cases a <;> cases h
    | some p =>
      cases a with
      | none => cases h; exact .swap hcontent hA.symm (hP rfl).symm
      | some a => cases h; exact .cswap hcontent hA.symm (hP rfl).symm
  | s => cases h; exact .s hcontent
  | sDagger => cases h; exact .sdg hcontent
  | t => cases h; exact .t hcontent
  | tDagger => cases h; exact .tdg hcontent
  | identity => cases h; exact .id hcontent

end Node

/-! ## Defective cells -/

/-- The link names a wire that a grid of `wires` wires does not have. -/
def Dangling (wires : Nat) (link : Option Nat) : Prop := ∃ wire, link = some wire ∧ wires ≤ wire

namespace GateCell

variable {α : Type} {wires columns : Nat}

/-- The order of compilation: by column, and by wire within a column. -/
def Precedes (cell other : GateCell α wires columns) : Prop :=
  cell.column < other.column ∨ cell.column = other.column ∧ cell.wire < other.wire

/-- The cell names a control wire that does not exist, or is a swap whose partner
is missing or does not exist. -/
def Defective (cell : GateCell α wires columns) : Prop :=
  Dangling wires cell.node.controlA ∨ Dangling wires cell.node.controlB ∨
    cell.gate = .swap ∧ (cell.node.partner = none ∨ Dangling wires cell.node.partner)

/-- The error due to a defective cell. The first control counts before the
second, and both before the partner, which only a swap needs. -/
inductive Reports (cell : GateCell α wires columns) : GridError → Prop
  | controlA {wire : Nat} : cell.node.controlA = some wire → wires ≤ wire →
      cell.Reports (.wireOutOfRange wire wires)
  | controlB {wire : Nat} : ¬ Dangling wires cell.node.controlA →
      cell.node.controlB = some wire → wires ≤ wire → cell.Reports (.wireOutOfRange wire wires)
  | partner {wire : Nat} : ¬ Dangling wires cell.node.controlA →
      ¬ Dangling wires cell.node.controlB → cell.gate = .swap →
      cell.node.partner = some wire → wires ≤ wire → cell.Reports (.wireOutOfRange wire wires)
  | noPartner : ¬ Dangling wires cell.node.controlA → ¬ Dangling wires cell.node.controlB →
      cell.gate = .swap → cell.node.partner = none →
      cell.Reports (.missingSwapPartner cell.wire cell.column)

theorem exists_reports {cell : GateCell α wires columns} (h : cell.Defective) :
    ∃ error, cell.Reports error := by
  by_cases hA : Dangling wires cell.node.controlA
  · obtain ⟨wire, hlink, hle⟩ := hA
    exact ⟨_, .controlA hlink hle⟩
  by_cases hB : Dangling wires cell.node.controlB
  · obtain ⟨wire, hlink, hle⟩ := hB
    exact ⟨_, .controlB hA hlink hle⟩
  rcases h with h | h | ⟨hswap, hnone | ⟨wire, hlink, hle⟩⟩
  · exact absurd h hA
  · exact absurd h hB
  · exact ⟨_, .noPartner hA hB hswap hnone⟩
  · exact ⟨_, .partner hA hB hswap hlink hle⟩

end GateCell

/-! ## Lowering one cell -/

theorem Wire.index_injective : Function.Injective Wire.index := by
  rintro ⟨index, _⟩ ⟨other, _⟩ h
  cases h
  rfl

section Links

variable {wires : Nat} (wires_le : wires ≤ maxWires) {link : Option Nat}

theorem linkedWire_of_not_dangling (h : ¬ Dangling wires link) :
    ∃ found, linkedWire wires wires_le link = .ok found ∧ found.map Wire.index = link := by
  apply linkedWire_eq_ok
  intro wire hlink
  exact Nat.lt_of_not_le (fun hle => h ⟨wire, hlink, hle⟩)

theorem linkedWire_of_le {wire : Nat} (hlink : link = some wire) (hle : wires ≤ wire) :
    linkedWire wires wires_le link = .error (.wireOutOfRange wire wires) := by
  rw [hlink]
  exact dif_neg (Nat.not_lt.mpr hle)

end Links

namespace GateCell

variable {α : Type} [Angle α] {wires columns : Nat} {cell : GateCell α wires columns}
  {op : Operation α} {error : GridError}

/-- The operation acts on the wire of the cell as the table says. -/
structure Emits (cell : GateCell α wires columns) (op : Operation α) : Prop where
  target : op.target.index = cell.wire
  maps : cell.node.MapsTo op.gate (op.controls.map Wire.index) (op.partner.map Wire.index)

/-- A cell emits one operation at most. -/
theorem Emits.unique {op' : Operation α} (h : cell.Emits op) (h' : cell.Emits op') :
    op = op' := by
  obtain ⟨hgate, hcontrols, hpartner⟩ := h.maps.unique h'.maps
  have htarget := Wire.index_injective (h.target.trans h'.target.symm)
  cases op
  cases op'
  congr 1
  · exact Wire.index_injective.list_map hcontrols
  · exact Option.map_injective Wire.index_injective hpartner

/-- What compilation makes of one cell. -/
abbrev lowered (cell : GateCell α wires columns) (wires_le : wires ≤ maxWires) :
    Except GridError (Operation α) :=
  lower wires_le cell.gate cell.node cell.wire cell.column

variable (wires_le : wires ≤ maxWires)

theorem lowered_of_reports (h : cell.Reports error) : cell.lowered wires_le = .error error := by
  cases h with
  | controlA hlink hle =>
    unfold lowered lower
    rw [linkedWire_of_le wires_le hlink hle]
    rfl
  | controlB hA hlink hle =>
    obtain ⟨a, ha, _⟩ := linkedWire_of_not_dangling wires_le hA
    unfold lowered lower
    rw [ha, linkedWire_of_le wires_le hlink hle]
    rfl
  | partner hA hB hswap hlink hle =>
    obtain ⟨a, ha, _⟩ := linkedWire_of_not_dangling wires_le hA
    obtain ⟨b, hb, _⟩ := linkedWire_of_not_dangling wires_le hB
    unfold lowered lower
    rw [ha, hb, if_pos hswap, linkedWire_of_le wires_le hlink hle]
    rfl
  | noPartner hA hB hswap hnone =>
    obtain ⟨a, ha, _⟩ := linkedWire_of_not_dangling wires_le hA
    obtain ⟨b, hb, _⟩ := linkedWire_of_not_dangling wires_le hB
    rw [lowered, lower_of_links wires_le cell.wire cell.column ha hb
      (p := none) (by rw [if_pos hswap, hnone]; rfl), hswap]
    cases a <;> rfl

theorem lowered_of_not_defective (hgate : cell.node.content = .gate cell.gate)
    (h : ¬ cell.Defective) : ∃ op, cell.lowered wires_le = .ok op ∧ cell.Emits op := by
  rw [Defective, not_or, not_or, not_and, not_or] at h
  obtain ⟨hA, hB, hpartner⟩ := h
  obtain ⟨a, ha, haindex⟩ := linkedWire_of_not_dangling wires_le hA
  obtain ⟨b, hb, hbindex⟩ := linkedWire_of_not_dangling wires_le hB
  -- the partner is looked up for a swap only
  have hneeded : ¬ Dangling wires (if cell.gate = .swap then cell.node.partner else none) := by
    split
    · next hswap => exact (hpartner hswap).2
    · rintro ⟨wire, hnone, _⟩
      cases hnone
  obtain ⟨p, hp, hpindex⟩ := linkedWire_of_not_dangling wires_le hneeded
  have hswap : cell.gate = .swap → p.map Wire.index = cell.node.partner := by
    intro hswap
    rw [hpindex, if_pos hswap]
  have hpsome : cell.gate = .swap → p.isSome = true := by
    intro hgate
    rw [← Option.isSome_map, hswap hgate, Option.isSome_iff_ne_none]
    exact (hpartner hgate).1
  let target : Wire :=
    ⟨cell.wire, Nat.lt_of_lt_of_le cell.wire.isLt (Nat.le_trans wires_le (by decide))⟩
  have hsome : (lowerGate cell.gate cell.node.rotation cell.node.isRotated target
      a b p).isSome = true := lowerGate_isSome hpsome
  obtain ⟨op, hop⟩ := Option.isSome_iff_exists.mp hsome
  refine ⟨op, ?_, congrArg Wire.index (lowerGate_eq_some hop).1,
    Node.mapsTo_of_lowerGate hgate haindex hbindex hswap hop⟩
  rw [lowered, lower_of_links wires_le cell.wire cell.column ha hb hp, hop]

theorem lowered_eq_error_iff (hgate : cell.node.content = .gate cell.gate) :
    cell.lowered wires_le = .error error ↔ cell.Reports error := by
  constructor
  · intro h
    by_cases hdefective : cell.Defective
    · obtain ⟨found, hfound⟩ := exists_reports hdefective
      rw [lowered_of_reports wires_le hfound] at h
      cases h
      exact hfound
    · obtain ⟨op, hop, _⟩ := lowered_of_not_defective wires_le hgate hdefective
      rw [hop] at h
      cases h
  · exact lowered_of_reports wires_le

theorem lowered_eq_ok_iff (hgate : cell.node.content = .gate cell.gate) :
    cell.lowered wires_le = .ok op ↔ ¬ cell.Defective ∧ cell.Emits op := by
  constructor
  · intro h
    have hdefective : ¬ cell.Defective := by
      intro hdefective
      obtain ⟨error, hreports⟩ := exists_reports hdefective
      rw [lowered_of_reports wires_le hreports] at h
      cases h
    obtain ⟨found, hfound, hemits⟩ := lowered_of_not_defective wires_le hgate hdefective
    rw [hfound] at h
    cases h
    exact ⟨hdefective, hemits⟩
  · rintro ⟨hdefective, hemits⟩
    obtain ⟨found, hfound, hemits'⟩ := lowered_of_not_defective wires_le hgate hdefective
    rw [hfound, hemits.unique hemits']

end GateCell

/-! ## The cells in order -/

namespace Grid

variable {α : Type} {wires columns : Nat}

/-- The gate cells are the positions that own a gate, each with its node. -/
theorem mem_gateCells {grid : Grid α wires columns} {cell : GateCell α wires columns} :
    cell ∈ grid.gateCells ↔
      grid.get cell.wire cell.column = .ok cell.node ∧ cell.node.content = .gate cell.gate := by
  rw [get_fin, Except.ok.injEq, ← Node.gate?_eq_some_iff]
  constructor
  · intro h
    obtain ⟨column, _, hmem⟩ := List.mem_flatMap.mp h
    obtain ⟨wire, _, hcell⟩ := List.mem_filterMap.mp hmem
    obtain ⟨gate, hgate, rfl⟩ := Option.map_eq_some_iff.mp hcell
    exact ⟨rfl, hgate⟩
  · obtain ⟨wire, column, gate, node⟩ := cell
    rintro ⟨hnode, hgate⟩
    obtain rfl : (grid.columnAt column).get wire = node := hnode
    refine List.mem_flatMap.mpr ⟨column, List.mem_finRange column, ?_⟩
    exact List.mem_filterMap.mpr
      ⟨wire, List.mem_finRange wire, Option.map_eq_some_iff.mpr ⟨gate, hgate, rfl⟩⟩

/-- The gate cells come in the order of compilation. -/
theorem pairwise_gateCells (grid : Grid α wires columns) :
    grid.gateCells.Pairwise GateCell.Precedes := by
  refine List.pairwise_flatMap.mpr ⟨?_, (List.pairwise_lt_finRange columns).imp ?_⟩
  · intro column _
    refine List.pairwise_filterMap.mpr ((List.pairwise_lt_finRange wires).imp ?_)
    intro wire other hlt cell hcell cell' hcell'
    obtain ⟨_, _, rfl⟩ := Option.map_eq_some_iff.mp hcell
    obtain ⟨_, _, rfl⟩ := Option.map_eq_some_iff.mp hcell'
    exact Or.inr ⟨rfl, hlt⟩
  · intro column column' hlt cell hmem cell' hmem'
    obtain ⟨_, _, hcell⟩ := List.mem_filterMap.mp hmem
    obtain ⟨_, _, hcell'⟩ := List.mem_filterMap.mp hmem'
    obtain ⟨_, _, rfl⟩ := Option.map_eq_some_iff.mp hcell
    obtain ⟨_, _, rfl⟩ := Option.map_eq_some_iff.mp hcell'
    exact Or.inl hlt

theorem toList_eq_map_get {τ : Type} {n : Nat} (xs : Vector τ n) :
    xs.toList = (List.finRange n).map xs.get := by
  apply List.ext_getElem
  · simp
  · intro i hi hi'
    simp [Vector.get]

/-- There are as many gate cells as nodes with a gate. -/
theorem length_gateCells (grid : Grid α wires columns) :
    grid.gateCells.length = grid.gateCount := by
  have hcolumn : ∀ column, (grid.gateCellsOf column).length =
      (grid.columnAt column).toList.countP fun node => node.gate?.isSome := by
    intro column
    rw [toList_eq_map_get, List.countP_map, gateCellsOf, List.length_filterMap_eq_countP]
    apply List.countP_congr
    intro wire _
    simp
  unfold gateCount nodes gateCells
  rw [toList_eq_map_get, List.flatMap_map, List.countP_flatMap, List.length_flatMap]
  congr 1
  apply List.map_congr_left
  intro column _
  exact hcolumn column

/-! ## The whole grid -/

variable [Angle α]

theorem exists_compile_eq_ok {grid : Grid α wires columns}
    (h : ∀ cell ∈ grid.gateCells, ¬ cell.Defective) : ∃ ops, grid.compile = .ok ops := by
  obtain ⟨ops, hops, _⟩ := exists_mapM_eq_ok fun cell hmem =>
    GateCell.lowered_of_not_defective grid.wires_le (mem_gateCells.mp hmem).2 (h cell hmem)
  exact ⟨ops, hops⟩

theorem compile_eq_ok_iff {grid : Grid α wires columns} {ops : List (Operation α)} :
    grid.compile = .ok ops ↔ (∀ cell ∈ grid.gateCells, ¬ cell.Defective) ∧
      List.Forall₂ GateCell.Emits grid.gateCells ops := by
  have hgates : ∀ cell ∈ grid.gateCells, cell.node.content = .gate cell.gate :=
    fun _ hmem => (mem_gateCells.mp hmem).2
  rw [compile, mapM_eq_ok_iff, ← List.forall₂_and_left]
  constructor
  · intro h
    exact ((List.forall₂_and_left _ _).mpr ⟨hgates, h⟩).imp
      fun _ _ ⟨hgate, hop⟩ => (GateCell.lowered_eq_ok_iff grid.wires_le hgate).mp hop
  · intro h
    exact ((List.forall₂_and_left _ _).mpr ⟨hgates, h⟩).imp
      fun _ _ ⟨hgate, hemits⟩ => (GateCell.lowered_eq_ok_iff grid.wires_le hgate).mpr hemits

theorem compile_eq_error_iff {grid : Grid α wires columns} {error : GridError} :
    grid.compile = .error error ↔ ∃ before cell after,
      grid.gateCells = before ++ cell :: after ∧ (∀ earlier ∈ before, ¬ earlier.Defective) ∧
        cell.Reports error := by
  have hgates : ∀ cell ∈ grid.gateCells, cell.node.content = .gate cell.gate :=
    fun _ hmem => (mem_gateCells.mp hmem).2
  rw [compile, mapM_eq_error_iff]
  constructor
  · rintro ⟨before, cell, after, hcells, hbefore, herror⟩
    rw [hcells] at hgates
    refine ⟨before, cell, after, hcells, ?_,
      (GateCell.lowered_eq_error_iff grid.wires_le (hgates cell (by simp))).mp herror⟩
    intro earlier hmem
    obtain ⟨op, hop⟩ := hbefore earlier hmem
    exact ((GateCell.lowered_eq_ok_iff grid.wires_le
      (hgates earlier (List.mem_append_left _ hmem))).mp hop).1
  · rintro ⟨before, cell, after, hcells, hbefore, hreports⟩
    rw [hcells] at hgates
    refine ⟨before, cell, after, hcells, ?_, GateCell.lowered_of_reports grid.wires_le hreports⟩
    intro earlier hmem
    obtain ⟨op, hop, _⟩ := GateCell.lowered_of_not_defective grid.wires_le
      (hgates earlier (List.mem_append_left _ hmem)) (hbefore earlier hmem)
    exact ⟨op, hop⟩

/-- Compilation is the linearization of the grid. There is one list of its gate
cells, columns ascending and wires ascending within a column. The grid compiles
if none of them is defective, to their operations in this order, one for each;
otherwise it is refused with the error of the first defective one. -/
theorem compile_linearizes (grid : Grid α wires columns) :
    ∃ cells : List (GateCell α wires columns),
      cells.Pairwise GateCell.Precedes ∧
      (∀ cell, cell ∈ cells ↔
        grid.get cell.wire cell.column = .ok cell.node ∧ cell.node.content = .gate cell.gate) ∧
      ((∃ ops, grid.compile = .ok ops) ↔ ∀ cell ∈ cells, ¬ cell.Defective) ∧
      (∀ ops, grid.compile = .ok ops ↔
        (∀ cell ∈ cells, ¬ cell.Defective) ∧ List.Forall₂ GateCell.Emits cells ops) ∧
      (∀ ops, grid.compile = .ok ops → ops.length = grid.gateCount) ∧
      ∀ error, grid.compile = .error error ↔ ∃ before cell after,
        cells = before ++ cell :: after ∧ (∀ earlier ∈ before, ¬ earlier.Defective) ∧
          cell.Reports error := by
  refine ⟨grid.gateCells, grid.pairwise_gateCells, fun _ => mem_gateCells,
    ⟨fun ⟨_, hops⟩ => (compile_eq_ok_iff.mp hops).1, exists_compile_eq_ok⟩,
    fun _ => compile_eq_ok_iff, ?_, fun _ => compile_eq_error_iff⟩
  intro ops hops
  rw [← length_gateCells]
  exact (compile_eq_ok_iff.mp hops).2.length_eq.symm

end Grid

end CircuitGrid
