import CircuitGrid.Proofs.Changes
import CircuitGrid.Proofs.ExactAngles
import CircuitGrid.Proofs.Linearization
import CircuitGrid.Proofs.Run

/-!
# Turning a gate

A freshly placed Pauli gate is turned again and again. Each turn replaces the rotation of this
one node and nothing else, so a run of turns folds their angles into the rotation
(`Editor.run_rotate`). In exact arithmetic the rotation stays normal all along, and equal turns
that add up to a full one end where they began: before the last of them nothing is dropped.
-/

namespace CircuitGrid

variable {α : Type} [Angle α]

/-- A gate with a rotation and without links. -/
def Node.ofRotated (gate : Gate) (rotation : α) : Node α :=
  { (Node.ofGate gate : Node α) with rotation }

/-- The rotation of a gate after it is turned further. -/
def turnFurther (rotation angle : α) : α := Angle.normalize (Angle.add rotation angle)

namespace Editor

variable {wires columns : Nat} {editor placed : Editor α wires columns} {wire : Fin wires}
  {column : Fin columns} {gate : Gate}

/-- The editor with another node in a cell. -/
def holding (editor : Editor α wires columns) (wire : Fin wires) (column : Fin columns)
    (node : Node α) : Editor α wires columns :=
  { editor with
    grid := editor.grid.setColumn column ((editor.grid.columnAt column).put wire node) }

omit [Angle α] in
theorem columnAt_holding (node : Node α) :
    (editor.holding wire column node).grid.columnAt column =
      (editor.grid.columnAt column).put wire node :=
  Grid.columnAt_setColumn_self _ _ _

/-- A placement that is accepted puts a fresh gate under the cursor. -/
theorem exists_holding_of_placeGate
    (h : editor.perform (.edit (.placeGate gate)) = (.ok .changed, placed)) :
    ∃ (wire : Fin wires) (column : Fin columns), editor.cursor = ⟨wire, column⟩ ∧
      placed = editor.holding wire column (Node.ofGate gate) := by
  have hchanged : (editor.perform (.edit (.placeGate gate))).1 = .ok .changed := by rw [h]
  obtain ⟨wire, column, nodes, hcursor, hchange, _⟩ := exists_of_perform_edit_changed hchanged
  obtain ⟨-, -, rfl⟩ := Column.placeGate_eq_changed hchange
  have hperform := perform_edit_of_changed hcursor hchange
  rw [show Editor.mk editor.grid editor.cursor = editor from rfl, h] at hperform
  exact ⟨wire, column, hcursor, (Prod.ext_iff.mp hperform).2⟩

omit [Angle α] in
theorem setColumn_put_holding (node other : Node α) :
    (editor.holding wire column node).grid.setColumn column
        (((editor.grid.columnAt column).put wire node).put wire other) =
      (editor.holding wire column other).grid := by
  show (editor.grid.setColumn column _).setColumn column _ = editor.grid.setColumn column _
  rw [Grid.setColumn_setColumn]
  congr 1
  apply Column.ext_get
  intro place
  rw [Column.get_put, Column.get_put, Column.get_put]
  split <;> rfl

/-- One turn replaces the rotation of the gate under the cursor. -/
theorem perform_rotate (hgate : gate.isRotatable = true)
    (hcursor : editor.cursor = ⟨wire, column⟩) (rotation angle : α) :
    (editor.holding wire column (.ofRotated gate rotation)).perform (.edit (.rotate angle)) =
      (.ok .changed,
        editor.holding wire column (.ofRotated gate (turnFurther rotation angle))) := by
  have hturned : (Node.ofRotated gate rotation).rotateBy? angle =
      some (.ofRotated gate (turnFurther rotation angle)) := by
    show (if gate.isRotatable = true then _ else none) = _
    rw [if_pos hgate]
    rfl
  have hchange : (Edit.rotate angle).onColumn
      ((editor.holding wire column (.ofRotated gate rotation)).grid.columnAt column) wire =
        .changed (((editor.grid.columnAt column).put wire (.ofRotated gate rotation)).put wire
          (.ofRotated gate (turnFurther rotation angle))) := by
    rw [columnAt_holding]
    show Column.rotate _ wire angle = _
    unfold Column.rotate
    rw [Column.get_put_self, hturned]
  have hperform := perform_edit_of_changed hcursor hchange
  rw [setColumn_put_holding] at hperform
  exact hperform

/-- A run of turns folds their angles into the rotation, and every one is accepted. -/
theorem run_rotate (hgate : gate.isRotatable = true) (hcursor : editor.cursor = ⟨wire, column⟩)
    (rotation : α) (angles : List α) :
    let start := editor.holding wire column (.ofRotated gate rotation)
    let turns : List (Action α) := angles.map fun angle => .edit (.rotate angle)
    start.run turns =
        editor.holding wire column (.ofRotated gate (angles.foldl turnFurther rotation)) ∧
      start.Throughout (fun editor turn => (editor.perform turn).1 = .ok .changed) turns := by
  induction angles generalizing rotation with
  | nil => exact ⟨rfl, trivial⟩
  | cons angle angles ih =>
    have hstep := perform_rotate hgate hcursor rotation angle
    obtain ⟨hrun, haccepted⟩ := ih (turnFurther rotation angle)
    refine ⟨?_, congrArg Prod.fst hstep, ?_⟩
    · rw [List.map_cons, run, hstep]
      exact hrun
    · rw [hstep]
      exact haccepted

end Editor

/-! ## Compiling a fresh gate -/

namespace Grid

variable {wires columns : Nat} {grid : Grid α wires columns} {wire : Fin wires}
  {column : Fin columns} {gate : Gate} {primitive : Primitive α}

/-- The gate of the cell compiles to one operation on its own wire, which is among those that
the grid compiles to. -/
def CompilesTo (grid : Grid α wires columns) (wire : Fin wires) (column : Fin columns)
    (primitive : Primitive α) : Prop :=
  ∃ node gate op, grid.get wire column = .ok node ∧ node.content = .gate gate ∧
    lower grid.wires_le gate node wire column = .ok op ∧
    op.target.index = wire ∧ op.gate = primitive ∧ op.controls = [] ∧ op.partner = none ∧
    ∀ ops, grid.compile = .ok ops → op ∈ ops

theorem compilesTo_of_mapsTo {node : Node α} (hnode : grid.get wire column = .ok node)
    (hgate : node.content = .gate gate) (hlinks : node.controlA = none ∧ node.controlB = none)
    (hswap : gate ≠ .swap) (hmaps : node.MapsTo primitive [] none) :
    grid.CompilesTo wire column primitive := by
  let cell : GateCell α wires columns := ⟨wire, column, gate, node⟩
  have hdefective : ¬ cell.Defective := by
    rintro (⟨_, hlink, _⟩ | ⟨_, hlink, _⟩ | ⟨hgate, _⟩)
    · rw [hlinks.1] at hlink
      cases hlink
    · rw [hlinks.2] at hlink
      cases hlink
    · exact hswap hgate
  obtain ⟨op, hop, hemits⟩ := GateCell.lowered_of_not_defective grid.wires_le hgate hdefective
  obtain ⟨hprimitive, hcontrols, hpartner⟩ := hemits.maps.unique hmaps
  refine ⟨node, gate, op, hnode, hgate, hop, hemits.target, hprimitive,
    List.map_eq_nil_iff.mp hcontrols, Option.map_eq_none_iff.mp hpartner, ?_⟩
  intro ops hops
  have hmem : cell ∈ grid.gateCells := mem_gateCells.mpr ⟨hnode, hgate⟩
  obtain ⟨op', hmem', hemits'⟩ := exists_mem_of_forall₂ (compile_eq_ok_iff.mp hops).2.flip hmem
  rw [hemits.unique hemits']
  exact hmem'

end Grid

/-! ## Turns in exact arithmetic -/

section Exact

open FullTurn ExactAngle

variable {K : Type} [Field K] [LinearOrder K] [IsStrictOrderedRing K] [FloorRing K] [FullTurn K]

/-- A run of turns leaves a normal rotation. -/
theorem normal_foldl {rotation : K} (h : Normal rotation) (angles : List K) :
    Normal (angles.foldl turnFurther rotation) := by
  induction angles generalizing rotation with
  | nil => exact h
  | cons angle angles ih => exact ih (normal_normalize _)

variable {k : Nat}

/-- Before the full turn is complete, equal turns add up without loss. -/
theorem foldl_replicate_of_lt (hstep : tolerance ≤ (turn : K) / k) {j : Nat} (hj : j < k) :
    (List.replicate j ((turn : K) / k)).foldl turnFurther 0 = j * (turn / k) := by
  induction j with
  | zero => simp
  | succ j ih =>
    have hk : (0 : K) < k := by exact_mod_cast Nat.zero_lt_of_lt hj
    have hnonneg : (0 : K) ≤ turn / k := tolerance_pos.le.trans hstep
    have hsum : (k : K) * (turn / k) = turn := mul_div_cancel₀ _ hk.ne'
    have hroom : ((j + 1 : Nat) : K) + 1 ≤ k := by exact_mod_cast hj
    have hone : (1 : K) ≤ ((j + 1 : Nat) : K) := by exact_mod_cast Nat.succ_le_succ (Nat.zero_le j)
    have hnormal : Normal (((j + 1 : Nat) : K) * (turn / k)) := by
      right
      constructor
      · calc (tolerance : K)
          _ ≤ turn / k := hstep
          _ ≤ ((j + 1 : Nat) : K) * (turn / k) := le_mul_of_one_le_left hnonneg hone
      · have hle : (((j + 1 : Nat) : K) + 1) * (turn / k) ≤ turn := by
          calc (((j + 1 : Nat) : K) + 1) * (turn / k)
            _ ≤ k * (turn / k) := mul_le_mul_of_nonneg_right hroom hnonneg
            _ = turn := hsum
        linarith
    rw [List.replicate_succ', List.foldl_append, ih (Nat.lt_of_succ_lt hj)]
    show Angle.normalize ((j : K) * (turn / k) + turn / k) = _
    rw [← normalize_of_normal hnormal]
    congr 1
    push_cast
    ring

/-- Equal turns that add up to a full one end on no rotation. -/
theorem foldl_replicate_turn (hk : 1 ≤ k) (hstep : tolerance ≤ (turn : K) / k) :
    (List.replicate k ((turn : K) / k)).foldl turnFurther 0 = 0 := by
  obtain ⟨j, rfl⟩ := Nat.exists_eq_succ_of_ne_zero (Nat.ne_of_gt hk)
  have hne : ((j + 1 : Nat) : K) ≠ 0 := by exact_mod_cast Nat.succ_ne_zero j
  have hsum : (j : K) * (turn / (j + 1 : Nat)) + turn / (j + 1 : Nat) = turn := by
    calc (j : K) * (turn / (j + 1 : Nat)) + turn / (j + 1 : Nat)
      _ = ((j + 1 : Nat) : K) * (turn / (j + 1 : Nat)) := by push_cast; ring
      _ = turn := mul_div_cancel₀ _ hne
  rw [List.replicate_succ', List.foldl_append, foldl_replicate_of_lt hstep (Nat.lt_succ_self j)]
  show Angle.normalize ((j : K) * (turn / (j + 1 : Nat)) + turn / (j + 1 : Nat)) = 0
  rw [hsum, normalize_turn]

/-- The Pauli gates, each with what it compiles to when it is not rotated. -/
def plainPaulis : List (Gate × Primitive K) := [(.pauliX, .x), (.pauliY, .y), (.pauliZ, .z)]

omit [Field K] [LinearOrder K] [IsStrictOrderedRing K] [FloorRing K] [FullTurn K] in
theorem isRotatable_of_mem_plainPaulis {gate : Gate} {plain : Primitive K}
    (h : (gate, plain) ∈ plainPaulis) : gate.isRotatable = true ∧ gate ≠ .swap := by
  simp only [plainPaulis, List.mem_cons, Prod.mk.injEq, List.not_mem_nil, or_false] at h
  rcases h with ⟨rfl, -⟩ | ⟨rfl, -⟩ | ⟨rfl, -⟩ <;> decide

omit [IsStrictOrderedRing K] in
theorem mapsTo_of_mem_plainPaulis {gate : Gate} {plain : Primitive K}
    (h : (gate, plain) ∈ plainPaulis) : (Node.ofRotated gate (0 : K)).MapsTo plain [] none := by
  have hrotated : (Node.ofRotated gate (0 : K)).isRotated = false := by
    show (!decide ((0 : K) = 0)) = false
    simp
  simp only [plainPaulis, List.mem_cons, Prod.mk.injEq, List.not_mem_nil, or_false] at h
  rcases h with ⟨rfl, rfl⟩ | ⟨rfl, rfl⟩ | ⟨rfl, rfl⟩
  · exact .x rfl hrotated rfl
  · exact .y rfl hrotated rfl
  · exact .z rfl hrotated rfl

/-- Normalizing makes an angle normal, changes it by less than the tolerance up to whole turns,
and does so once and for all, whatever whole turns are added. So the rotation of a freshly
placed Pauli gate stays normal however it is turned, and `k` turns by a `k`-th of a full one
leave it exactly as it was placed: it compiles as unrotated again. -/
theorem normalize_and_turns_close :
    (∀ x : K, Normal (Angle.normalize x) ∧
      (∃ n : ℤ, |x - n * turn - Angle.normalize x| < tolerance) ∧
      Angle.normalize (Angle.normalize x) = Angle.normalize x ∧
      ∀ n : ℤ, Angle.normalize (x + n * turn) = Angle.normalize x) ∧
    ∀ (wires columns : Nat) (editor placed : Editor K wires columns) (gate : Gate)
      (plain : Primitive K), (gate, plain) ∈ plainPaulis →
      editor.perform (.edit (.placeGate gate)) = (.ok .changed, placed) →
      ∃ (wire : Fin wires) (column : Fin columns), placed.cursor = ⟨wire, column⟩ ∧
        (∀ angles : List K,
          let turns : List (Action K) := angles.map fun angle => .edit (.rotate angle)
          placed.Throughout (fun editor turn => (editor.perform turn).1 = .ok .changed) turns ∧
            ∃ rotation, Normal rotation ∧
              (placed.run turns).grid.get wire column = .ok (.ofRotated gate rotation)) ∧
        ∀ k : Nat, 1 ≤ k → tolerance ≤ (turn : K) / k →
          let turned := placed.run (List.replicate k (.edit (.rotate (turn / k))))
          turned = placed ∧ turned.grid.get wire column = .ok (.ofRotated gate 0) ∧
            turned.grid.CompilesTo wire column plain := by
  refine ⟨fun x => ⟨normal_normalize x, exists_abs_sub_normalize_lt x,
    normalize_of_normal (normal_normalize x), normalize_add_mul x⟩, ?_⟩
  intro wires columns editor placed gate plain hpauli hplace
  obtain ⟨hrotatable, hswap⟩ := isRotatable_of_mem_plainPaulis hpauli
  obtain ⟨wire, column, hcursor, rfl⟩ := Editor.exists_holding_of_placeGate hplace
  have hread : ∀ rotation : K,
      (editor.holding wire column (.ofRotated gate rotation)).grid.get wire column =
        .ok (.ofRotated gate rotation) := by
    intro rotation
    rw [Grid.get_fin, Editor.columnAt_holding, Column.get_put_self]
  refine ⟨wire, column, hcursor, ?_, ?_⟩
  · intro angles turns
    obtain ⟨hrun, haccepted⟩ := Editor.run_rotate hrotatable hcursor (0 : K) angles
    refine ⟨haccepted, _, normal_foldl (Or.inl rfl) angles, ?_⟩
    rw [← hread, ← hrun]
    rfl
  · intro k hk hstep turned
    have hturned : turned = editor.holding wire column (.ofRotated gate 0) := by
      obtain ⟨hrun, -⟩ :=
        Editor.run_rotate hrotatable hcursor (0 : K) (List.replicate k (turn / k))
      rw [foldl_replicate_turn hk hstep, List.map_replicate] at hrun
      exact hrun
    rw [hturned]
    exact ⟨rfl, hread 0, Grid.compilesTo_of_mapsTo (hread 0) rfl ⟨rfl, rfl⟩ hswap
      (mapsTo_of_mem_plainPaulis hpauli)⟩

end Exact

theorem two_mul_tolerance_lt_radians : 2 * (1e-9 : ℚ) < 6.283185307179586 := by norm_num

/-- The turn and the tolerance of floating-point angles, as rational numbers. -/
instance FullTurn.radians : FullTurn ℚ where
  turn := 6.283185307179586
  tolerance := 1e-9
  tolerance_pos := by norm_num
  two_tolerance_lt := two_mul_tolerance_lt_radians

/-- Sixteen turns by an eighth of half a turn leave a Z gate unrotated. -/
theorem compilesTo_of_sixteen_turns :
    ∃ grid : Grid ℚ 1 1, Grid.empty? 1 1 = .ok grid ∧
      ∃ placed, (Editor.start grid).perform (.edit (.placeGate .pauliZ)) = (.ok .changed, placed) ∧
        (placed.run (List.replicate 16 (.edit (.rotate (FullTurn.turn / 16))))).grid.CompilesTo
          0 0 .z := by
  obtain ⟨grid, hgrid⟩ : ∃ grid : Grid ℚ 1 1, Grid.empty? 1 1 = .ok grid := ⟨_, rfl⟩
  have hplace : ((Editor.start grid).perform (.edit (.placeGate .pauliZ))).1 = .ok .changed := by
    cases hgrid
    rfl
  obtain ⟨wire, column, _, _, hclose⟩ := normalize_and_turns_close.2 1 1 (Editor.start grid) _
    .pauliZ .z (by decide) (Prod.ext hplace rfl)
  have hstep : FullTurn.tolerance ≤ (FullTurn.turn : ℚ) / (16 : Nat) := by
    show (1e-9 : ℚ) ≤ 6.283185307179586 / (16 : Nat)
    norm_num
  refine ⟨grid, hgrid, _, Prod.ext hplace rfl, ?_⟩
  have hcompiles := (hclose 16 (by decide) hstep).2.2
  rw [Subsingleton.elim wire 0, Subsingleton.elim column 0] at hcompiles
  exact hcompiles

end CircuitGrid
