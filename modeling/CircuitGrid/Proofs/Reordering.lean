import CircuitGrid.Proofs.Linearization
import CircuitGrid.Proofs.Simulable

/-!
# Operations of one column in another order

The operations that one column compiles to act on disjoint wires. Over a commutative
semiring of amplitudes two operations on disjoint wires can be exchanged, so that a
column has the same effect in whichever order its operations are applied
(`apply_reordered`).
-/

namespace CircuitGrid

/-! ## Operations on disjoint wires -/

namespace Operation

variable {α : Type} {op other : Operation α}

/-- An operation flips no bit of a wire that it does not act on. -/
theorem testBit_flips_of_notMem {wire : Wire} (h : wire ∉ op.wires) :
    op.flips.testBit wire.index = false := by
  have htarget : op.target.index ≠ wire.index := by
    intro heq
    refine h (Wire.index_injective heq ▸ ?_)
    exact List.mem_append_right _ List.mem_cons_self
  rw [testBit_flips, decide_eq_false htarget, Bool.false_xor]
  cases hsecond : op.second? with
  | none => rfl
  | some second =>
    have hne : second.index ≠ wire.index := by
      intro heq
      exact h (Wire.index_injective heq ▸ op.mem_wires_of_second hsecond)
    exact decide_eq_false hne

theorem selects_xor_flips_of_disjoint (h : op.wires.Disjoint other.wires) (i : Nat) :
    op.selects (i ^^^ other.flips) = op.selects i := by
  have hbit : ∀ wire ∈ op.wires, (i ^^^ other.flips).testBit wire.index = i.testBit wire.index := by
    intro wire hmem
    rw [Nat.testBit_xor, testBit_flips_of_notMem (h hmem), Bool.xor_false]
  have htarget : op.target ∈ op.wires := List.mem_append_right _ List.mem_cons_self
  rw [Bool.eq_iff_iff, selects_iff, selects_iff, hbit _ htarget]
  refine and_congr (forall₂_congr ?_) (and_congr_right' (forall₂_congr ?_))
  · intro wire hmem
    rw [hbit wire (List.mem_append_left _ hmem)]
  · intro wire hsecond
    rw [hbit wire (op.mem_wires_of_second hsecond)]

theorem apart_of_disjoint {n : Nat} (h : op.Applicable n) (h' : other.Applicable n)
    (hdisjoint : op.wires.Disjoint other.wires) : (op.pairing h).Apart (other.pairing h') := by
  refine ⟨?_, ?_, ?_⟩
  · intro i
    exact Fin.ext (Nat.xor_right_comm i.val other.flips op.flips)
  · intro i
    exact selects_xor_flips_of_disjoint hdisjoint i
  · intro i
    exact selects_xor_flips_of_disjoint (List.disjoint_comm.mp hdisjoint) i

variable {R : Type} [CommSemiring R] (matrixOf : Primitive α → Matrix R)

/-- The matrix of an operation on its pairs; that of a swap exchanges the two entries. -/
def pairMatrix (op : Operation α) : Matrix R :=
  if op.gate.isSwap then ⟨0, 1, 1, 0⟩ else matrixOf op.gate

theorem update_eq_pairMatrix {n : Nat} (h : op.Applicable n) (state : StateVector R n) :
    op.update matrixOf h state =
      (op.pairing h).update (op.pairMatrix matrixOf).firstRow (op.pairMatrix matrixOf).secondRow
        state := by
  have hrows : op.selectedRow matrixOf = (op.pairMatrix matrixOf).firstRow ∧
      op.mateRow matrixOf = (op.pairMatrix matrixOf).secondRow := by
    unfold selectedRow mateRow pairMatrix
    split
    · constructor <;> funext a b <;> simp [Matrix.firstRow, Matrix.secondRow]
    · exact ⟨rfl, rfl⟩
  rw [update, hrows.1, hrows.2]

theorem update_comm {n : Nat} (h : op.Applicable n) (h' : other.Applicable n)
    (hdisjoint : op.wires.Disjoint other.wires) (state : StateVector R n) :
    other.update matrixOf h' (op.update matrixOf h state) =
      op.update matrixOf h (other.update matrixOf h' state) := by
  simp only [update_eq_pairMatrix]
  exact (apart_of_disjoint h h' hdisjoint).update_comm _ _ state

end Operation

/-! ## Rearranged lists of operations -/

namespace StateVector

variable {α R : Type} [CommSemiring R] {n : Nat} (matrixOf : Primitive α → Matrix R)

/-- Operations on disjoint wires have the same effect in any order. -/
theorem applyAll_perm {ops ops' : List (Operation α)} (hperm : ops.Perm ops')
    (happlicable : ∀ op ∈ ops, op.Applicable n)
    (hdisjoint : ops.Pairwise fun op op' => op.wires.Disjoint op'.wires)
    (state : StateVector R n) : applyAll matrixOf ops state = applyAll matrixOf ops' state := by
  induction hperm generalizing state with
  | nil => rfl
  | cons op _ ih =>
    obtain ⟨hop, hrest⟩ := List.forall_mem_cons.mp happlicable
    have hok := apply_of_applicable matrixOf hop state
    rw [applyAll_cons_of_ok matrixOf hok, applyAll_cons_of_ok matrixOf hok]
    exact ih hrest hdisjoint.of_cons _
  | swap later earlier rest =>
    obtain ⟨hearlier, hothers⟩ := List.forall_mem_cons.mp happlicable
    have hlater := hothers later List.mem_cons_self
    have hwires := (List.pairwise_cons.mp hdisjoint).1 later List.mem_cons_self
    have hfirst := apply_of_applicable matrixOf hearlier state
    have hfirst' := apply_of_applicable matrixOf hlater state
    rw [applyAll_cons_of_ok matrixOf hfirst, applyAll_cons_of_ok matrixOf hfirst',
      applyAll_cons_of_ok matrixOf (apply_of_applicable matrixOf hlater _),
      applyAll_cons_of_ok matrixOf (apply_of_applicable matrixOf hearlier _),
      Operation.update_comm matrixOf hearlier hlater hwires]
  | trans hperm _ ih ih' =>
    have hsymm : ∀ {op op' : Operation α}, op.wires.Disjoint op'.wires →
        op'.wires.Disjoint op.wires := List.disjoint_comm.mp
    rw [ih happlicable hdisjoint]
    refine ih' ?_ ((hperm.pairwise_iff hsymm).mp hdisjoint) state
    intro op hmem
    exact happlicable op (hperm.mem_iff.mpr hmem)

/-- What lists of operations do in a row depends only on what each of them does. -/
theorem applyAll_flatMap_congr {ι : Type} {blocks blocks' : ι → List (Operation α)}
    (h : ∀ i (state : StateVector R n),
      applyAll matrixOf (blocks i) state = applyAll matrixOf (blocks' i) state)
    (indices : List ι) (state : StateVector R n) :
    applyAll matrixOf (indices.flatMap blocks) state =
      applyAll matrixOf (indices.flatMap blocks') state := by
  induction indices generalizing state with
  | nil => rfl
  | cons i indices ih =>
    rw [List.flatMap_cons, List.flatMap_cons, applyAll, applyAll, List.foldlM_append,
      List.foldlM_append]
    refine (congrArg (· >>= _) (h i state)).trans (bind_congr fun next => ih next)

end StateVector

/-! ## Columns in another order -/

namespace Grid

variable {α R : Type} [Angle α] [CommSemiring R] {wires columns : Nat}

/-- A link-exclusive grid compiles to the operations of its columns in order, and whatever
the order in which the operations of each column are applied, every state becomes the
same. -/
theorem apply_reordered (matrixOf : Primitive α → Matrix R) {grid : Grid α wires columns}
    (hlinks : grid.Each Column.LinkExclusive) :
    ∃ opsOf : Fin columns → List (Operation α),
      (∀ column, grid.compileColumn column = .ok (opsOf column)) ∧
      grid.compile = .ok ((List.finRange columns).flatMap opsOf) ∧
      ∀ blocks : Fin columns → List (Operation α),
        (∀ column, (blocks column).Perm (opsOf column)) → ∀ state : StateVector R wires,
        ∃ final,
          StateVector.applyAll matrixOf ((List.finRange columns).flatMap opsOf) state = .ok final ∧
          StateVector.applyAll matrixOf ((List.finRange columns).flatMap blocks) state =
            .ok final := by
  obtain ⟨opsOf, hcolumns, hcompile⟩ := grid.compile_eq_ok hlinks
  refine ⟨opsOf, fun column => (hcolumns column).1, hcompile, ?_⟩
  intro blocks hperm state
  have hcolumn : ∀ column (start : StateVector R wires),
      StateVector.applyAll matrixOf (opsOf column) start =
        StateVector.applyAll matrixOf (blocks column) start := by
    intro column start
    obtain ⟨_, hwell, hdisjoint⟩ := hcolumns column
    exact StateVector.applyAll_perm matrixOf (hperm column).symm
      (fun op hmem => (hwell op hmem).applicable) hdisjoint start
  obtain ⟨final, hfinal⟩ :=
    StateVector.applyAll_eq_ok matrixOf (wellFormed_of_compile hlinks hcompile) state
  refine ⟨final, hfinal, ?_⟩
  rw [← StateVector.applyAll_flatMap_congr matrixOf hcolumn]
  exact hfinal

/-- A Toffoli gate and a controlled swap of one column, the swap applied first. -/
theorem apply_reordered_toffoliAndSwap :
    toffoliAndSwap.Each Column.LinkExclusive ∧ ∃ toffoli swap : Operation Float,
      toffoli.gate = .ccx ∧ swap.gate = .cswap ∧ toffoliAndSwap.compile = .ok [toffoli, swap] ∧
      ∀ (matrixOf : Primitive Float → Matrix Int) (state : StateVector Int 7), ∃ final,
        StateVector.applyAll matrixOf [toffoli, swap] state = .ok final ∧
        StateVector.applyAll matrixOf [swap, toffoli] state = .ok final := by
  have hlinks : toffoliAndSwap.Each Column.LinkExclusive := by
    show ∀ column : Fin 1, (toffoliAndSwap.columnAt column).LinkExclusive
    decide
  let wire : Fin 7 → Wire := fun i => ⟨i, Nat.lt_of_lt_of_le i.isLt (by decide)⟩
  let toffoli : Operation Float := .controlled .ccx [wire 0, wire 3] (wire 2)
  let swap : Operation Float := .controlledSwap (wire 4) (wire 5) (wire 6)
  have hops : toffoliAndSwap.compile = .ok [toffoli, swap] := by rfl
  refine ⟨hlinks, toffoli, swap, rfl, rfl, hops, fun matrixOf state => ?_⟩
  obtain ⟨opsOf, -, hcompile, hreordered⟩ := apply_reordered matrixOf hlinks
  have hcolumn : opsOf 0 ++ [] = [toffoli, swap] :=
    Except.ok.inj (hcompile.symm.trans hops)
  rw [List.append_nil] at hcolumn
  have hperm : ∀ column, [swap, toffoli].Perm (opsOf column) := by
    intro column
    obtain rfl : column = 0 := Subsingleton.elim _ _
    rw [hcolumn]
    exact List.Perm.swap _ _ _
  obtain ⟨final, hfinal, hswapped⟩ := hreordered (fun _ => [swap, toffoli]) hperm state
  refine ⟨final, ?_, hswapped⟩
  rw [← hcolumn, ← List.append_nil (opsOf 0)]
  exact hfinal

end Grid

end CircuitGrid
