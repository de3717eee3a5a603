import CircuitGrid.Proofs.OperationUpdate
import CircuitGrid.Proofs.Simulable
import CircuitGrid.Proofs.Unitarity
import Mathlib.Algebra.BigOperators.Fin

/-!
# The total probability

An operation updates pairs of entries and keeps the sum of the squared magnitudes of each
pair, so the sum over the whole state stays what it is (`Pairing.sum_update`). No two pairs
overlap, whatever wires an operation is given: the target may be one of the controls, and a
swap may exchange a wire with itself. The sum is 1 in the ground state, and therefore after
every operation.
-/

namespace CircuitGrid

/-! ## Sums over pairs -/

namespace Pairing

variable {N : Nat} {R : Type} (pairing : Pairing N) {first second : R → R → R} {weight : R → ℝ}

theorem sum_mate (f : Fin N → ℝ) : ∑ i, f (pairing.mate i) = ∑ i, f i :=
  Equiv.sum_comp (Function.Involutive.toPerm pairing.mate pairing.mate_mate) f

theorem weight_add_mate (hrows : ∀ a b, weight (first a b) + weight (second a b) =
    weight a + weight b) (state : Vector R N) (i : Fin N) :
    weight ((pairing.update first second state).get i) +
        weight ((pairing.update first second state).get (pairing.mate i)) =
      weight (state.get i) + weight (state.get (pairing.mate i)) := by
  rw [get_update, get_update, pairing.mate_mate]
  cases hchosen : pairing.chosen i with
  | true =>
    rw [pairing.mate_not_chosen i hchosen]
    exact hrows _ _
  | false =>
    cases hmate : pairing.chosen (pairing.mate i) with
    | true =>
      have hpair := hrows (state.get (pairing.mate i)) (state.get i)
      rw [add_comm, add_comm (weight (state.get i))]
      exact hpair
    | false => rfl

/-- If the update of a pair keeps the weight of the pair, the update of all pairs keeps the
weight of the state. -/
theorem sum_update (hrows : ∀ a b, weight (first a b) + weight (second a b) =
    weight a + weight b) (state : Vector R N) :
    ∑ i, weight ((pairing.update first second state).get i) = ∑ i, weight (state.get i) := by
  -- every index is counted in its own pair and in that of its mate
  have hpairs := Finset.sum_congr rfl fun i (_ : i ∈ Finset.univ) =>
    pairing.weight_add_mate hrows state i
  rw [Finset.sum_add_distrib, Finset.sum_add_distrib,
    pairing.sum_mate fun i => weight ((pairing.update first second state).get i),
    pairing.sum_mate fun i => weight (state.get i)] at hpairs
  linarith

end Pairing

/-! ## Normalized states -/

namespace StateVector

variable {n : Nat}

/-- The squared magnitudes of the amplitudes add up to one. -/
def Normalized (state : StateVector (Amplitude ℝ) n) : Prop :=
  ∑ i, (state.get i).normSq = 1

theorem ground_normalized : (ground n : StateVector (Amplitude ℝ) n).Normalized := by
  have hget : ∀ i : Fin (basisSize n), (ground n : StateVector (Amplitude ℝ) n).get i =
      if i = ⟨0, basisSize_pos n⟩ then 1 else 0 := by
    intro i
    show ((Vector.replicate (basisSize n) (0 : Amplitude ℝ)).set 0 1 _)[i.val] = _
    rw [Vector.getElem_set, Vector.getElem_replicate]
    simp [Fin.ext_iff, eq_comm]
  unfold Normalized
  simp [hget, apply_ite Amplitude.normSq]

theorem Normalized.apply {op : Operation ℝ} {state next : StateVector (Amplitude ℝ) n}
    (hstate : state.Normalized) (hok : apply Primitive.matrix op state = .ok next) :
    next.Normalized := by
  obtain ⟨happlicable, rfl⟩ := update_of_apply Primitive.matrix hok
  refine ((op.pairing happlicable).sum_update ?_ state).trans hstate
  intro a b
  unfold Operation.selectedRow Operation.mateRow
  split
  · exact add_comm _ _
  · exact op.gate.matrix_unitary.normSq_rows a b

theorem Normalized.applyAll {ops : List (Operation ℝ)} {state final : StateVector (Amplitude ℝ) n}
    (hstate : state.Normalized) (hok : applyAll Primitive.matrix ops state = .ok final) :
    final.Normalized := by
  induction ops generalizing state with
  | nil =>
    cases hok
    exact hstate
  | cons op ops ih =>
    rw [StateVector.applyAll, List.foldlM_cons] at hok
    obtain ⟨next, hnext, hok⟩ := bind_eq_ok_iff.mp hok
    exact ih (hstate.apply hnext) hok

end StateVector

/-! ## The simulator -/

namespace Simulator

variable {G : Type} {sim : Simulator G} {wires : Nat} {ops : List (Operation ℝ)}
  {state : StateVector (Amplitude ℝ) wires}

theorem prepare_eq_ok_iff : sim.prepare wires ops = .ok state ↔
    wires ≤ sim.limit ∧
      StateVector.applyAll Primitive.matrix ops (StateVector.ground wires) = .ok state := by
  unfold prepare
  split
  · next h => simp [h]
  · next h => simp [Nat.not_lt.mp h]

/-- What has been prepared was prepared operation by operation. -/
theorem exists_prepare_of_append {before after : List (Operation ℝ)}
    (h : sim.prepare wires (before ++ after) = .ok state) :
    ∃ between, sim.prepare wires before = .ok between := by
  obtain ⟨hlimit, hall⟩ := prepare_eq_ok_iff.mp h
  rw [StateVector.applyAll, List.foldlM_append] at hall
  obtain ⟨between, hbetween, -⟩ := bind_eq_ok_iff.mp hall
  exact ⟨between, prepare_eq_ok_iff.mpr ⟨hlimit, hbetween⟩⟩

theorem normalized_of_prepare (h : sim.prepare wires ops = .ok state) : state.Normalized :=
  StateVector.ground_normalized.applyAll (prepare_eq_ok_iff.mp h).2

/-- The state is normalized after every operation, and the probabilities of the basis states
are those of a distribution. -/
theorem prepare_normalized (h : sim.prepare wires ops = .ok state) :
    (∀ gate : Primitive ℝ, gate.matrix.Unitary) ∧
    (∀ before after, ops = before ++ after → ∃ between, sim.prepare wires before = .ok between ∧
      ∑ i, (between.get i).normSq = 1) ∧
    ∃ probabilities, sim.probabilities wires ops = .ok probabilities ∧
      (∀ i, 0 ≤ probabilities.get i) ∧ ∑ i, probabilities.get i = 1 := by
  refine ⟨Primitive.matrix_unitary, ?_, _, probabilities_of_prepare h, ?_, ?_⟩
  · rintro before after rfl
    obtain ⟨between, hbetween⟩ := exists_prepare_of_append h
    exact ⟨between, hbetween, normalized_of_prepare hbetween⟩
  · intro i
    rw [StateVector.get_probabilities]
    exact Amplitude.normSq_nonneg _
  · simp only [StateVector.get_probabilities]
    exact normalized_of_prepare h

/-- Among the operations are one whose target is also its control, twice, and swaps of a
wire with itself and under one of the exchanged wires. -/
theorem prepare_normalized_coinciding :
    let a : Wire := ⟨0, by decide⟩
    let b : Wire := ⟨1, by decide⟩
    let ops : List (Operation ℝ) := [.single .h a, .controlled .ccx [b, b] b,
      .controlled .ch [a, a] b, .swap a a, .controlledSwap b b a, .controlledSwap a b b]
    ∃ probabilities, (Simulator.ofGenerator ()).probabilities 2 ops = .ok probabilities ∧
      (∀ i, 0 ≤ probabilities.get i) ∧ ∑ i, probabilities.get i = 1 := by
  intro a b ops
  obtain ⟨state, hstate⟩ :
      ∃ state, (Simulator.ofGenerator ()).prepare 2 ops = .ok state := ⟨_, rfl⟩
  exact (prepare_normalized hstate).2.2

end Simulator

end CircuitGrid
