import CircuitGrid.Proofs.Linearization
import CircuitGrid.Proofs.OperationUpdate
import Mathlib.Logic.Equiv.Basic

/-!
# Exchanging two wires

A swap of two wires exchanges two bits in the indices of a state. Between two such
swaps an operation acts as if its own wires were exchanged (`apply_between_swaps`), on
the very same entries: no law of addition or multiplication is used.
-/

namespace CircuitGrid

/-! ## Exchanging two bits -/

/-- An index with two of its bits exchanged. -/
def exchangeBits (a b i : Nat) : Nat :=
  if i.testBit a = i.testBit b then i else i ^^^ (wireBit a ^^^ wireBit b)

theorem testBit_exchangeBits (a b i k : Nat) :
    (exchangeBits a b i).testBit k = i.testBit (Equiv.swap a b k) := by
  unfold exchangeBits
  split
  · next heq =>
    by_cases ha : k = a
    · rw [ha, Equiv.swap_apply_left, heq]
    · by_cases hb : k = b
      · rw [hb, Equiv.swap_apply_right, heq]
      · rw [Equiv.swap_apply_of_ne_of_ne ha hb]
  · next hne =>
    have hab : a ≠ b := fun heq => hne (congrArg i.testBit heq)
    rw [Nat.testBit_xor, Nat.testBit_xor, testBit_wireBit, testBit_wireBit]
    by_cases ha : k = a
    · rw [ha, Equiv.swap_apply_left]
      simpa [hab.symm] using (Bool.eq_not_of_ne (Ne.symm hne)).symm
    · by_cases hb : k = b
      · rw [hb, Equiv.swap_apply_right]
        simpa [hab] using (Bool.eq_not_of_ne hne).symm
      · rw [Equiv.swap_apply_of_ne_of_ne ha hb]
        simp [Ne.symm ha, Ne.symm hb]

theorem exchangeBits_exchangeBits (a b i : Nat) :
    exchangeBits a b (exchangeBits a b i) = i := by
  refine Nat.eq_of_testBit_eq fun k => ?_
  rw [testBit_exchangeBits, testBit_exchangeBits, Equiv.swap_apply_self]

theorem exchangeBits_xor (a b i j : Nat) :
    exchangeBits a b (i ^^^ j) = exchangeBits a b i ^^^ exchangeBits a b j := by
  refine Nat.eq_of_testBit_eq fun k => ?_
  simp only [testBit_exchangeBits, Nat.testBit_xor]

theorem exchangeBits_lt {n a b i : Nat} (ha : a < n) (hb : b < n) (hi : i < basisSize n) :
    exchangeBits a b i < basisSize n := by
  unfold exchangeBits
  split
  · exact hi
  · exact xor_lt_basisSize hi (xor_lt_basisSize (wireBit_lt ha) (wireBit_lt hb))

/-! ## Exchanging two wires of an operation -/

namespace Operation

variable {α : Type}

/-- The operation with other names for its wires. -/
def rename (names : Wire → Wire) (op : Operation α) : Operation α :=
  { op with
    target := names op.target
    controls := op.controls.map names
    partner := op.partner.map names }

variable (op : Operation α)

theorem second?_rename (names : Wire → Wire) :
    (op.rename names).second? = op.second?.map names := by
  unfold second? rename
  split <;> rfl

variable (a b : Wire)

theorem index_swap (wire : Wire) :
    (Equiv.swap a b wire).index = Equiv.swap a.index b.index wire.index :=
  (Wire.index_injective.swap_apply a b wire).symm

theorem selects_rename (i : Nat) :
    (op.rename (Equiv.swap a b)).selects i = op.selects (exchangeBits a.index b.index i) := by
  unfold selects
  rw [second?_rename]
  cases op.second? <;>
    simp [rename, testBit_exchangeBits, index_swap, Function.comp_def]

theorem flips_rename :
    (op.rename (Equiv.swap a b)).flips = exchangeBits a.index b.index op.flips := by
  have hindex : ∀ (wire : Wire) (k : Nat), (Equiv.swap a b wire).index = k ↔
      wire.index = Equiv.swap a.index b.index k := by
    intro wire k
    rw [index_swap, Equiv.swap_apply_eq_iff]
  refine Nat.eq_of_testBit_eq fun k => ?_
  rw [testBit_exchangeBits, testBit_flips, testBit_flips, second?_rename]
  cases op.second? <;> simp [rename, hindex]

variable {op a b} {n : Nat}

theorem Applicable.rename (h : op.Applicable n) (ha : a.index < n) (hb : b.index < n) :
    (op.rename (Equiv.swap a b)).Applicable n := by
  have hlt : ∀ wire : Wire, wire.index < n → (Equiv.swap a b wire).index < n := by
    intro wire hwire
    rw [Equiv.swap_apply_def]
    split
    · exact hb
    · split
      · exact ha
      · exact hwire
  refine ⟨?_, hlt _ h.target, ?_, ?_⟩
  · intro wire hwire
    obtain ⟨old, hold, rfl⟩ := List.mem_map.mp hwire
    exact hlt old (h.controls old hold)
  · intro wire hwire
    rw [second?_rename] at hwire
    obtain ⟨old, hold, rfl⟩ := Option.map_eq_some_iff.mp hwire
    exact hlt old (h.second old hold)
  · intro hswap
    exact Option.isSome_map.trans (h.partner hswap)

theorem applicable_swap (ha : a.index < n) (hb : b.index < n) :
    (swap a b : Operation α).Applicable n := by
  refine ⟨?_, ha, ?_, fun _ => rfl⟩
  · intro wire hwire
    cases hwire
  · intro wire hwire
    cases hwire
    exact hb

theorem selects_swap (a b : Wire) (i : Nat) :
    (swap a b : Operation α).selects i = (i.testBit a.index && !i.testBit b.index) := by
  simp [selects, swap, second?, Primitive.isSwap]

theorem flips_swap (a b : Wire) :
    (swap a b : Operation α).flips = wireBit a.index ^^^ wireBit b.index :=
  rfl

/-- A swap exchanges the bits of the index it selects. -/
theorem exchangeBits_of_selects {i : Nat} (h : (swap a b : Operation α).selects i = true) :
    exchangeBits a.index b.index i = i ^^^ (swap a b : Operation α).flips := by
  rw [selects_swap, Bool.and_eq_true, Bool.not_eq_true'] at h
  rw [exchangeBits, h.1, h.2]
  rfl

/-- A swap exchanges the bits of the mate of an index it selects. -/
theorem exchangeBits_of_selects_mate {i : Nat}
    (h : (swap a b : Operation α).selects (i ^^^ (swap a b : Operation α).flips) = true) :
    exchangeBits a.index b.index i = i ^^^ (swap a b : Operation α).flips := by
  have hmate := exchangeBits_of_selects h
  rw [Nat.xor_xor_cancel_right] at hmate
  rw [← exchangeBits_exchangeBits a.index b.index (i ^^^ (swap a b : Operation α).flips), hmate]

/-- A swap leaves an index alone only if its two bits are the same. -/
theorem exchangeBits_of_not_selects {i : Nat}
    (h : (swap a b : Operation α).selects i = false)
    (hmate : (swap a b : Operation α).selects (i ^^^ (swap a b : Operation α).flips) = false) :
    exchangeBits a.index b.index i = i := by
  refine if_pos (Classical.byContradiction fun hne => ?_)
  have hab : a.index ≠ b.index := fun heq => hne (congrArg i.testBit heq)
  rw [selects_swap] at h hmate
  rw [flips_swap, Nat.testBit_xor, Nat.testBit_xor, Nat.testBit_xor, Nat.testBit_xor,
    testBit_wireBit, testBit_wireBit, testBit_wireBit, testBit_wireBit] at hmate
  cases hset : i.testBit a.index <;> simp_all

/-- The pairs of a swap are the indices with these two bits exchanged. -/
theorem pairing_swap_exchange (ha : a.index < n) (hb : b.index < n) (i : Fin (basisSize n)) :
    ((swap a b : Operation α).pairing (applicable_swap ha hb)).exchange i =
      ⟨exchangeBits a.index b.index i, exchangeBits_lt ha hb i.isLt⟩ := by
  apply Fin.ext
  unfold Pairing.exchange
  split
  · next h =>
    rcases Bool.or_eq_true_iff.mp h with h | h
    · exact (exchangeBits_of_selects h).symm
    · exact (exchangeBits_of_selects_mate h).symm
  · next h =>
    rw [Bool.not_eq_true, Bool.or_eq_false_iff] at h
    exact (exchangeBits_of_not_selects h.1 h.2).symm

end Operation

/-! ## Exchanging two wires of a state -/

namespace StateVector

variable {α R : Type} {n : Nat}

/-- The state with two wires exchanged. -/
def exchange {a b : Wire} (ha : a.index < n) (hb : b.index < n) (state : StateVector R n) :
    StateVector R n :=
  permute (fun i => ⟨exchangeBits a.index b.index i, exchangeBits_lt ha hb i.isLt⟩) state

variable {a b : Wire} (ha : a.index < n) (hb : b.index < n)

theorem exchange_exchange (state : StateVector R n) :
    exchange ha hb (exchange ha hb state) = state := by
  refine eq_of_get fun i => ?_
  rw [exchange, get_permute, exchange, get_permute]
  exact congrArg state.get (Fin.ext (exchangeBits_exchangeBits a.index b.index i))

variable [Add R] [Mul R] (matrixOf : Primitive α → Matrix R)

theorem update_swap (state : StateVector R n) :
    (Operation.swap a b).update matrixOf (Operation.applicable_swap ha hb) state =
      exchange ha hb state := by
  let pairing := (Operation.swap a b : Operation α).pairing (Operation.applicable_swap ha hb)
  show pairing.update (fun _ b => b) (fun a _ => a) state = exchange ha hb state
  rw [pairing.update_eq_permute, exchange]
  exact congrArg (permute · state) (funext (Operation.pairing_swap_exchange ha hb))

theorem update_rename {op : Operation α} (h : op.Applicable n) (state : StateVector R n) :
    (op.rename (Equiv.swap a b)).update matrixOf (h.rename ha hb) state =
      exchange ha hb (op.update matrixOf h (exchange ha hb state)) := by
  refine (Pairing.permute_update_permute _ _ ?_ ?_ ?_ state).symm
  · intro i
    exact Fin.ext (exchangeBits_exchangeBits a.index b.index i)
  · intro i
    exact op.selects_rename a b i
  · intro i
    apply Fin.ext
    show i.val ^^^ (op.rename (Equiv.swap a b)).flips =
      exchangeBits a.index b.index (exchangeBits a.index b.index i ^^^ op.flips)
    rw [exchangeBits_xor, exchangeBits_exchangeBits, Operation.flips_rename]

/-- An operation with two of its wires exchanged acts between two exchanges of them. -/
theorem apply_rename {op : Operation α} (h : op.Applicable n) (state : StateVector R n) :
    apply matrixOf (op.rename (Equiv.swap a b)) state =
      .ok (exchange ha hb (op.update matrixOf h (exchange ha hb state))) := by
  rw [apply_of_applicable matrixOf (h.rename ha hb), update_rename]

theorem apply_swap (state : StateVector R n) :
    apply matrixOf (.swap a b) state = .ok (exchange ha hb state) := by
  rw [apply_of_applicable matrixOf (Operation.applicable_swap ha hb), update_swap]

/-- Between two exchanges, operations act as they do with their wires exchanged. -/
theorem applyAll_rename {ops : List (Operation α)} (h : ∀ op ∈ ops, op.Applicable n)
    (state : StateVector R n) :
    ∃ final, applyAll matrixOf ops (exchange ha hb state) = .ok final ∧
      applyAll matrixOf (ops.map (Operation.rename (Equiv.swap a b))) state =
        .ok (exchange ha hb final) := by
  induction ops generalizing state with
  | nil => exact ⟨_, rfl, congrArg Except.ok (exchange_exchange ha hb state).symm⟩
  | cons op ops ih =>
    obtain ⟨happlicable, hrest⟩ := List.forall_mem_cons.mp h
    have hop := apply_of_applicable matrixOf happlicable (exchange ha hb state)
    obtain ⟨final, hfinal, hrenamed⟩ :=
      ih hrest (exchange ha hb (op.update matrixOf happlicable (exchange ha hb state)))
    rw [exchange_exchange] at hfinal
    refine ⟨final, ?_, ?_⟩
    · rw [applyAll_cons_of_ok matrixOf hop, hfinal]
    · rw [List.map_cons, applyAll_cons_of_ok matrixOf
        (apply_rename ha hb matrixOf happlicable state), hrenamed]

/-- A swap exchanges two wires of the state. Exchanging them, applying an operation and
exchanging them again gives the very amplitudes that the operation gives with the two
wires exchanged among its operands, whatever the operation and wherever the two wires
occur in it. The same holds of lists of operations. -/
theorem apply_between_swaps (ha : a.index < n) (hb : b.index < n) (state : StateVector R n) :
    apply matrixOf (.swap a b) state = .ok (exchange ha hb state) ∧
    (∀ op : Operation α, (∃ start next : StateVector R n, apply matrixOf op start = .ok next) →
      ∃ first second final, apply matrixOf (.swap a b) state = .ok first ∧
        apply matrixOf op first = .ok second ∧ apply matrixOf (.swap a b) second = .ok final ∧
        apply matrixOf (op.rename (Equiv.swap a b)) state = .ok final) ∧
    ∀ ops : List (Operation α),
      (∀ op ∈ ops, ∃ start next : StateVector R n, apply matrixOf op start = .ok next) →
      ∃ final, applyAll matrixOf (.swap a b :: ops ++ [.swap a b]) state = .ok final ∧
        applyAll matrixOf (ops.map (Operation.rename (Equiv.swap a b))) state = .ok final := by
  refine ⟨apply_swap ha hb matrixOf state, ?_, ?_⟩
  · rintro op ⟨start, next, hok⟩
    have h := applicable_of_apply matrixOf hok
    exact ⟨_, _, _, apply_swap ha hb matrixOf state, apply_of_applicable matrixOf h _,
      apply_swap ha hb matrixOf _, apply_rename ha hb matrixOf h state⟩
  · intro ops hops
    have h : ∀ op ∈ ops, op.Applicable n := by
      intro op hmem
      obtain ⟨start, next, hok⟩ := hops op hmem
      exact applicable_of_apply matrixOf hok
    obtain ⟨final, hfinal, hrenamed⟩ := applyAll_rename ha hb matrixOf h state
    refine ⟨_, ?_, hrenamed⟩
    rw [List.cons_append, applyAll_cons_of_ok matrixOf (apply_swap ha hb matrixOf state),
      applyAll_append_of_ok matrixOf hfinal,
      applyAll_cons_of_ok matrixOf (apply_swap ha hb matrixOf final)]
    rfl

/-- A gate on wire 1 under the control of wire 0, between two exchanges of these wires,
acts on wire 0 under the control of wire 1. -/
theorem apply_between_swaps_controlled :
    let matrixOf : Primitive Float → Matrix Int := fun _ => ⟨1, 2, 3, 4⟩
    let a : Wire := ⟨0, by decide⟩
    let b : Wire := ⟨1, by decide⟩
    let state : StateVector Int 2 := #v[5, 6, 7, 8]
    a.index < 2 ∧ b.index < 2 ∧ ∃ first second,
      apply matrixOf (.swap a b) state = .ok first ∧
      apply matrixOf (.controlled .cx [a] b) first = .ok second ∧
      apply matrixOf (.swap a b) second = .ok #v[5, 6, 23, 53] := by
  intro matrixOf a b state
  have ha : a.index < 2 := by decide
  have hb : b.index < 2 := by decide
  refine ⟨ha, hb, ?_⟩
  obtain ⟨first, second, final, hfirst, hsecond, hfinal, hrenamed⟩ :=
    (apply_between_swaps matrixOf ha hb state).2.1 (.controlled .cx [a] b) ⟨state, _, rfl⟩
  have hvalue : apply matrixOf (.controlled .cx [b] a) state = .ok #v[5, 6, 23, 53] := by decide
  have hrename : (Operation.controlled .cx [a] b : Operation Float).rename (Equiv.swap a b) =
      .controlled .cx [b] a := by decide
  rw [hrename, hvalue] at hrenamed
  cases hrenamed
  exact ⟨first, second, hfirst, hsecond, hfinal⟩

end StateVector

end CircuitGrid
