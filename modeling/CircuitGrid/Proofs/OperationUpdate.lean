import CircuitGrid.Proofs.Pairing
import CircuitGrid.Proofs.Traversal
import CircuitGrid.Simulation.StateVector
import Mathlib.Data.Nat.Bitwise

/-!
# What an operation does to a state

Every operation, matrix or swap, updates pairs of basis states in place: those whose
indices differ in the target bit, or in the two bits of a swap, and whose control bits
are all set. `apply_of_applicable` says so of all operations at once, so that what holds
of updates of pairs holds of operations.
-/

namespace CircuitGrid

/-! ## Bits of an index -/

theorem testBit_wireBit (wire k : Nat) : (wireBit wire).testBit k = decide (wire = k) := by
  rw [wireBit, Nat.one_shiftLeft, Nat.testBit_two_pow]

theorem lt_basisSize_iff {n i : Nat} : i < basisSize n ↔ i < 2 ^ n := by
  rw [basisSize, Nat.one_shiftLeft]

theorem wireBit_lt {n wire : Nat} (h : wire < n) : wireBit wire < basisSize n := by
  rw [lt_basisSize_iff, wireBit, Nat.one_shiftLeft]
  exact Nat.pow_lt_pow_right (by decide) h

theorem xor_lt_basisSize {n i j : Nat} (hi : i < basisSize n) (hj : j < basisSize n) :
    i ^^^ j < basisSize n := by
  rw [lt_basisSize_iff] at *
  exact Nat.xor_lt_two_pow hi hj

theorem and_eq_self_iff {i mask : Nat} :
    i &&& mask = mask ↔ ∀ k, mask.testBit k = true → i.testBit k = true := by
  constructor
  · intro h k hk
    rw [← h, Nat.testBit_and, Bool.and_eq_true] at hk
    exact hk.1
  · intro h
    refine Nat.eq_of_testBit_eq fun k => ?_
    rw [Nat.testBit_and]
    cases hk : mask.testBit k with
    | false => exact Bool.and_false _
    | true => rw [h k hk, Bool.and_self]

theorem and_wireBit_eq_self_iff {i wire : Nat} :
    i &&& wireBit wire = wireBit wire ↔ i.testBit wire = true := by
  rw [and_eq_self_iff]
  simp [testBit_wireBit]

theorem and_wireBit_eq_zero_iff {i wire : Nat} :
    i &&& wireBit wire = 0 ↔ i.testBit wire = false := by
  constructor
  · intro h
    have hbit := congrArg (Nat.testBit · wire) h
    simpa [testBit_wireBit] using hbit
  · intro h
    refine Nat.eq_of_testBit_eq fun k => ?_
    rw [Nat.testBit_and, testBit_wireBit, Nat.zero_testBit]
    by_cases hk : wire = k
    · rw [← hk, h, Bool.false_and]
    · rw [decide_eq_false hk, Bool.and_false]

/-- Setting a bit that is clear is flipping it. -/
theorem or_wireBit_of_clear {i wire : Nat} (h : i.testBit wire = false) :
    i ||| wireBit wire = i ^^^ wireBit wire := by
  refine Nat.eq_of_testBit_eq fun k => ?_
  rw [Nat.testBit_or, Nat.testBit_xor, testBit_wireBit]
  by_cases hk : wire = k
  · rw [← hk, h, Bool.false_or, Bool.false_xor]
  · rw [decide_eq_false hk, Bool.or_false, Bool.xor_false]

/-! ## The pairs of an operation -/

namespace Operation

variable {α : Type}

/-- The wire that a swap exchanges its target with. -/
def second? (op : Operation α) : Option Wire :=
  if op.gate.isSwap then op.partner else none

theorem second?_eq_some_iff {op : Operation α} {wire : Wire} :
    op.second? = some wire ↔ op.gate.isSwap = true ∧ op.partner = some wire := by
  unfold second?
  split
  · next h => simp [h]
  · next h => simp [h]

theorem mem_wires_of_second (op : Operation α) {wire : Wire} (h : wire ∈ op.second?) :
    wire ∈ op.wires := by
  have hpartner : op.partner = some wire := (second?_eq_some_iff.mp h).2
  unfold wires
  simp [hpartner]

/-- The operation selects the index of a pair: the controls are set, the target is clear,
or set in case of a swap, and the second wire of a swap is clear. -/
def selects (op : Operation α) (i : Nat) : Bool :=
  op.controls.all (fun wire => i.testBit wire.index) &&
    (i.testBit op.target.index == op.gate.isSwap) &&
      op.second?.all (fun wire => !i.testBit wire.index)

/-- The bits in which the two indices of a pair differ. -/
def flips (op : Operation α) : Nat :=
  wireBit op.target.index ^^^ op.second?.elim 0 (fun wire => wireBit wire.index)

/-- The operation has all the wires it needs among `n` wires. -/
structure Applicable (op : Operation α) (n : Nat) : Prop where
  controls : ∀ wire ∈ op.controls, wire.index < n
  target : op.target.index < n
  second : ∀ wire ∈ op.second?, wire.index < n
  partner : op.gate.isSwap = true → op.partner.isSome = true

theorem Applicable.flips_lt {op : Operation α} {n : Nat} (h : op.Applicable n) :
    op.flips < basisSize n := by
  refine xor_lt_basisSize (wireBit_lt h.target) ?_
  cases hsecond : op.second? with
  | none => exact basisSize_pos n
  | some wire => exact wireBit_lt (h.second wire hsecond)

theorem testBit_flips (op : Operation α) (k : Nat) :
    op.flips.testBit k =
      (decide (op.target.index = k) ^^ op.second?.any fun wire => decide (wire.index = k)) := by
  unfold flips
  rw [Nat.testBit_xor, testBit_wireBit]
  cases op.second? with
  | none => simp
  | some wire => simp [testBit_wireBit]

theorem selects_iff {op : Operation α} {i : Nat} :
    op.selects i = true ↔ (∀ wire ∈ op.controls, i.testBit wire.index = true) ∧
      i.testBit op.target.index = op.gate.isSwap ∧
        ∀ wire ∈ op.second?, i.testBit wire.index = false := by
  unfold selects
  rw [Bool.and_eq_true, Bool.and_eq_true, List.all_eq_true, beq_iff_eq, Option.all_eq_true,
    and_assoc]
  simp

/-- A selected index differs from the other of its pair in the target bit. -/
theorem testBit_flips_target {op : Operation α} {i : Nat} (h : op.selects i = true) :
    op.flips.testBit op.target.index = true := by
  obtain ⟨_, htarget, hsecond⟩ := selects_iff.mp h
  rw [testBit_flips, decide_eq_true rfl]
  cases hwire : op.second? with
  | none => rfl
  | some wire =>
    have hswap := (second?_eq_some_iff.mp hwire).1
    have hclear := hsecond wire hwire
    -- one bit is set and the other clear, so the two wires differ
    have hne : wire.index ≠ op.target.index := by
      intro heq
      rw [heq, htarget, hswap] at hclear
      cases hclear
    simp [hne]

theorem selects_xor_flips {op : Operation α} {i : Nat} (h : op.selects i = true) :
    op.selects (i ^^^ op.flips) = false := by
  obtain ⟨_, htarget, _⟩ := selects_iff.mp h
  rw [Bool.eq_false_iff]
  intro hother
  obtain ⟨_, htarget', _⟩ := selects_iff.mp hother
  rw [Nat.testBit_xor, testBit_flips_target h, htarget] at htarget'
  cases hgate : op.gate.isSwap <;> simp [hgate] at htarget'

/-- The pairs of basis states that an operation updates. -/
def pairing (op : Operation α) {n : Nat} (h : op.Applicable n) : Pairing (basisSize n) where
  chosen i := op.selects i
  mate i := ⟨i ^^^ op.flips, xor_lt_basisSize i.isLt h.flips_lt⟩
  mate_mate i := Fin.ext (Nat.xor_xor_cancel_right i op.flips)
  mate_not_chosen _ := selects_xor_flips

section Rows

variable {R : Type} [Add R] [Mul R] (matrixOf : Primitive α → Matrix R)

/-- What becomes of the selected entry of a pair. -/
def selectedRow (op : Operation α) : R → R → R :=
  if op.gate.isSwap then fun _ b => b else (matrixOf op.gate).firstRow

/-- What becomes of the other entry of a pair. -/
def mateRow (op : Operation α) : R → R → R :=
  if op.gate.isSwap then fun a _ => a else (matrixOf op.gate).secondRow

/-- The operation applied to all its pairs. -/
def update {n : Nat} (op : Operation α) (h : op.Applicable n) (state : StateVector R n) :
    StateVector R n :=
  (op.pairing h).update (op.selectedRow matrixOf) (op.mateRow matrixOf) state

end Rows

end Operation

/-! ## The loops -/

namespace StateVector

variable {α R : Type} {n : Nat}

theorem locateWire_of_lt {wire : Wire} (h : wire.index < n) :
    locateWire n wire = .ok ⟨wire.index, h⟩ :=
  dif_pos h

theorem lt_of_locateWire {wire : Wire} {place : Fin n} (h : locateWire n wire = .ok place) :
    wire.index < n := by
  unfold locateWire at h
  split at h
  · assumption
  · cases h

/-- The bits of several wires, added to those of a mask. -/
def addBits (mask : Nat) (wires : List Wire) : Nat :=
  wires.foldl (fun mask wire => mask ||| wireBit wire.index) mask

theorem and_addBits_iff {i mask : Nat} {wires : List Wire} :
    i &&& addBits mask wires = addBits mask wires ↔
      i &&& mask = mask ∧ ∀ wire ∈ wires, i.testBit wire.index = true := by
  induction wires generalizing mask with
  | nil => simp [addBits]
  | cons wire wires ih =>
    have hor : i &&& (mask ||| wireBit wire.index) = mask ||| wireBit wire.index ↔
        i &&& mask = mask ∧ i.testBit wire.index = true := by
      simp only [and_eq_self_iff, Nat.testBit_or, testBit_wireBit, Bool.or_eq_true,
        decide_eq_true_eq]
      constructor
      · exact fun h => ⟨fun k hk => h k (Or.inl hk), h _ (Or.inr rfl)⟩
      · rintro ⟨hmask, hwire⟩ k (hk | rfl)
        · exact hmask k hk
        · exact hwire
    show i &&& addBits (mask ||| wireBit wire.index) wires =
      addBits (mask ||| wireBit wire.index) wires ↔ _
    rw [ih, hor, List.forall_mem_cons, and_assoc]

theorem controlMask_eq_ok_iff {wires : List Wire} {mask : Nat} :
    controlMask n wires = .ok mask ↔
      (∀ wire ∈ wires, wire.index < n) ∧ mask = addBits 0 wires := by
  unfold controlMask
  generalize 0 = start
  induction wires generalizing start with
  | nil =>
    show Except.ok start = Except.ok mask ↔ _
    simp [addBits, eq_comm]
  | cons wire wires ih =>
    rw [List.foldlM_cons, List.forall_mem_cons]
    by_cases h : wire.index < n
    · rw [locateWire_of_lt h]
      show List.foldlM _ (start ||| wireBit wire.index) wires = _ ↔ _
      rw [ih]
      simp [h, addBits]
    · rw [locateWire, dif_neg h]
      constructor
      · intro hok
        cases hok
      · exact fun hlt => absurd hlt.1.1 h

variable (matrixOf : Primitive α → Matrix R)

/-- The loop of a matrix replaces the pairs of its operation one by one. -/
theorem applyMatrix_eq_update [Add R] [Mul R] {op : Operation α} (h : op.Applicable n)
    (hswap : op.gate.isSwap = false) (state : StateVector R n) :
    applyMatrix (matrixOf op.gate) (addBits 0 op.controls) ⟨op.target.index, h.target⟩ state =
      op.update matrixOf h state := by
  have hsecond : op.second? = none := by simp [Operation.second?, hswap]
  have hflips : op.flips = wireBit op.target.index := by simp [Operation.flips, hsecond]
  have hguard : ∀ i, (i &&& wireBit op.target.index = 0 ∧
      i &&& addBits 0 op.controls = addBits 0 op.controls) ↔ op.selects i = true := by
    intro i
    rw [Operation.selects_iff, and_wireBit_eq_zero_iff, and_addBits_iff, hsecond, hswap]
    simp [and_comm]
  unfold applyMatrix Operation.update Operation.selectedRow Operation.mateRow
  rw [hswap]
  refine (op.pairing h).fold_eq_update ?_ ?_ state
  · intro i hi current hselects
    have hclear := (hguard i).mpr hselects
    have hbit : i ||| wireBit op.target.index = i ^^^ op.flips := by
      rw [hflips, or_wireBit_of_clear (and_wireBit_eq_zero_iff.mp hclear.1)]
    simp only [if_pos hclear, hbit]
    rfl
  · intro i hi current hselects
    exact if_neg fun hclear => Bool.eq_false_iff.mp hselects ((hguard i).mp hclear)

/-- The loop of a swap exchanges the pairs of its operation one by one. -/
theorem applySwap_eq_update [Add R] [Mul R] {op : Operation α} (h : op.Applicable n)
    (hswap : op.gate.isSwap = true) {partner : Wire} (hpartner : op.partner = some partner)
    (hlt : partner.index < n) (state : StateVector R n) :
    applySwap (addBits 0 op.controls) ⟨op.target.index, h.target⟩ ⟨partner.index, hlt⟩ state =
      op.update matrixOf h state := by
  have hsecond := Operation.second?_eq_some_iff.mpr ⟨hswap, hpartner⟩
  have hflips : op.flips = wireBit op.target.index ^^^ wireBit partner.index := by
    simp [Operation.flips, hsecond]
  have hguard : ∀ i, (i &&& addBits 0 op.controls = addBits 0 op.controls ∧
      i &&& wireBit op.target.index = wireBit op.target.index ∧
        i &&& wireBit partner.index = 0) ↔ op.selects i = true := by
    intro i
    rw [Operation.selects_iff, and_wireBit_eq_zero_iff, and_wireBit_eq_self_iff, and_addBits_iff,
      hsecond, hswap]
    simp
  unfold applySwap Operation.update Operation.selectedRow Operation.mateRow
  rw [hswap]
  split
  · next heq =>
    refine ((op.pairing h).update_of_none _ _ ?_ state).symm
    intro i
    rw [Bool.eq_false_iff]
    intro hselects
    obtain ⟨_, hset, hclear⟩ := (hguard i).mpr hselects
    rw [and_wireBit_eq_self_iff, Fin.mk.inj heq] at hset
    rw [and_wireBit_eq_zero_iff, hset] at hclear
    cases hclear
  · next hne =>
    refine (op.pairing h).fold_eq_update ?_ ?_ state
    · intro i hi current hselects
      have hset := (hguard i).mpr hselects
      have hclear : (i ^^^ wireBit op.target.index).testBit partner.index = false := by
        have hwires : op.target.index ≠ partner.index := fun heq => hne (Fin.ext heq)
        rw [Nat.testBit_xor, testBit_wireBit, decide_eq_false hwires, Bool.xor_false]
        exact and_wireBit_eq_zero_iff.mp hset.2.2
      have hbits : i ^^^ wireBit op.target.index ||| wireBit partner.index = i ^^^ op.flips := by
        rw [or_wireBit_of_clear hclear, hflips, Nat.xor_assoc]
      simp only [if_pos hset, hbits]
      rfl
    · intro i hi current hselects
      exact if_neg fun hset => Bool.eq_false_iff.mp hselects ((hguard i).mp hset)

/-- An applicable operation is accepted, and updates its pairs. -/
theorem apply_of_applicable [Add R] [Mul R] {op : Operation α} (h : op.Applicable n)
    (state : StateVector R n) : apply matrixOf op state = .ok (op.update matrixOf h state) := by
  have hmask : controlMask n op.controls = .ok (addBits 0 op.controls) :=
    controlMask_eq_ok_iff.mpr ⟨h.controls, rfl⟩
  unfold apply
  rw [hmask, locateWire_of_lt h.target]
  cases hswap : op.gate.isSwap with
  | false =>
    rw [← applyMatrix_eq_update matrixOf h hswap]
    rfl
  | true =>
    obtain ⟨partner, hpartner⟩ := Option.isSome_iff_exists.mp (h.partner hswap)
    have hlt : partner.index < n :=
      h.second partner (Operation.second?_eq_some_iff.mpr ⟨hswap, hpartner⟩)
    rw [hpartner, ← applySwap_eq_update matrixOf h hswap hpartner hlt]
    show (locateWire n partner >>= fun place => _) = _
    rw [locateWire_of_lt hlt]
    rfl

/-- An operation that is accepted is applicable. -/
theorem applicable_of_apply [Add R] [Mul R] {op : Operation α} {state next : StateVector R n}
    (hok : apply matrixOf op state = .ok next) : op.Applicable n := by
  unfold apply at hok
  obtain ⟨mask, hmask, hok⟩ := bind_eq_ok_iff.mp hok
  obtain ⟨place, hplace, hok⟩ := bind_eq_ok_iff.mp hok
  have hcontrols := (controlMask_eq_ok_iff.mp hmask).1
  have htarget := lt_of_locateWire hplace
  split at hok
  · next hswap =>
    cases hpartner : op.partner with
    | none =>
      rw [hpartner] at hok
      cases hok
    | some partner =>
      rw [hpartner] at hok
      obtain ⟨second, hsecond, -⟩ := bind_eq_ok_iff.mp hok
      refine ⟨hcontrols, htarget, ?_, fun _ => by rw [hpartner]; rfl⟩
      intro wire hwire
      obtain ⟨-, hwire⟩ := Operation.second?_eq_some_iff.mp hwire
      cases hpartner.symm.trans hwire
      exact lt_of_locateWire hsecond
  · next hswap =>
    refine ⟨hcontrols, htarget, ?_, fun hgate => absurd hgate hswap⟩
    intro wire hwire
    exact absurd (Operation.second?_eq_some_iff.mp hwire).1 hswap

theorem update_of_apply [Add R] [Mul R] {op : Operation α} {state next : StateVector R n}
    (hok : apply matrixOf op state = .ok next) :
    ∃ h : op.Applicable n, op.update matrixOf h state = next := by
  have h := applicable_of_apply matrixOf hok
  exact ⟨h, Except.ok.inj ((apply_of_applicable matrixOf h state).symm.trans hok)⟩

/-! ## Operations in order -/

section Order

variable [Add R] [Mul R] {op : Operation α} {ops ops' : List (Operation α)}
  {state next : StateVector R n}

theorem applyAll_cons_of_ok (h : apply matrixOf op state = .ok next) :
    applyAll matrixOf (op :: ops) state = applyAll matrixOf ops next := by
  rw [applyAll, List.foldlM_cons, h]
  rfl

theorem applyAll_append_of_ok (h : applyAll matrixOf ops state = .ok next) :
    applyAll matrixOf (ops ++ ops') state = applyAll matrixOf ops' next := by
  rw [applyAll] at h
  rw [applyAll, List.foldlM_append, h]
  rfl

end Order

end StateVector

end CircuitGrid
