import CircuitGrid.Proofs.Relabelling
import CircuitGrid.Proofs.Reordering

/-!
# Swaps under controls

The loop of a swap visits both indices of a pair, and its guard looks at the two wires in
different ways. Still each pair is exchanged once: whatever its wires, a swap takes every
amplitude to another index by a map that undoes itself (`Pairing.exchange`). If the controls
are apart from the two wires, this map exchanges two bits of the indices whose control bits
are set (`ExchangedAtOnce`), and then it is the same with the two wires exchanged.
-/

namespace CircuitGrid

theorem exchangeBits_comm (a b i : Nat) : exchangeBits a b i = exchangeBits b a i := by
  refine Nat.eq_of_testBit_eq fun k => ?_
  rw [testBit_exchangeBits, testBit_exchangeBits, Equiv.swap_comm]

/-! ## The swap without its controls -/

namespace Operation

variable {α : Type} {op : Operation α} {second : Wire}

/-- A swap selects what the swap without controls selects, where its controls are set. -/
theorem selects_of_second (hsecond : op.second? = some second) (i : Nat) :
    op.selects i = (op.controls.all (fun wire => i.testBit wire.index) &&
      (swap op.target second : Operation α).selects i) := by
  have hswap : op.gate.isSwap = true := (second?_eq_some_iff.mp hsecond).1
  rw [selects_swap, selects, hsecond, hswap, Bool.and_assoc, Option.all_some, beq_true]

theorem flips_of_second (hsecond : op.second? = some second) :
    op.flips = (swap op.target second : Operation α).flips := by
  rw [flips_swap, flips, hsecond]
  rfl

/-- Exchanging the two bits of an index leaves the controls apart from them alone. -/
theorem testBit_xor_flips_of_apart (hsecond : op.second? = some second)
    (hapart : ∀ wire ∈ op.controls, wire ≠ op.target ∧ wire ≠ second) {wire : Wire}
    (hmem : wire ∈ op.controls) (i : Nat) :
    (i ^^^ op.flips).testBit wire.index = i.testBit wire.index := by
  obtain ⟨htarget, hpartner⟩ := hapart wire hmem
  have hwires : wire ∉ (swap op.target second : Operation α).wires := by
    simp [wires, swap, htarget, hpartner]
  rw [Nat.testBit_xor, flips_of_second hsecond, testBit_flips_of_notMem hwires, Bool.xor_false]

variable {n : Nat} (h : op.Applicable n)

/-- Where the controls are set, a swap exchanges what the swap without controls does. -/
theorem exchange_of_controls (hsecond : op.second? = some second)
    (hapart : ∀ wire ∈ op.controls, wire ≠ op.target ∧ wire ≠ second) {i : Fin (basisSize n)}
    (hset : ∀ wire ∈ op.controls, i.val.testBit wire.index = true) :
    (op.pairing h).exchange i =
      ((swap op.target second : Operation α).pairing
        (applicable_swap h.target (h.second second hsecond))).exchange i := by
  have hselects : ∀ j : Nat, (∀ wire ∈ op.controls, j.testBit wire.index = true) →
      op.selects j = (swap op.target second : Operation α).selects j := by
    intro j hset
    rw [selects_of_second hsecond, List.all_eq_true.mpr hset, Bool.true_and]
  have hmate : ∀ wire ∈ op.controls, (i.val ^^^ op.flips).testBit wire.index = true := by
    intro wire hmem
    rw [testBit_xor_flips_of_apart hsecond hapart hmem, hset wire hmem]
  refine if_congr (Bool.eq_iff_iff.mp ?_) (Fin.ext ?_) rfl
  · exact congrArg₂ or (hselects i hset)
      ((hselects _ hmate).trans (by rw [flips_of_second hsecond]; rfl))
  · exact congrArg (i.val ^^^ ·) (flips_of_second hsecond)

/-- Where a control is clear, nothing is exchanged. -/
theorem exchange_of_control_clear (hsecond : op.second? = some second)
    (hapart : ∀ wire ∈ op.controls, wire ≠ op.target ∧ wire ≠ second) {i : Fin (basisSize n)}
    (hclear : ∃ wire ∈ op.controls, i.val.testBit wire.index = false) :
    (op.pairing h).exchange i = i := by
  obtain ⟨wire, hmem, hclear⟩ := hclear
  have hnot : ∀ j : Nat, j.testBit wire.index = false → op.selects j = false := by
    intro j hj
    rw [Bool.eq_false_iff]
    intro hselects
    rw [(selects_iff.mp hselects).1 wire hmem] at hj
    cases hj
  have hmate : op.selects (i.val ^^^ op.flips) = false :=
    hnot _ ((testBit_xor_flips_of_apart hsecond hapart hmem i).trans hclear)
  unfold Pairing.exchange
  simp only [pairing, hnot i hclear, hmate, Bool.or_self, Bool.false_eq_true, if_false]

/-- A swap of a wire with itself selects nothing, as a bit is not both set and clear. -/
theorem selects_of_second_eq_target (hsecond : op.second? = some op.target) (i : Nat) :
    op.selects i = false := by
  rw [selects_of_second hsecond, selects_swap, Bool.and_not_self, Bool.and_false]

/-- The swap with its two wires in the other order. -/
theorem Applicable.turned (h : op.Applicable n) (hsecond : op.second? = some second) :
    ({ op with target := second, partner := some op.target } : Operation α).Applicable n := by
  have hswap : op.gate.isSwap = true := (second?_eq_some_iff.mp hsecond).1
  refine ⟨h.controls, h.second second hsecond, ?_, fun _ => rfl⟩
  intro wire hwire
  obtain ⟨-, hwire⟩ := second?_eq_some_iff.mp hwire
  cases hwire
  exact h.target

end Operation

/-! ## Exchanged at once -/

namespace StateVector

variable {α R : Type} {n : Nat}

/-- The entries of `next` are those of `state`, with two bits of the index exchanged where
the controls are set. -/
structure ExchangedAtOnce {first second : Wire} (first_lt : first.index < n)
    (second_lt : second.index < n) (controls : List Wire) (state next : StateVector R n) :
    Prop where
  controlled : ∀ i : Fin (basisSize n),
    (∀ wire ∈ controls, i.val.testBit wire.index = true) →
      next.get i = state.get ⟨exchangeBits first.index second.index i,
        exchangeBits_lt first_lt second_lt i.isLt⟩
  uncontrolled : ∀ i : Fin (basisSize n),
    (∃ wire ∈ controls, i.val.testBit wire.index = false) → next.get i = state.get i

section ExchangedAtOnce

variable {first second : Wire} {first_lt : first.index < n} {second_lt : second.index < n}
  {controls : List Wire} {state next other : StateVector R n}

/-- The two wires can be taken in either order. -/
theorem ExchangedAtOnce.symm (h : ExchangedAtOnce first_lt second_lt controls state next) :
    ExchangedAtOnce second_lt first_lt controls state next := by
  refine ⟨fun i hset => ?_, h.uncontrolled⟩
  rw [h.controlled i hset]
  exact congrArg state.get (Fin.ext (exchangeBits_comm _ _ _))

/-- Every index is either controlled or not, so that nothing is left open. -/
theorem ExchangedAtOnce.unique (h : ExchangedAtOnce first_lt second_lt controls state next)
    (hother : ExchangedAtOnce first_lt second_lt controls state other) : next = other := by
  refine eq_of_get fun i => ?_
  by_cases hset : ∀ wire ∈ controls, i.val.testBit wire.index = true
  · rw [h.controlled i hset, hother.controlled i hset]
  · have hclear : ∃ wire ∈ controls, i.val.testBit wire.index = false := by
      simpa using hset
    rw [h.uncontrolled i hclear, hother.uncontrolled i hclear]

end ExchangedAtOnce

variable [Add R] [Mul R] (matrixOf : Primitive α → Matrix R) {op : Operation α} {second : Wire}
  (h : op.Applicable n)

theorem update_eq_permute_of_second (hsecond : op.second? = some second)
    (state : StateVector R n) :
    op.update matrixOf h state = permute (op.pairing h).exchange state := by
  have hswap : op.gate.isSwap = true := (Operation.second?_eq_some_iff.mp hsecond).1
  unfold Operation.update Operation.selectedRow Operation.mateRow
  rw [if_pos hswap, if_pos hswap, Pairing.update_eq_permute]

theorem update_exchanges (hsecond : op.second? = some second)
    (hapart : ∀ wire ∈ op.controls, wire ≠ op.target ∧ wire ≠ second)
    (state : StateVector R n) :
    ExchangedAtOnce h.target (h.second second hsecond) op.controls state
      (op.update matrixOf h state) := by
  constructor
  · intro i hset
    rw [update_eq_permute_of_second matrixOf h hsecond, get_permute,
      op.exchange_of_controls h hsecond hapart hset,
      Operation.pairing_swap_exchange h.target (h.second second hsecond)]
  · intro i hclear
    rw [update_eq_permute_of_second matrixOf h hsecond, get_permute,
      op.exchange_of_control_clear h hsecond hapart hclear]

/-- A swap that is accepted exchanges two bits of every index whose control bits are set, if its
controls are apart from the two wires; it then does the same with the two wires in the other
order. A wire swapped with itself changes nothing. Whatever the wires, the amplitudes are
rearranged, and the swap done twice brings all of them back. -/
theorem apply_exchanges (hswap : op.gate.isSwap = true) {state next : StateVector R n}
    (hok : apply matrixOf op state = .ok next) :
    ∃ partner, op.partner = some partner ∧
      ∃ (target_lt : op.target.index < n) (partner_lt : partner.index < n),
        ((∀ wire ∈ op.controls, wire ≠ op.target ∧ wire ≠ partner) →
          ExchangedAtOnce target_lt partner_lt op.controls state next ∧
          apply matrixOf { op with target := partner, partner := some op.target } state =
            .ok next) ∧
        (op.target = partner → next = state) ∧
        (∃ σ : Equiv.Perm (Fin (basisSize n)), ∀ i, next.get i = state.get (σ i)) ∧
        apply matrixOf op next = .ok state := by
  obtain ⟨h, rfl⟩ := update_of_apply matrixOf hok
  obtain ⟨partner, hpartner⟩ := Option.isSome_iff_exists.mp (h.partner hswap)
  have hsecond : op.second? = some partner :=
    Operation.second?_eq_some_iff.mpr ⟨hswap, hpartner⟩
  refine ⟨partner, hpartner, h.target, h.second partner hsecond, ?_, ?_, ?_, ?_⟩
  · intro hapart
    have hexchanged := update_exchanges matrixOf h hsecond hapart state
    refine ⟨hexchanged, ?_⟩
    rw [apply_of_applicable matrixOf (h.turned hsecond)]
    have hturned := update_exchanges matrixOf (h.turned hsecond)
      (Operation.second?_eq_some_iff.mpr ⟨hswap, rfl⟩)
      (fun wire hmem => (hapart wire hmem).symm) state
    exact congrArg Except.ok (hturned.symm.unique hexchanged)
  · rintro rfl
    exact (op.pairing h).update_of_none _ _
      (fun i => Operation.selects_of_second_eq_target hsecond i) state
  · refine ⟨Function.Involutive.toPerm _ (op.pairing h).exchange_exchange, fun i => ?_⟩
    rw [update_eq_permute_of_second matrixOf h hsecond, get_permute]
    rfl
  · rw [apply_of_applicable matrixOf h, update_eq_permute_of_second matrixOf h hsecond,
      update_eq_permute_of_second matrixOf h hsecond]
    refine congrArg Except.ok (eq_of_get fun i => ?_)
    rw [get_permute, get_permute, Pairing.exchange_exchange]

/-- Wires 1 and 2 are exchanged where wire 0 is set: 3 and 5 trade places. -/
theorem apply_exchanges_fredkin :
    let matrixOf : Primitive Float → Matrix Int := fun _ => ⟨1, 2, 3, 4⟩
    let wire : Fin 3 → Wire := fun i => ⟨i, Nat.lt_of_lt_of_le i.isLt (by decide)⟩
    let op : Operation Float := .controlledSwap (wire 0) (wire 1) (wire 2)
    let state : StateVector Int 3 := #v[10, 11, 12, 13, 14, 15, 16, 17]
    let next : StateVector Int 3 := #v[10, 11, 12, 15, 14, 13, 16, 17]
    op.gate.isSwap = true ∧ apply matrixOf op state = .ok next ∧
      apply matrixOf (.controlledSwap (wire 0) (wire 2) (wire 1)) state = .ok next ∧
      apply matrixOf op next = .ok state := by
  intro matrixOf wire op state next
  have hok : apply matrixOf op state = .ok next := by decide
  obtain ⟨partner, hpartner, _, _, hexchanged, _, _, hback⟩ := apply_exchanges matrixOf rfl hok
  cases hpartner
  exact ⟨rfl, hok, (hexchanged (by decide)).2, hback⟩

end StateVector

end CircuitGrid
