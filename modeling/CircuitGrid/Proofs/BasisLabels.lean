import CircuitGrid.Simulation.Outcome
import Mathlib.Data.Nat.Bitwise

/-!
# Labels of basis states

A label is the binary numeral of a state, filled up with zeros. Halving the state takes off the
last character (`basisLabel_succ`), so what is said of labels is proved by induction on the
number of wires: each character is a bit, and labels are ordered as their states are.
-/

namespace CircuitGrid

/-- The character of a bit. -/
def bitChar (bit : Bool) : Char := if bit then '1' else '0'

theorem digitChar_mod_two (state : Nat) :
    (state % 2).digitChar = bitChar (state.testBit 0) := by
  rw [Nat.testBit_zero]
  rcases Nat.mod_two_eq_zero_or_one state with h | h <;> rw [h] <;> rfl

/-- The last character of a label is that of the parity, those before it are the label of half
the state on one wire less. -/
theorem basisLabel_succ {wires : Nat} (hwires : 1 ≤ wires) (state : Nat) :
    basisLabel state (wires + 1) =
      basisLabel (state / 2) wires ++ [bitChar (state.testBit 0)] := by
  rw [← digitChar_mod_two]
  unfold basisLabel
  simp only
  rw [Nat.toDigits_eq_if (by decide)]
  split
  · next hlt =>
    obtain ⟨n, rfl⟩ := Nat.exists_eq_succ_of_ne_zero (Nat.ne_of_gt hwires)
    have hhalf : state / 2 = 0 := Nat.div_eq_of_lt hlt
    rw [hhalf, Nat.mod_eq_of_lt hlt]
    show List.replicate (n + 1) '0' ++ [state.digitChar] =
      List.replicate n '0' ++ ['0'] ++ [state.digitChar]
    rw [List.replicate_succ']
  · next hge =>
    rw [List.length_append, List.length_singleton, Nat.add_sub_add_right, List.append_assoc]

theorem basisLabel_one {state : Nat} (h : state < 2) :
    basisLabel state 1 = [bitChar (state.testBit 0)] := by
  rw [← digitChar_mod_two, Nat.mod_eq_of_lt h]
  unfold basisLabel
  rw [Nat.toDigits_of_lt_base h]
  rfl

/-- A label lists the bits of its state, the lowest one last. -/
theorem basisLabel_eq_reverse {wires : Nat} (hwires : 1 ≤ wires) {state : Nat}
    (h : state < 2 ^ wires) :
    basisLabel state wires =
      ((List.range wires).map fun i => bitChar (state.testBit i)).reverse := by
  induction wires, hwires using Nat.le_induction generalizing state with
  | base => exact basisLabel_one h
  | succ wires hwires ih =>
    have hhalf : state / 2 < 2 ^ wires := Nat.div_lt_of_lt_mul (by rwa [← Nat.pow_succ'])
    rw [basisLabel_succ hwires, ih hhalf, List.range_succ_eq_map, List.map_cons, List.reverse_cons,
      List.map_map]
    congr 2
    apply List.map_congr_left
    intro i _
    rw [Nat.testBit_div_two]
    rfl

/-! ## Reading a label -/

theorem ofDigitChars_replicate_append (n : Nat) (cs : List Char) :
    Nat.ofDigitChars 2 (List.replicate n '0' ++ cs) 0 = Nat.ofDigitChars 2 cs 0 := by
  induction n with
  | zero => rfl
  | succ n ih => exact ih

/-- Read in base two, a label gives its state. -/
theorem ofDigitChars_basisLabel (state wires : Nat) :
    Nat.ofDigitChars 2 (basisLabel state wires) 0 = state := by
  unfold basisLabel
  rw [ofDigitChars_replicate_append]
  exact Nat.ofDigitChars_toDigits (by decide) (by decide)

theorem basisLabel_injective (wires : Nat) : Function.Injective (basisLabel · wires) := by
  intro state other h
  rw [← ofDigitChars_basisLabel state wires, ← ofDigitChars_basisLabel other wires]
  exact congrArg (Nat.ofDigitChars 2 · 0) h

/-! ## The order of labels -/

/-- Lists of one length are compared up to their last entries first. -/
theorem append_singleton_lt_iff {cs ds : List Char} (hlength : cs.length = ds.length) (c d : Char) :
    cs ++ [c] < ds ++ [d] ↔ cs < ds ∨ cs = ds ∧ c < d := by
  induction cs generalizing ds with
  | nil =>
    obtain rfl : ds = [] := List.eq_nil_of_length_eq_zero hlength.symm
    simp [List.cons_lt_cons_iff]
  | cons a cs ih =>
    cases ds with
    | nil => cases hlength
    | cons b ds =>
      simp only [List.cons_append, List.cons_lt_cons_iff, ih (Nat.succ.inj hlength),
        List.cons.injEq]
      tauto

theorem bitChar_lt_iff (state other : Nat) :
    bitChar (state.testBit 0) < bitChar (other.testBit 0) ↔ state % 2 < other % 2 := by
  rw [Nat.testBit_zero, Nat.testBit_zero]
  rcases Nat.mod_two_eq_zero_or_one state with h | h <;>
    rcases Nat.mod_two_eq_zero_or_one other with h' | h' <;> rw [h, h'] <;> decide

section Width

variable {wires : Nat} (hwires : 1 ≤ wires) {state other : Nat} (h : state < 2 ^ wires)

include hwires h

theorem length_basisLabel : (basisLabel state wires).length = wires := by
  rw [basisLabel_eq_reverse hwires h, List.length_reverse, List.length_map, List.length_range]

/-- Wire `i` is the character at position `wires - 1 - i`. -/
theorem getElem?_basisLabel {i : Nat} (hi : i < wires) :
    (basisLabel state wires)[wires - 1 - i]? = some (bitChar (state.testBit i)) := by
  have hlength : ((List.range wires).map fun i => bitChar (state.testBit i)).length = wires := by
    rw [List.length_map, List.length_range]
  rw [basisLabel_eq_reverse hwires h, List.getElem?_reverse (by omega), hlength,
    show wires - 1 - (wires - 1 - i) = i by omega, List.getElem?_map, List.getElem?_range hi]
  rfl

/-- The lexicographic order of labels is the order of their states. -/
theorem basisLabel_lt_iff (h' : other < 2 ^ wires) :
    basisLabel state wires < basisLabel other wires ↔ state < other := by
  induction wires, hwires using Nat.le_induction generalizing state other with
  | base =>
    rw [basisLabel_one h, basisLabel_one h', List.cons_lt_cons_iff, bitChar_lt_iff,
      Nat.mod_eq_of_lt (show state < 2 from h), Nat.mod_eq_of_lt (show other < 2 from h')]
    simp
  | succ wires hwires ih =>
    have hhalf : state / 2 < 2 ^ wires := Nat.div_lt_of_lt_mul (by rwa [← Nat.pow_succ'])
    have hhalf' : other / 2 < 2 ^ wires := Nat.div_lt_of_lt_mul (by rwa [← Nat.pow_succ'])
    have hlength :
        (basisLabel (state / 2) wires).length = (basisLabel (other / 2) wires).length := by
      rw [length_basisLabel hwires hhalf, length_basisLabel hwires hhalf']
    rw [basisLabel_succ hwires, basisLabel_succ hwires, append_singleton_lt_iff hlength,
      ih hhalf hhalf', (basisLabel_injective wires).eq_iff, bitChar_lt_iff]
    omega

end Width

end CircuitGrid
