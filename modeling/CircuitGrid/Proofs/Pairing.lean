import CircuitGrid.Simulation.Matrix
import Mathlib.Tactic.Ring

/-!
# Updating pairs in place

The loops over a state go through its indices and replace two entries at a time, those of
an index and of its mate. A `Pairing` says which indices are visited and who is whose
mate. As no two pairs overlap, no entry is read after it was replaced, and the loop comes
to replacing all pairs at once (`Pairing.fold_eq_update`).
-/

namespace CircuitGrid

/-! ## Rows of a matrix -/

namespace Matrix

variable {R : Type} [Add R] [Mul R]

/-- The first row of a matrix against two entries. -/
def firstRow (matrix : Matrix R) (a b : R) : R := matrix.m00 * a + matrix.m01 * b

/-- The second row of a matrix against two entries. -/
def secondRow (matrix : Matrix R) (a b : R) : R := matrix.m10 * a + matrix.m11 * b

end Matrix

/-! ## Entries of a vector -/

theorem eq_of_get {R : Type} {N : Nat} {state other : Vector R N}
    (h : ∀ i : Fin N, state.get i = other.get i) : state = other :=
  Vector.ext fun i hi => h ⟨i, hi⟩

/-- The state whose entry at an index is that at the renamed index. -/
def permute {R : Type} {N : Nat} (rename : Fin N → Fin N) (state : Vector R N) : Vector R N :=
  Vector.ofFn fun i => state.get (rename i)

theorem get_permute {R : Type} {N : Nat} (rename : Fin N → Fin N) (state : Vector R N)
    (i : Fin N) : (permute rename state).get i = state.get (rename i) :=
  Vector.getElem_ofFn i.isLt

/-- The entries at two indices replaced by what `first` and `second` make of them. -/
def replacePair {R : Type} {N : Nat} (first second : R → R → R) (state : Vector R N)
    (i j : Fin N) : Vector R N :=
  let a := state.get i
  let b := state.get j
  (state.set i.val (first a b) i.isLt).set j.val (second a b) j.isLt

theorem get_replacePair {R : Type} {N : Nat} (first second : R → R → R) (state : Vector R N)
    {i j : Fin N} (hne : j ≠ i) (k : Fin N) :
    (replacePair first second state i j).get k =
      if k = j then second (state.get i) (state.get j)
      else if k = i then first (state.get i) (state.get j)
      else state.get k := by
  have hval : j.val ≠ i.val := fun h => hne (Fin.ext h)
  show ((state.set i.val _ i.isLt).set j.val _ j.isLt)[k.val] = _
  rw [Vector.getElem_set, Vector.getElem_set]
  simp only [Fin.ext_iff, eq_comm]
  rfl

/-! ## Pairings -/

/-- Pairs among `N` indices. Each pair has one chosen index, which is the one visited. -/
structure Pairing (N : Nat) where
  chosen : Fin N → Bool
  mate : Fin N → Fin N
  mate_mate : ∀ i, mate (mate i) = i
  mate_not_chosen : ∀ i, chosen i = true → chosen (mate i) = false

namespace Pairing

variable {N : Nat} {R : Type} (pairing : Pairing N)

theorem mate_ne {i : Fin N} (h : pairing.chosen i = true) : pairing.mate i ≠ i := by
  intro heq
  have hnot := pairing.mate_not_chosen i h
  rw [heq, h] at hnot
  cases hnot

/-! ## Progress of a loop -/

/-- The pair of the index has its chosen index below `k`. -/
def Passed (k : Nat) (i : Fin N) : Prop :=
  (pairing.chosen i = true ∧ i.val < k) ∨
    (pairing.chosen (pairing.mate i) = true ∧ (pairing.mate i).val < k)

theorem passed_succ {k : Nat} (hk : k < N) (i : Fin N) :
    pairing.Passed (k + 1) i ↔
      pairing.Passed k i ∨
        pairing.chosen ⟨k, hk⟩ = true ∧ (i = ⟨k, hk⟩ ∨ i = pairing.mate ⟨k, hk⟩) := by
  have hbelow : ∀ j : Fin N, j.val < k + 1 ↔ j.val < k ∨ j = ⟨k, hk⟩ := by
    intro j
    rw [Nat.lt_succ_iff_lt_or_eq, Fin.ext_iff]
  have hmate : ∀ j, pairing.mate i = j ↔ i = pairing.mate j := by
    intro j
    constructor
    · rintro rfl
      exact (pairing.mate_mate i).symm
    · rintro rfl
      exact pairing.mate_mate j
  unfold Passed
  rw [hbelow, hbelow, hmate]
  constructor
  · rintro (⟨hi, hlt | rfl⟩ | ⟨hi, hlt | heq⟩)
    · exact Or.inl (Or.inl ⟨hi, hlt⟩)
    · exact Or.inr ⟨hi, Or.inl rfl⟩
    · exact Or.inl (Or.inr ⟨hi, hlt⟩)
    · exact Or.inr ⟨(hmate _).mpr heq ▸ hi, Or.inr heq⟩
  · rintro ((⟨hi, hlt⟩ | ⟨hi, hlt⟩) | ⟨hi, rfl | rfl⟩)
    · exact Or.inl ⟨hi, Or.inl hlt⟩
    · exact Or.inr ⟨hi, Or.inl hlt⟩
    · exact Or.inl ⟨hi, Or.inr rfl⟩
    · exact Or.inr ⟨(pairing.mate_mate _).symm ▸ hi, Or.inr rfl⟩

/-- Before the loop visits an index, the pair of that index is as it was. -/
theorem not_passed_of_chosen {i : Fin N} (h : pairing.chosen i = true) :
    ¬ pairing.Passed i.val i ∧ ¬ pairing.Passed i.val (pairing.mate i) := by
  have hmate := pairing.mate_not_chosen i h
  constructor
  · rintro (⟨_, hlt⟩ | ⟨hi, _⟩)
    · exact Nat.lt_irrefl _ hlt
    · rw [hmate] at hi
      cases hi
  · rintro (⟨hi, _⟩ | ⟨_, hlt⟩)
    · rw [hmate] at hi
      cases hi
    · rw [pairing.mate_mate] at hlt
      exact Nat.lt_irrefl _ hlt

/-! ## One by one and all at once -/

section Update

variable (first second : R → R → R)

/-- The pair of one index replaced in place, if the index is chosen. -/
def step (state : Vector R N) (i : Fin N) : Vector R N :=
  if pairing.chosen i then replacePair first second state i (pairing.mate i) else state

/-- All pairs replaced at once. -/
def update (state : Vector R N) : Vector R N :=
  Vector.ofFn fun i =>
    if pairing.chosen i then first (state.get i) (state.get (pairing.mate i))
    else if pairing.chosen (pairing.mate i) then
      second (state.get (pairing.mate i)) (state.get i)
    else state.get i

theorem get_update (state : Vector R N) (i : Fin N) :
    (pairing.update first second state).get i =
      if pairing.chosen i then first (state.get i) (state.get (pairing.mate i))
      else if pairing.chosen (pairing.mate i) then
        second (state.get (pairing.mate i)) (state.get i)
      else state.get i :=
  Vector.getElem_ofFn i.isLt

theorem update_of_none (h : ∀ i, pairing.chosen i = false) (state : Vector R N) :
    pairing.update first second state = state := by
  refine eq_of_get fun i => ?_
  simp [get_update, h]

/-- An index whose pair is one of those updated is taken to its mate, any other stays. -/
def exchange (i : Fin N) : Fin N :=
  if pairing.chosen i || pairing.chosen (pairing.mate i) then pairing.mate i else i

theorem exchange_exchange (i : Fin N) : pairing.exchange (pairing.exchange i) = i := by
  cases h : pairing.chosen i || pairing.chosen (pairing.mate i) with
  | false => simp only [exchange, h, Bool.false_eq_true, if_false]
  | true =>
    have hmate : (pairing.chosen (pairing.mate i) || pairing.chosen i) = true := by
      rw [Bool.or_comm, h]
    simp only [exchange, h, if_true, pairing.mate_mate, hmate]

/-- If the two entries of a pair trade places, the update is a rearrangement. -/
theorem update_eq_permute (state : Vector R N) :
    pairing.update (fun _ b => b) (fun a _ => a) state = permute pairing.exchange state := by
  refine eq_of_get fun i => ?_
  rw [get_update, get_permute, exchange]
  cases pairing.chosen i <;> cases pairing.chosen (pairing.mate i) <;> rfl

/-- A loop that has come to index `k` has replaced the pairs it has passed, and no other. -/
def Replacing (k : Nat) (state current : Vector R N) : Prop :=
  ∀ i, (pairing.Passed k i → current.get i = (pairing.update first second state).get i) ∧
    (¬ pairing.Passed k i → current.get i = state.get i)

variable {first second}

theorem Replacing.step {k : Nat} {state current : Vector R N}
    (h : pairing.Replacing first second k state current) (hk : k < N) :
    pairing.Replacing first second (k + 1) state (pairing.step first second current ⟨k, hk⟩) := by
  intro i
  rw [pairing.passed_succ hk]
  cases hchosen : pairing.chosen ⟨k, hk⟩ with
  | false => simpa [Pairing.step, hchosen] using h i
  | true =>
    -- both entries of the pair are read before they are replaced
    obtain ⟨hfirst, hsecond⟩ := pairing.not_passed_of_chosen hchosen
    have hmate := pairing.mate_not_chosen _ hchosen
    rw [Pairing.step, if_pos hchosen, get_replacePair _ _ _ (pairing.mate_ne hchosen),
      (h _).2 hfirst, (h _).2 hsecond]
    by_cases hsec : i = pairing.mate ⟨k, hk⟩
    · subst hsec
      simp [get_update, pairing.mate_mate, hchosen, hmate]
    · by_cases hfir : i = ⟨k, hk⟩
      · subst hfir
        simp [get_update, hsec, hchosen]
      · simpa [hsec, hfir] using h i

variable (first second) in
theorem replacing_fold (state : Vector R N) {k : Nat} (hk : k ≤ N) :
    pairing.Replacing first second k state
      (Nat.fold k (fun i i_lt current =>
        pairing.step first second current ⟨i, Nat.lt_of_lt_of_le i_lt hk⟩) state) := by
  induction k with
  | zero =>
    intro i
    refine ⟨?_, fun _ => rfl⟩
    rintro (⟨_, hlt⟩ | ⟨_, hlt⟩) <;> cases hlt
  | succ k ih =>
    rw [Nat.fold_succ]
    exact (ih (Nat.le_of_succ_le hk)).step pairing hk

/-- A loop that replaces the pairs of the chosen indices one by one replaces all pairs. -/
theorem fold_eq_update {body : (i : Nat) → i < N → Vector R N → Vector R N}
    (hchosen : ∀ i (hi : i < N) current, pairing.chosen ⟨i, hi⟩ = true →
      body i hi current = replacePair first second current ⟨i, hi⟩ (pairing.mate ⟨i, hi⟩))
    (hother : ∀ i (hi : i < N) current, pairing.chosen ⟨i, hi⟩ = false →
      body i hi current = current) (state : Vector R N) :
    Nat.fold N body state = pairing.update first second state := by
  have hbody : body = fun i i_lt current => pairing.step first second current ⟨i, i_lt⟩ := by
    funext i hi current
    unfold Pairing.step
    split
    · next h => exact hchosen i hi current h
    · next h => exact hother i hi current (Bool.eq_false_iff.mpr h)
  subst hbody
  refine eq_of_get fun i => ?_
  obtain ⟨hpassed, hwaiting⟩ := pairing.replacing_fold first second state (Nat.le_refl N) i
  by_cases h : pairing.Passed N i
  · exact hpassed h
  · refine (hwaiting h).trans ?_
    -- no index is beyond the end of the loop, so neither of the pair is chosen
    rw [Passed, not_or, not_and, not_and] at h
    have hself : pairing.chosen i ≠ true := fun hself => h.1 hself (Fin.isLt _)
    have hmate : pairing.chosen (pairing.mate i) ≠ true := fun hmate => h.2 hmate (Fin.isLt _)
    rw [get_update, if_neg hself, if_neg hmate]

end Update

/-! ## Under a renaming of the indices -/

section Renaming

variable {pairing} {other : Pairing N} {rename : Fin N → Fin N}

/-- If two pairings are the same up to a renaming that undoes itself, one replaces the
pairs of the renamed state as the other does those of the state. -/
theorem permute_update_permute (first second : R → R → R)
    (hrename : ∀ i, rename (rename i) = i)
    (hchosen : ∀ i, other.chosen i = pairing.chosen (rename i))
    (hmate : ∀ i, other.mate i = rename (pairing.mate (rename i))) (state : Vector R N) :
    permute rename (pairing.update first second (permute rename state)) =
      other.update first second state := by
  refine eq_of_get fun i => ?_
  have hmated : other.chosen (other.mate i) = pairing.chosen (pairing.mate (rename i)) := by
    rw [hchosen, hmate, hrename]
  rw [get_permute, get_update, get_update, get_permute, get_permute, hrename, hmated, hchosen,
    hmate]

end Renaming

/-! ## Linear updates

Over a commutative semiring a matrix makes of each entry a combination of the entry and
that of its mate. Two such updates can be exchanged if neither moves an index in or out of
a pair of the other.
-/

section Linear

variable [CommSemiring R] (matrix : Matrix R)

/-- The part of an entry in what becomes of it. -/
def ownPart (i : Fin N) : R :=
  if pairing.chosen i then matrix.m00
  else if pairing.chosen (pairing.mate i) then matrix.m11 else 1

/-- The part of the mate in what becomes of an entry. -/
def matePart (i : Fin N) : R :=
  if pairing.chosen i then matrix.m01
  else if pairing.chosen (pairing.mate i) then matrix.m10 else 0

theorem get_update_linear (state : Vector R N) (i : Fin N) :
    (pairing.update matrix.firstRow matrix.secondRow state).get i =
      pairing.ownPart matrix i * state.get i +
        pairing.matePart matrix i * state.get (pairing.mate i) := by
  rw [get_update]
  unfold ownPart matePart
  split
  · rfl
  · split
    · exact add_comm _ _
    · rw [one_mul, zero_mul, add_zero]

/-- The mate of an index in either pairing is on the same side of the other, and the two
mates can be taken in either order. -/
structure Apart (other : Pairing N) : Prop where
  mate_comm : ∀ i, pairing.mate (other.mate i) = other.mate (pairing.mate i)
  chosen_mate : ∀ i, pairing.chosen (other.mate i) = pairing.chosen i
  mate_chosen : ∀ i, other.chosen (pairing.mate i) = other.chosen i

variable {pairing} {other : Pairing N}

theorem Apart.symm (h : pairing.Apart other) : other.Apart pairing :=
  ⟨fun i => (h.mate_comm i).symm, h.mate_chosen, h.chosen_mate⟩

theorem Apart.parts (h : pairing.Apart other) (i : Fin N) :
    pairing.ownPart matrix (other.mate i) = pairing.ownPart matrix i ∧
      pairing.matePart matrix (other.mate i) = pairing.matePart matrix i := by
  unfold ownPart matePart
  rw [h.mate_comm, h.chosen_mate, h.chosen_mate]
  exact ⟨rfl, rfl⟩

theorem Apart.update_comm (h : pairing.Apart other) (matrix' : Matrix R) (state : Vector R N) :
    other.update matrix'.firstRow matrix'.secondRow
        (pairing.update matrix.firstRow matrix.secondRow state) =
      pairing.update matrix.firstRow matrix.secondRow
        (other.update matrix'.firstRow matrix'.secondRow state) := by
  refine eq_of_get fun i => ?_
  obtain ⟨hown, hmate⟩ := h.parts matrix i
  obtain ⟨hown', hmate'⟩ := h.symm.parts matrix' i
  simp only [get_update_linear, hown, hmate, hown', hmate', h.mate_comm]
  ring

end Linear

end Pairing

end CircuitGrid
