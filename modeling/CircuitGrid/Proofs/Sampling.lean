import CircuitGrid.Proofs.Histogram
import CircuitGrid.Proofs.TotalProbability

/-!
# Sampling inverts the running sum

A sample walks up the probabilities and stops at the first index at which their running sum
exceeds the draw. If rounding keeps the whole sum from it, the sample falls back on the last
index that is possible at all. `Selects` says which index that is, without a walk; the loop
invariant is that no sum so far exceeds the draw, and that the fallback is the last possible
index so far.

A sum that exceeds the draw for the first time was raised by a positive probability, so that
an impossible index is never sampled (`Selects.possible`). Of the arithmetic this takes only
that adding nothing positive to a sum does not lift it over the draw.
-/

namespace CircuitGrid

variable {ρ : Type} [Scalar ρ] {m : Nat}

/-! ## What a draw selects -/

/-- The first `k` weights, added from left to right. -/
def runningSum (p : Fin m → ρ) (k : Nat) : ρ :=
  ((List.finRange m).take k).foldl (fun sum i => Scalar.add sum (p i)) Scalar.zero

theorem runningSum_zero (p : Fin m → ρ) : runningSum p 0 = Scalar.zero :=
  rfl

theorem runningSum_succ (p : Fin m → ρ) {k : Nat} (hk : k < m) :
    runningSum p (k + 1) = Scalar.add (runningSum p k) (p ⟨k, hk⟩) := by
  have hlength : k < (List.finRange m).length := by rwa [List.length_finRange]
  have hget : (List.finRange m)[k] = ⟨k, hk⟩ := by simp
  unfold runningSum
  rw [← List.take_concat_get' _ k hlength, hget, List.foldl_append]
  rfl

/-- The last index below `k` with a positive weight, and 0 if there is none. -/
inductive LastPossible (p : Fin m → ρ) (k : Nat) : Nat → Prop
  | found {i : Fin m} : i.val < k → Scalar.less Scalar.zero (p i) = true →
      (∀ j : Fin m, i < j → j.val < k → Scalar.less Scalar.zero (p j) = false) →
      LastPossible p k i
  | none : (∀ j : Fin m, j.val < k → Scalar.less Scalar.zero (p j) = false) → LastPossible p k 0

/-- The index that a draw selects: the first one whose running sum exceeds the draw, and the
last possible one if no sum does. -/
inductive Selects (p : Fin m → ρ) (r : ρ) : Nat → Prop
  | reached {i : Fin m} : Scalar.less r (runningSum p (i + 1)) = true →
      (∀ j < i, Scalar.less r (runningSum p (j + 1)) = false) → Selects p r i
  | fallback {last : Nat} : (∀ j : Fin m, Scalar.less r (runningSum p (j + 1)) = false) →
      LastPossible p m last → Selects p r last

/-! ## The walk -/

theorem LastPossible.step {p : Fin m → ρ} {k last : Nat} (h : LastPossible p k last)
    (hk : k < m) :
    LastPossible p (k + 1)
      (if Scalar.less Scalar.zero (p ⟨k, hk⟩) then k else last) := by
  have hbelow : ∀ j : Fin m, j.val < k + 1 → j.val < k ∨ j = ⟨k, hk⟩ := by
    intro j hj
    rw [Fin.ext_iff]
    exact Nat.lt_succ_iff_lt_or_eq.mp hj
  split
  · next hpositive =>
    refine .found (i := ⟨k, hk⟩) (Nat.lt_succ_self k) hpositive fun j hlt hj => ?_
    exact absurd hlt (Nat.not_lt.mpr (Nat.le_of_lt_succ hj))
  · next hzero =>
    have hzero := Bool.eq_false_iff.mpr hzero
    cases h with
    | found hi hpositive hrest =>
      refine .found (Nat.lt_succ_of_lt hi) hpositive fun j hlt hj => ?_
      rcases hbelow j hj with hj | rfl
      · exact hrest j hlt hj
      · exact hzero
    | none hrest =>
      refine .none fun j hj => ?_
      rcases hbelow j hj with hj | rfl
      · exact hrest j hj
      · exact hzero

theorem selects_drawFrom (probabilities : Vector ρ m) (r : ρ) (k : Nat) (sum : ρ) (last : Nat)
    (hk : k ≤ m) (hsum : sum = runningSum probabilities.get k)
    (hreached : ∀ j < k, Scalar.less r (runningSum probabilities.get (j + 1)) = false)
    (hlast : LastPossible probabilities.get k last) :
    Selects probabilities.get r (drawFrom probabilities r k sum last) := by
  fun_induction drawFrom probabilities r k sum last with
  | case1 k sum last hlt p sum' hexceeds =>
    have hsum' : sum' = runningSum probabilities.get (k + 1) := by
      rw [runningSum_succ _ hlt, ← hsum]
      rfl
    rw [hsum'] at hexceeds
    exact .reached (i := ⟨k, hlt⟩) hexceeds fun j hj => hreached j hj
  | case2 k sum last hlt p last' sum' hexceeds ih =>
    have hsum' : sum' = runningSum probabilities.get (k + 1) := by
      rw [runningSum_succ _ hlt, ← hsum]
      rfl
    refine ih hlt hsum' (fun j hj => ?_) (hlast.step hlt)
    rcases Nat.lt_succ_iff_lt_or_eq.mp hj with hj | rfl
    · exact hreached j hj
    · rw [← hsum']
      exact Bool.eq_false_iff.mpr hexceeds
  | case3 k sum last hge =>
    obtain rfl : k = m := Nat.le_antisymm hk (Nat.le_of_not_lt hge)
    exact .fallback (fun j => hreached j j.isLt) hlast

theorem selects_drawOutcome (probabilities : Vector ρ m) (r : ρ) :
    Selects probabilities.get r (drawOutcome probabilities r) :=
  selects_drawFrom probabilities r 0 Scalar.zero 0 (Nat.zero_le m) (runningSum_zero _).symm
    (fun _ hj => absurd hj (Nat.not_lt_zero _)) (.none fun _ hj => absurd hj (Nat.not_lt_zero _))

/-! ## Possible outcomes -/

/-- If something is possible, what is selected is. -/
theorem Selects.possible {p : Fin m → ρ} {r : ρ} {selected : Nat} (h : Selects p r selected)
    (hdraw : Scalar.less r Scalar.zero = false)
    (hadd : ∀ sum q, Scalar.less Scalar.zero q = false →
      Scalar.less r (Scalar.add sum q) = true → Scalar.less r sum = true)
    (hpossible : ∃ i, Scalar.less Scalar.zero (p i) = true) :
    ∃ i : Fin m, i.val = selected ∧ Scalar.less Scalar.zero (p i) = true := by
  cases h with
  | @reached i hexceeds hfirst =>
    refine ⟨i, rfl, ?_⟩
    cases hpositive : Scalar.less Scalar.zero (p i) with
    | true => rfl
    | false =>
      -- the sum before `i` would exceed the draw already, but it is empty or that of an index
      rw [runningSum_succ p i.isLt] at hexceeds
      have hbefore := hadd _ _ hpositive hexceeds
      obtain ⟨i, hi⟩ := i
      cases i with
      | zero =>
        rw [runningSum_zero, hdraw] at hbefore
        cases hbefore
      | succ k =>
        have hk := hfirst ⟨k, Nat.lt_of_succ_lt hi⟩ (Nat.lt_succ_self k)
        rw [hk] at hbefore
        cases hbefore
  | fallback _ hlast =>
    cases hlast with
    | found _ hpositive _ => exact ⟨_, rfl, hpositive⟩
    | none hnone =>
      obtain ⟨i, hi⟩ := hpossible
      rw [hnone i i.isLt] at hi
      cases hi

/-! ## Samples of a state -/

namespace Simulator

variable {G : Type} [Generator G] {n : Nat}

/-- A sample of a prepared state takes one draw, and answers with the index that the draw selects
among the squared magnitudes of the amplitudes: the first one at which their running sum
exceeds the draw, else the last positive one. It is an index of the state. Where something
is possible, what is sampled is, if the draw is not negative and a sum that exceeds it after
adding nothing positive has exceeded it before. -/
theorem sample_selects (state : StateVector (Amplitude ρ) n) (r : ρ) :
    (∀ (sim : Simulator G) (ops : List (Operation ρ)) (draw : UInt64) (generator : G),
      sim.prepare n ops = .ok state → Generator.next sim.generator = (draw, generator) →
        Scalar.ofDraw draw = r →
          sim.sample n ops =
            (.ok (drawOutcome state.probabilities r), { sim with generator })) ∧
    Selects (fun i => (state.get i).normSq) r (drawOutcome state.probabilities r) ∧
    drawOutcome state.probabilities r < 2 ^ n ∧
    (Scalar.less r Scalar.zero = false →
      (∀ sum q, Scalar.less Scalar.zero q = false →
        Scalar.less r (Scalar.add sum q) = true → Scalar.less r sum = true) →
      (∃ i, Scalar.less Scalar.zero (state.get i).normSq = true) →
        ∃ i : Fin (basisSize n), i.val = drawOutcome state.probabilities r ∧
          Scalar.less Scalar.zero (state.get i).normSq = true) := by
  have hselects : Selects (fun i => (state.get i).normSq) r
      (drawOutcome state.probabilities r) := by
    have hget : state.probabilities.get = fun i => (state.get i).normSq :=
      funext state.get_probabilities
    rw [← hget]
    exact selects_drawOutcome state.probabilities r
  refine ⟨?_, hselects, ?_, hselects.possible⟩
  · rintro sim ops draw generator hprepare hnext rfl
    rw [sample_eq_of_prepare hprepare, hnext]
  · exact lt_basisSize_iff.mp (drawOutcome_lt _ r (basisSize_pos n))

/-- In exact numbers, a half drawn from a state whose only wire is set selects index 1. -/
theorem sample_selects_set_wire :
    let state : StateVector (Amplitude ℝ) 1 := #v[0, 1]
    Scalar.less (1 / 2 : ℝ) Scalar.zero = false ∧
      (∀ sum q : ℝ, Scalar.less Scalar.zero q = false →
        Scalar.less (1 / 2) (Scalar.add sum q) = true → Scalar.less (1 / 2) sum = true) ∧
      (∃ i, Scalar.less Scalar.zero (state.get i).normSq = true) ∧
      drawOutcome state.probabilities (1 / 2) = 1 := by
  intro state
  have hless : ∀ x y : ℝ, Scalar.less x y = true ↔ x < y := fun x y => decide_eq_true_iff
  have hdraw : Scalar.less (1 / 2 : ℝ) Scalar.zero = false := by
    rw [Bool.eq_false_iff, Ne, hless]
    show ¬ (1 / 2 : ℝ) < 0
    norm_num
  have hadd : ∀ sum q : ℝ, Scalar.less Scalar.zero q = false →
      Scalar.less (1 / 2) (Scalar.add sum q) = true → Scalar.less (1 / 2) sum = true := by
    intro sum q hq hsum
    rw [Bool.eq_false_iff, Ne, hless] at hq
    rw [hless] at hsum ⊢
    have hq : q ≤ 0 := not_lt.mp hq
    have hsum : 1 / 2 < sum + q := hsum
    linarith
  have hset : Scalar.less Scalar.zero (state.get ⟨1, by decide⟩).normSq = true := by
    rw [hless]
    show (0 : ℝ) < (1 : Amplitude ℝ).normSq
    simp
  obtain ⟨⟨i, hlt⟩, hi, hpossible⟩ :=
    (sample_selects (G := SeededDraws) state (1 / 2)).2.2.2 hdraw hadd ⟨_, hset⟩
  refine ⟨hdraw, hadd, ⟨_, hset⟩, hi.symm.trans ?_⟩
  have hcases : i = 0 ∨ i = 1 := by
    have hlt : i < 2 := hlt
    omega
  rcases hcases with rfl | rfl
  · -- index 0 is impossible
    rw [hless] at hpossible
    have hzero : (0 : ℝ) < (0 : Amplitude ℝ).normSq := hpossible
    simp at hzero
  · rfl

end Simulator

end CircuitGrid
