import CircuitGrid.Angle
import Mathlib.Algebra.Order.Archimedean.Basic
import Mathlib.Algebra.Order.ToIntervalMod
import Mathlib.Tactic.Linarith

/-!
# Angles in exact arithmetic

`Angle.normalize` read without rounding, for rational or real angles. A full turn may be any
number above twice the tolerance. The remainder is truncated, with the sign of the angle, and a
negative one is lifted by a turn, as for floating-point angles; here that comes to the
representative in `[0, turn)` (`wrapTurn_eq_toIcoMod`), and what is said of a normal angle
follows by comparing it to both ends of the turn.
-/

namespace CircuitGrid

/-- A full turn, and a tolerance so small that no angle is close to both of its ends. -/
class FullTurn (K : Type) [Field K] [LinearOrder K] where
  turn : K
  tolerance : K
  tolerance_pos : 0 < tolerance
  two_tolerance_lt : 2 * tolerance < turn

namespace ExactAngle

variable {K : Type} [Field K] [LinearOrder K] [IsStrictOrderedRing K] [FloorRing K] [FullTurn K]

open FullTurn

/-- What is left of `x` after whole turns are taken out, with the sign of `x`. -/
def turnRemainder (x : K) : K :=
  if x < 0 then x - ⌈x / turn⌉ * turn else x - ⌊x / turn⌋ * turn

/-- What is left of `x` after whole turns are taken out, made non-negative by
adding one turn to a negative remainder. -/
def wrapTurn (x : K) : K :=
  let rest := turnRemainder x
  if rest < 0 then rest + turn else rest

instance (priority := low) : Angle K where
  zero := 0
  turn := turn
  tolerance := tolerance
  add := (· + ·)
  sub := (· - ·)
  neg := (- ·)
  wrap := wrapTurn
  less x y := decide (x < y)
  isZero x := decide (x = 0)

theorem turn_pos : 0 < (turn : K) := by
  have hpos := tolerance_pos (K := K)
  have hlt := two_tolerance_lt (K := K)
  linarith

/-! ## Wrapping -/

theorem turnRemainder_mem (x : K) : turnRemainder x ∈ Set.Ioo (-turn) (turn : K) := by
  have hturn := turn_pos (K := K)
  unfold turnRemainder
  split
  · have hle : x ≤ ⌈x / turn⌉ * turn := (div_le_iff₀ hturn).mp (Int.le_ceil _)
    have hlt : (⌈x / turn⌉ - 1) * turn < x :=
      (lt_div_iff₀ hturn).mp (sub_lt_iff_lt_add.mpr (Int.ceil_lt_add_one _))
    constructor <;> linarith
  · have hle : ⌊x / turn⌋ * turn ≤ x := (le_div_iff₀ hturn).mp (Int.floor_le _)
    have hlt : x < (⌊x / turn⌋ + 1) * turn :=
      (div_lt_iff₀ hturn).mp (Int.lt_floor_add_one _)
    constructor <;> linarith

omit [IsStrictOrderedRing K] in
theorem exists_eq_turnRemainder (x : K) : ∃ n : ℤ, x = turnRemainder x + n * turn := by
  unfold turnRemainder
  split
  · exact ⟨_, (sub_add_cancel _ _).symm⟩
  · exact ⟨_, (sub_add_cancel _ _).symm⟩

/-- The wrapped angle is the one in `[0, turn)` that differs by whole turns. -/
theorem wrapTurn_eq_toIcoMod (x : K) : wrapTurn x = toIcoMod turn_pos 0 x := by
  obtain ⟨hlow, hhigh⟩ := turnRemainder_mem x
  obtain ⟨n, hn⟩ := exists_eq_turnRemainder x
  symm
  rw [toIcoMod_eq_iff, zero_add]
  unfold wrapTurn
  dsimp only
  split
  · next hneg =>
    refine ⟨⟨by linarith, by linarith⟩, n - 1, ?_⟩
    rw [zsmul_eq_mul]
    push_cast
    linarith
  · next hpos => exact ⟨⟨not_lt.mp hpos, hhigh⟩, n, by rw [zsmul_eq_mul, ← hn]⟩

theorem wrapTurn_mem (x : K) : wrapTurn x ∈ Set.Ico 0 (turn : K) := by
  rw [wrapTurn_eq_toIcoMod]
  exact toIcoMod_mem_Ico' turn_pos x

theorem wrapTurn_of_mem {x : K} (h : x ∈ Set.Ico 0 (turn : K)) : wrapTurn x = x := by
  rw [wrapTurn_eq_toIcoMod, toIcoMod_eq_self, zero_add]
  exact h

theorem wrapTurn_add_mul (x : K) (n : ℤ) : wrapTurn (x + n * turn) = wrapTurn x := by
  rw [wrapTurn_eq_toIcoMod, wrapTurn_eq_toIcoMod, ← zsmul_eq_mul, toIcoMod_add_zsmul]

theorem exists_eq_wrapTurn (x : K) : ∃ n : ℤ, x = wrapTurn x + n * turn := by
  refine ⟨toIcoDiv turn_pos 0 x, ?_⟩
  rw [wrapTurn_eq_toIcoMod, ← zsmul_eq_mul, toIcoMod_add_toIcoDiv_zsmul]

/-! ## Normal angles -/

/-- No rotation, or one that is not close to a whole number of turns. -/
def Normal (x : K) : Prop := x = 0 ∨ tolerance ≤ x ∧ x ≤ turn - tolerance

omit [IsStrictOrderedRing K] in
theorem normalize_eq (x : K) : Angle.normalize x =
    if wrapTurn x < tolerance ∨ turn - wrapTurn x < tolerance then 0 else wrapTurn x := by
  show (if (decide (wrapTurn x < tolerance) || decide (turn - wrapTurn x < tolerance)) = true
    then (0 : K) else wrapTurn x) = _
  simp only [Bool.or_eq_true, decide_eq_true_eq]

theorem normal_normalize (x : K) : Normal (Angle.normalize x) := by
  rw [normalize_eq]
  split
  · exact Or.inl rfl
  · next hfar =>
    rw [not_or, not_lt, not_lt] at hfar
    exact Or.inr ⟨hfar.1, le_sub_comm.mp hfar.2⟩

theorem Normal.mem_Ico {x : K} (h : Normal x) : x ∈ Set.Ico 0 (turn : K) := by
  have htolerance := tolerance_pos (K := K)
  rcases h with rfl | ⟨hlow, hhigh⟩
  · exact ⟨le_refl 0, turn_pos⟩
  · exact ⟨by linarith, by linarith⟩

theorem normalize_of_normal {x : K} (h : Normal x) : Angle.normalize x = x := by
  rw [normalize_eq, wrapTurn_of_mem h.mem_Ico]
  rcases h with rfl | ⟨hlow, hhigh⟩
  · rw [if_pos (Or.inl tolerance_pos)]
  · rw [if_neg (not_or.mpr ⟨not_lt.mpr hlow, not_lt.mpr (le_sub_comm.mp hhigh)⟩)]

theorem normalize_add_mul (x : K) (n : ℤ) :
    Angle.normalize (x + n * turn) = Angle.normalize x := by
  rw [normalize_eq, normalize_eq, wrapTurn_add_mul]

theorem normalize_turn : Angle.normalize (turn : K) = 0 := by
  have hturns := normalize_add_mul (0 : K) 1
  rw [Int.cast_one, one_mul, zero_add] at hturns
  rw [hturns]
  exact normalize_of_normal (Or.inl rfl)

/-- A normalized angle is the angle it was made from, up to whole turns and the tolerance. -/
theorem exists_abs_sub_normalize_lt (x : K) :
    ∃ n : ℤ, |x - n * turn - Angle.normalize x| < tolerance := by
  obtain ⟨n, hn⟩ := exists_eq_wrapTurn x
  obtain ⟨hlow, hhigh⟩ := wrapTurn_mem x
  rw [normalize_eq]
  split
  · next hclose =>
    -- what is dropped is what is left above a whole number of turns, or missing to the next
    rcases hclose with hlt | hlt
    · refine ⟨n, ?_⟩
      rw [abs_lt]
      constructor <;> linarith
    · refine ⟨n + 1, ?_⟩
      rw [abs_lt]
      push_cast
      constructor <;> linarith
  · refine ⟨n, ?_⟩
    have hzero : x - n * turn - wrapTurn x = 0 := by linarith
    rw [hzero, abs_zero]
    exact tolerance_pos

end ExactAngle

end CircuitGrid
