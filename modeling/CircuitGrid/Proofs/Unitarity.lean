import CircuitGrid.Proofs.Pairing
import Mathlib.Analysis.SpecialFunctions.Trigonometric.Basic

/-!
# Exact amplitudes

Over the real numbers an amplitude is a complex number. Nothing is rounded then, and the
matrix of every gate is unitary: its columns have length one and are orthogonal
(`Primitive.matrix_unitary`). Such a matrix changes two entries, but not the sum of their
squared magnitudes (`Matrix.Unitary.normSq_rows`).
-/

namespace CircuitGrid

/-! ## Real scalars -/

open Classical in
noncomputable instance : Scalar ℝ where
  zero := 0
  one := 1
  invSqrtTwo := 1 / √2
  halfPi := Real.pi / 2
  quarterPi := Real.pi / 4
  add x y := x + y
  sub x y := x - y
  mul x y := x * y
  neg x := -x
  half x := x / 2
  cos := Real.cos
  sin := Real.sin
  less x y := decide (x < y)
  atLeast x y := decide (y ≤ x)
  ofDraw draw := (draw >>> 11).toNat / 9007199254740992

namespace Amplitude

variable (a b : Amplitude ℝ)

@[simp] theorem re_zero : (0 : Amplitude ℝ).re = 0 := rfl
@[simp] theorem im_zero : (0 : Amplitude ℝ).im = 0 := rfl
@[simp] theorem re_one : (1 : Amplitude ℝ).re = 1 := rfl
@[simp] theorem im_one : (1 : Amplitude ℝ).im = 0 := rfl
@[simp] theorem re_i : (i : Amplitude ℝ).re = 0 := rfl
@[simp] theorem im_i : (i : Amplitude ℝ).im = 1 := rfl
@[simp] theorem re_add : (a + b).re = a.re + b.re := rfl
@[simp] theorem im_add : (a + b).im = a.im + b.im := rfl
@[simp] theorem re_neg : (-a).re = -a.re := rfl
@[simp] theorem im_neg : (-a).im = -a.im := rfl
@[simp] theorem re_mul : (a * b).re = a.re * b.re - a.im * b.im := rfl
@[simp] theorem im_mul : (a * b).im = a.re * b.im + a.im * b.re := rfl

theorem normSq_eq : a.normSq = a.re * a.re + a.im * a.im := rfl

theorem normSq_nonneg : 0 ≤ a.normSq :=
  add_nonneg (mul_self_nonneg a.re) (mul_self_nonneg a.im)

@[simp] theorem normSq_zero : (0 : Amplitude ℝ).normSq = 0 := by
  simp [normSq_eq]

@[simp] theorem normSq_one : (1 : Amplitude ℝ).normSq = 1 := by
  simp [normSq_eq]

@[simp] theorem normSq_ofPhase (phase : ℝ) : (ofPhase phase).normSq = 1 := by
  have h := Real.cos_sq_add_sin_sq phase
  rw [sq, sq] at h
  exact h

@[simp] theorem normSq_i : (i : Amplitude ℝ).normSq = 1 := by
  simp [normSq_eq]

@[simp] theorem normSq_neg : (-a).normSq = a.normSq := by
  simp [normSq_eq]

variable {a b} in
theorem eq_of_parts (hre : a.re = b.re) (him : a.im = b.im) : a = b := by
  cases a
  cases b
  cases hre
  cases him
  rfl

/-- The conjugate of an amplitude. -/
def conj : Amplitude ℝ := ⟨a.re, -a.im⟩

@[simp] theorem re_conj : a.conj.re = a.re := rfl
@[simp] theorem im_conj : a.conj.im = -a.im := rfl

@[simp] theorem normSq_conj : a.conj.normSq = a.normSq := by
  simp [normSq_eq]

end Amplitude

/-! ## Unitary matrices -/

/-- The columns of a matrix have length one and are orthogonal. -/
structure Matrix.Unitary (matrix : Matrix (Amplitude ℝ)) : Prop where
  first : matrix.m00.normSq + matrix.m10.normSq = 1
  second : matrix.m01.normSq + matrix.m11.normSq = 1
  orthogonal : matrix.m00.conj * matrix.m01 + matrix.m10.conj * matrix.m11 = 0

/-- A unitary matrix keeps the sum of the squared magnitudes of two entries. -/
theorem Matrix.Unitary.normSq_rows {matrix : Matrix (Amplitude ℝ)} (h : matrix.Unitary)
    (a b : Amplitude ℝ) :
    (matrix.firstRow a b).normSq + (matrix.secondRow a b).normSq = a.normSq + b.normSq := by
  have hfirst := h.first
  have hsecond := h.second
  have hre := congrArg Amplitude.re h.orthogonal
  have him := congrArg Amplitude.im h.orthogonal
  simp only [Amplitude.normSq_eq, Amplitude.re_add, Amplitude.im_add, Amplitude.re_mul,
    Amplitude.im_mul, Amplitude.re_conj, Amplitude.im_conj, Amplitude.re_zero,
    Amplitude.im_zero, Matrix.firstRow, Matrix.secondRow] at hfirst hsecond hre him ⊢
  -- the mixed terms of the two rows are those of the product of the columns
  linear_combination (a.re * a.re + a.im * a.im) * hfirst + (b.re * b.re + b.im * b.im) * hsecond +
    2 * (a.re * b.re + a.im * b.im) * hre - 2 * (a.re * b.im - a.im * b.re) * him

namespace Matrix

variable {a b : Amplitude ℝ}

theorem unitary_of_diagonal (ha : a.normSq = 1) (hb : b.normSq = 1) : Unitary ⟨a, 0, 0, b⟩ where
  first := by simp [ha]
  second := by simp [hb]
  orthogonal := Amplitude.eq_of_parts (by simp) (by simp)

theorem unitary_of_antidiagonal (ha : a.normSq = 1) (hb : b.normSq = 1) :
    Unitary ⟨0, a, b, 0⟩ where
  first := by simp [hb]
  second := by simp [ha]
  orthogonal := Amplitude.eq_of_parts (by simp) (by simp)

/-- A matrix of determinant one. -/
theorem unitary_of_rotation (h : a.normSq + b.normSq = 1) :
    Unitary ⟨a, -b.conj, b, a.conj⟩ where
  first := h
  second := by rw [Amplitude.normSq_neg, Amplitude.normSq_conj, Amplitude.normSq_conj,
    add_comm, h]
  orthogonal := Amplitude.eq_of_parts (by simp; ring) (by simp; ring)

/-- A matrix of determinant minus one. -/
theorem unitary_of_reflection (h : a.normSq + b.normSq = 1) :
    Unitary ⟨a, b.conj, b, -a.conj⟩ where
  first := h
  second := by rw [Amplitude.normSq_neg, Amplitude.normSq_conj, Amplitude.normSq_conj,
    add_comm, h]
  orthogonal := Amplitude.eq_of_parts (by simp; ring) (by simp; ring)

end Matrix

/-! ## The gates -/

namespace Primitive

theorem matrix_h_unitary : (Primitive.h : Primitive ℝ).matrix.Unitary := by
  let h : Amplitude ℝ := ⟨1 / √2, 0⟩
  have hconj : h.conj = h := Amplitude.eq_of_parts rfl neg_zero
  have hlength : h.normSq + h.normSq = 1 := by
    have hsq : 1 / √2 * (1 / √2) = (1 / 2 : ℝ) := by
      rw [div_mul_div_comm, one_mul, Real.mul_self_sqrt (by norm_num)]
    rw [Amplitude.normSq_eq, hsq]
    norm_num [h]
  have hunitary := Matrix.unitary_of_reflection hlength
  rw [hconj] at hunitary
  exact hunitary

theorem matrix_rx_unitary (angle : ℝ) : (Primitive.rx angle).matrix.Unitary := by
  let c : Amplitude ℝ := ⟨Real.cos (angle / 2), 0⟩
  let s : Amplitude ℝ := ⟨0, -Real.sin (angle / 2)⟩
  have hc : c.conj = c := Amplitude.eq_of_parts rfl neg_zero
  have hs : -s.conj = s := Amplitude.eq_of_parts neg_zero (neg_neg _)
  have hlength : c.normSq + s.normSq = 1 := by
    rw [Amplitude.normSq_eq, Amplitude.normSq_eq, ← Real.cos_sq_add_sin_sq (angle / 2)]
    ring
  have hunitary := Matrix.unitary_of_rotation hlength
  rw [hc, hs] at hunitary
  exact hunitary

theorem matrix_ry_unitary (angle : ℝ) : (Primitive.ry angle).matrix.Unitary := by
  let c : Amplitude ℝ := ⟨Real.cos (angle / 2), 0⟩
  let s : Amplitude ℝ := ⟨Real.sin (angle / 2), 0⟩
  have hc : c.conj = c := Amplitude.eq_of_parts rfl neg_zero
  have hs : s.conj = s := Amplitude.eq_of_parts rfl neg_zero
  have hlength : c.normSq + s.normSq = 1 := by
    rw [Amplitude.normSq_eq, Amplitude.normSq_eq, ← Real.cos_sq_add_sin_sq (angle / 2)]
    ring
  have hunitary := Matrix.unitary_of_rotation hlength
  rw [hc, hs] at hunitary
  exact hunitary

/-- The matrix of every gate is unitary, whatever its angle. -/
theorem matrix_unitary (gate : Primitive ℝ) : gate.matrix.Unitary := by
  cases gate with
  | id | swap | cswap =>
    exact Matrix.unitary_of_diagonal Amplitude.normSq_one Amplitude.normSq_one
  | x | cx | ccx =>
    exact Matrix.unitary_of_antidiagonal Amplitude.normSq_one Amplitude.normSq_one
  | y | cy =>
    exact Matrix.unitary_of_antidiagonal
      ((Amplitude.normSq_neg _).trans Amplitude.normSq_i) Amplitude.normSq_i
  | z | cz =>
    exact Matrix.unitary_of_diagonal Amplitude.normSq_one
      ((Amplitude.normSq_neg _).trans Amplitude.normSq_one)
  | s | sdg | t | tdg =>
    exact Matrix.unitary_of_diagonal Amplitude.normSq_one (Amplitude.normSq_ofPhase _)
  | rz angle | crz angle =>
    exact Matrix.unitary_of_diagonal (Amplitude.normSq_ofPhase _) (Amplitude.normSq_ofPhase _)
  | h | ch => exact matrix_h_unitary
  | rx angle => exact matrix_rx_unitary angle
  | ry angle => exact matrix_ry_unitary angle

end Primitive

end CircuitGrid
