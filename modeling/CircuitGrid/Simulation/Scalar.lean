/-!
# Scalars and amplitudes

A simulation computes with amplitudes, pairs of real scalars. `Scalar` lists
what it asks of the scalars, so that the same definitions run on floating-point
numbers and can be read over exact ones.
-/

namespace CircuitGrid

/-- The operations of a simulation on real numbers. -/
class Scalar (ρ : Type) where
  zero : ρ
  one : ρ
  /-- One over the square root of two. -/
  invSqrtTwo : ρ
  halfPi : ρ
  quarterPi : ρ
  add : ρ → ρ → ρ
  sub : ρ → ρ → ρ
  mul : ρ → ρ → ρ
  neg : ρ → ρ
  half : ρ → ρ
  cos : ρ → ρ
  sin : ρ → ρ
  less : ρ → ρ → Bool
  atLeast : ρ → ρ → Bool
  /-- A number in `[0, 1)` made of the upper 53 bits of a draw. -/
  ofDraw : UInt64 → ρ

/-! ## Floating-point scalars

The constants have names of their own, so that no loop reads a literal anew.
-/

namespace FloatScalar

/-- Zero. -/
def zero : Float := 0.0

/-- One. -/
def one : Float := 1.0

/-- The number nearest to one over the square root of two. -/
def invSqrtTwo : Float := 0.7071067811865476

/-- The number nearest to half of pi. -/
def halfPi : Float := 1.5707963267948966

/-- The number nearest to a quarter of pi. -/
def quarterPi : Float := 0.7853981633974483

end FloatScalar

@[always_inline]
instance : Scalar Float where
  zero := FloatScalar.zero
  one := FloatScalar.one
  invSqrtTwo := FloatScalar.invSqrtTwo
  halfPi := FloatScalar.halfPi
  quarterPi := FloatScalar.quarterPi
  add := Float.add
  sub := Float.sub
  mul := Float.mul
  neg := Float.neg
  half := fun x => x / 2.0
  cos := Float.cos
  sin := Float.sin
  less := fun x y => x < y
  atLeast := fun x y => y ≤ x
  ofDraw := fun draw => (draw >>> 11).toFloat / 9007199254740992.0

/-! ## Amplitudes -/

/-- A complex amplitude. -/
structure Amplitude (ρ : Type) where
  re : ρ
  im : ρ
  deriving DecidableEq, Repr

namespace Amplitude

variable {ρ : Type} [Scalar ρ]

@[always_inline]
instance : Zero (Amplitude ρ) := ⟨⟨Scalar.zero, Scalar.zero⟩⟩

@[always_inline]
instance : One (Amplitude ρ) := ⟨⟨Scalar.one, Scalar.zero⟩⟩

@[always_inline]
instance : Add (Amplitude ρ) where
  add a b := ⟨Scalar.add a.re b.re, Scalar.add a.im b.im⟩

@[always_inline]
instance : Mul (Amplitude ρ) where
  mul a b :=
    ⟨Scalar.sub (Scalar.mul a.re b.re) (Scalar.mul a.im b.im),
      Scalar.add (Scalar.mul a.re b.im) (Scalar.mul a.im b.re)⟩

@[always_inline]
instance : Neg (Amplitude ρ) where
  neg a := ⟨Scalar.neg a.re, Scalar.neg a.im⟩

/-- The imaginary unit. -/
def i : Amplitude ρ := ⟨Scalar.zero, Scalar.one⟩

/-- The amplitude of magnitude one with the given phase. -/
def ofPhase (phase : ρ) : Amplitude ρ := ⟨Scalar.cos phase, Scalar.sin phase⟩

/-- The square of the magnitude. -/
@[inline]
def normSq (a : Amplitude ρ) : ρ :=
  Scalar.add (Scalar.mul a.re a.re) (Scalar.mul a.im a.im)

end Amplitude

end CircuitGrid
