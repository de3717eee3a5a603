import Mathlib
import CircuitGrid.Json.Number

/-!
# Numbers that are read are finite

A number in JSON is a word of digits scaled by a power of ten. A product that leaves
the range of finite numbers is refused. A quotient is not even tested, and needs no
test: the divisor is at least two, so that the quotient of a finite number is less
than half of the first number out of range, which leaves room for its rounding
(`isFinite_div`).

The proofs read the exponents of the unpacked numbers: what a number of 53 bits and an
exponent rounds to has an exponent one higher at most.
-/

namespace CircuitGrid

namespace Binary64

open Float.Model Float.Model.UnpackedFloat

/-! ## Rounding -/

theorem targetExponent_eq (total : Int) :
    Format.binary64.targetExponent total = max (total - 53) (-1074) := by
  simp only [Format.targetExponent]
  rfl

theorem mantissa_shiftRight (em : ExtendedMantissa) (k : Nat) :
    (em >>> k).mantissa = em.mantissa / 2 ^ k := by
  induction k with
  | zero => exact (Nat.div_one _).symm
  | succ k ih =>
    show (ExtendedMantissa.shiftRightOne (em >>> k)).mantissa = _
    simp only [ExtendedMantissa.shiftRightOne, ih, Nat.div_div_eq_div_mul, Nat.pow_succ]

theorem mantissa_ofMantissaAndAccuracy (m : Nat) (accuracy : Accuracy) :
    (ExtendedMantissa.ofMantissaAndAccuracy m accuracy).mantissa = m := by
  cases accuracy with
  | exact => rfl
  | inexact relation => cases relation <;> rfl

theorem roundToNearestEven_bounds (m : Nat) (accuracy : Accuracy) :
    m ≤ accuracy.roundToNearestEven m ∧ accuracy.roundToNearestEven m ≤ m + 1 := by
  cases accuracy with
  | exact => exact ⟨Nat.le_refl m, Nat.le_succ m⟩
  | inexact relation =>
    cases relation <;> simp only [Accuracy.roundToNearestEven] <;> omega

theorem roundedMantissa_bounds (em : ExtendedMantissa) :
    em.mantissa ≤ em.roundedMantissa ∧ em.roundedMantissa ≤ em.mantissa + 1 :=
  roundToNearestEven_bounds em.mantissa em.accuracy

/-- How far a mantissa is shifted so that at most 53 bits of it are left. -/
def shiftAmount (m : Nat) (e : Int) : Nat :=
  (Format.binary64.targetExponent (totalExponent m e) - e).toNat

theorem shiftAmount_eq (m : Nat) (e : Int) :
    shiftAmount m e = (max (m.log2 + 1 + e - 53) (-1074) - e).toNat := by
  rw [shiftAmount, targetExponent_eq, totalExponent]

theorem shifted_lt (m : Nat) (e : Int) : m / 2 ^ shiftAmount m e < 2 ^ 53 := by
  have hk : m.log2 + 1 ≤ 53 + shiftAmount m e := by
    rw [shiftAmount_eq]
    omega
  rw [Nat.div_lt_iff_lt_mul (Nat.two_pow_pos _), ← Nat.pow_add]
  exact Nat.lt_of_lt_of_le Nat.lt_log2_self (Nat.pow_le_pow_right (by decide) hk)

/-- Rounding shifts a mantissa, adds one to it or nothing, and shifts it again. -/
theorem exists_roundWithAccuracy (s : Sign) (m : Nat) (e : Int) (accuracy : Accuracy) :
    ∃ rounded, m / 2 ^ shiftAmount m e ≤ rounded ∧ rounded ≤ m / 2 ^ shiftAmount m e + 1 ∧
      let e' := e + shiftAmount m e
      let final := rounded / 2 ^ shiftAmount rounded e'
      roundWithAccuracy Format.binary64 s m e accuracy =
        if h : final = 0 then .zero s
        else .finite s final (e' + shiftAmount rounded e') (Nat.pos_of_ne_zero h) := by
  have hbounds := roundedMantissa_bounds
    (ExtendedMantissa.ofMantissaAndAccuracy m accuracy >>> shiftAmount m e)
  rw [mantissa_shiftRight, mantissa_ofMantissaAndAccuracy] at hbounds
  refine ⟨_, hbounds.1, hbounds.2, ?_⟩
  simp only [roundWithAccuracy, shiftToTargetExponent, shiftToExponent, mantissa_shiftRight,
    mantissa_ofMantissaAndAccuracy]
  rfl

/-- A zero, or a number of 53 bits at most whose exponent is at most that of the largest
finite number. -/
def InRange : UnpackedFloat → Prop
  | .zero _ => True
  | .finite _ m e _ => m < 2 ^ 53 ∧ e ≤ 971
  | _ => False

/-- What is less than half of the first number out of range is rounded to a number in range. -/
theorem inRange_roundWithAccuracy (s : Sign) {m : Nat} {e : Int} (accuracy : Accuracy)
    (htotal : m.log2 + 1 + e ≤ 1023) (he : e ≤ 970) :
    InRange (roundWithAccuracy Format.binary64 s m e accuracy) := by
  obtain ⟨rounded, -, hle, hround⟩ := exists_roundWithAccuracy s m e accuracy
  simp only at hround
  rw [hround]
  split
  · trivial
  · refine ⟨shifted_lt _ _, ?_⟩
    have hlt := shifted_lt m e
    have hlog : rounded.log2 < 54 := by
      by_cases hzero : rounded = 0
      · simp [hzero]
      · exact (Nat.log2_lt hzero).mpr (by omega)
    rw [shiftAmount_eq, shiftAmount_eq]
    omega

/-! ## Packing -/

/-- Only what is not finite has the largest exponent. -/
theorem isFinite_unpack {bits : BitVec Format.binary64.numBits}
    (h : unpackExponent bits ≠ -1#_) : (unpack Format.binary64 bits).isFinite = true := by
  fun_cases UnpackedFloat.unpack Format.binary64 bits with
  | case1 | case2 => contradiction
  | case3 | case4 | case5 => rfl

theorem exponent_ne_of_isFinite {bits : BitVec Format.binary64.numBits}
    (h : (unpack Format.binary64 bits).isFinite = true) : unpackExponent bits ≠ -1#_ := by
  revert h
  fun_cases UnpackedFloat.unpack Format.binary64 bits with
  | case1 | case2 => nofun
  | case3 _ _ _ _ hmax | case4 _ _ _ _ _ hmax | case5 _ _ _ _ _ hmax => exact fun _ => hmax

/-- A finite number has digits. -/
theorem exists_dyadic {x : Float} (h : x.isFinite = true) : ∃ d, Dyadic.ofFloat? x = some d := by
  have hexponent := exponent_ne_of_isFinite h
  have hbiased : (x.toBits.toNat >>> 52) % 0x800 ≠ 2047 := by
    intro hmax
    refine hexponent (BitVec.eq_of_toNat_eq ?_)
    rw [unpackExponent, BitVec.toNat_cast, BitVec.extractLsb_toNat]
    exact hmax
  simp only [Dyadic.ofFloat?]
  rw [if_neg hbiased]
  split
  · exact ⟨_, rfl⟩
  · exact ⟨_, rfl⟩

/-- A number in range has a finite number stored for it. -/
theorem isFinite_pack {u : UnpackedFloat} (h : InRange u) :
    (Float.ofModel (Float.Model.pack u)).isFinite = true := by
  refine isFinite_unpack ?_
  show unpackExponent (UnpackedFloat.pack Format.binary64 u) ≠ _
  match u, h with
  | .zero s, _ => simp [UnpackedFloat.pack, packedZero]
  | .finite s m e hm, h =>
    have he : e ≤ 971 := h.2
    have hbias : Format.binary64.exponentBias = 1023 := by decide
    simp only [UnpackedFloat.pack, hbias]
    rw [if_neg (by omega)]
    split
    · rw [unpackExponent_packComponents]
      intro hmax
      have hmax := congrArg BitVec.toNat hmax
      simp at hmax
      omega
    · rw [unpackExponent_packComponents]
      decide

theorem inRange_unpack_bits (bits : BitVec Format.binary64.numBits) :
    (unpack Format.binary64 bits).isFinite = true → InRange (unpack Format.binary64 bits) := by
  fun_cases UnpackedFloat.unpack Format.binary64 bits with
  | case1 | case2 => nofun
  | case3 => exact fun _ => trivial
  | case4 mantissa biased e _ _ _ hzero _ =>
    intro _
    have hm : mantissa.toNat < 2 ^ 52 := mantissa.isLt
    have hbiased : biased.toNat = 0 := congrArg BitVec.toNat hzero
    have he : e = (biased.toNat : Int) - 1075 := rfl
    exact ⟨by omega, by omega⟩
  | case5 mantissa biased e _ _ hmax _ =>
    intro _
    have hlt : biased.toNat < 2 ^ 11 := biased.isLt
    have hne : biased.toNat ≠ 2047 := fun h => hmax (BitVec.eq_of_toNat_eq h)
    have he : e = (biased.toNat : Int) - 1075 := rfl
    exact ⟨(1#1 ++ mantissa).isLt, by omega⟩

/-- A finite number is in range. -/
theorem inRange_unpack {x : Float} (h : x.isFinite = true) : InRange x.toModel.unpack :=
  inRange_unpack_bits x.toModel.toBits.toBitVec h

/-! ## Operations -/

theorem log2_lt_of_lt {m k : Nat} (hk : 0 < k) (h : m < 2 ^ k) : m.log2 < k := by
  by_cases hzero : m = 0
  · simpa [hzero] using hk
  · exact (Nat.log2_lt hzero).mpr h

theorem log2_shiftLeft_le (m k : Nat) : (m <<< k).log2 ≤ m.log2 + k := by
  have hlt : m <<< k < 2 ^ (m.log2 + 1 + k) := by
    rw [Nat.shiftLeft_eq, Nat.pow_add]
    exact Nat.mul_lt_mul_of_pos_right Nat.lt_log2_self (Nat.two_pow_pos k)
  have hlog := log2_lt_of_lt (by omega) hlt
  omega

/-- A quotient loses the digits of its divisor but one. -/
theorem log2_div_le (m d k : Nat) : (m <<< k / d).log2 ≤ m.log2 + k - d.log2 := by
  by_cases hzero : m <<< k / d = 0
  · simp [hzero]
  · have hd : d ≠ 0 := by
      rintro rfl
      simp at hzero
    have hm : m <<< k ≠ 0 := by
      intro h
      simp [h] at hzero
    have hmul : 2 ^ ((m <<< k / d).log2 + d.log2) ≤ m <<< k := by
      rw [Nat.pow_add]
      exact Nat.le_trans (Nat.mul_le_mul (Nat.log2_self_le hzero) (Nat.log2_self_le hd))
        (Nat.div_mul_le_self _ _)
    have hlog := (Nat.le_log2 hm).mpr hmul
    have hshifted := log2_shiftLeft_le m k
    omega

theorem isFinite_neg {x : Float} (h : x.isFinite = true) : (-x).isFinite = true := by
  refine isFinite_pack ?_
  have hrange := inRange_unpack h
  cases hx : x.toModel.unpack with
  | zero s => trivial
  | finite s m e hm => rw [hx] at hrange; exact hrange
  | infinity | notANumber => rw [hx] at hrange; exact hrange.elim

theorem inRange_round (s : Sign) {m : Nat} (h : m < 2 ^ 64) :
    InRange (UnpackedFloat.round Format.binary64 s m 0) := by
  unfold UnpackedFloat.round decreaseExponent
  rw [targetExponent_eq, totalExponent]
  have hlog : m.log2 < 64 := log2_lt_of_lt (by decide) h
  have hshifted := log2_shiftLeft_le m (0 - max ((m.log2 : Int) + 1 + 0 - 53) (-1074)).toNat
  exact inRange_roundWithAccuracy s .exact (by omega) (by omega)

/-- The number of a word is finite. -/
theorem isFinite_toFloat (word : UInt64) : word.toFloat.isFinite = true := by
  refine isFinite_pack ?_
  show InRange (UnpackedFloat.normalize Format.binary64 word.toNat 0 .positive)
  unfold UnpackedFloat.normalize
  have hlt := word.toNat_lt
  split
  next h => rw [Int.compare_eq_lt] at h; omega
  · trivial
  · exact inRange_round _ hlt

/-- A divisor by which every finite number can be divided: at least two, or out of range. -/
def AtLeastTwo : UnpackedFloat → Prop
  | .infinity _ => True
  | .finite _ m e _ => 1 ≤ m.log2 + e
  | _ => False

theorem isFinite_div {x y : Float} (hx : x.isFinite = true) (hy : AtLeastTwo y.toModel.unpack) :
    (x / y).isFinite = true := by
  refine isFinite_pack ?_
  have hrange := inRange_unpack hx
  show InRange (UnpackedFloat.div Format.binary64 x.toModel.unpack y.toModel.unpack)
  generalize x.toModel.unpack = u at hrange
  generalize y.toModel.unpack = v at hy
  match u, v, hrange, hy with
  | .zero _, .infinity _, _, _ => trivial
  | .zero _, .finite .., _, _ => trivial
  | .finite .., .infinity _, _, _ => trivial
  | .finite s₁ m₁ e₁ _, .finite s₂ m₂ e₂ _, hrange, hy =>
    obtain ⟨hm₁, he₁⟩ := hrange
    replace hy : 1 ≤ m₂.log2 + e₂ := hy
    have hlog : m₁.log2 < 53 := log2_lt_of_lt (by decide) hm₁
    simp only [UnpackedFloat.div, divCore, targetExponent_eq, totalExponent]
    generalize htarget : min (e₁ - e₂)
      (max (m₁.log2 + 1 + e₁ - (m₂.log2 + 1 + e₂) - 53) (-1074)) = target
    have hquotient := log2_div_le m₁ m₂ (e₁ - e₂ - target).toNat
    exact inRange_roundWithAccuracy _ _ (by omega) (by omega)

/-! ## Powers of ten -/

/-- A large number is rounded to one of exactly 53 bits, and no smaller than its leading bit. -/
theorem roundWithAccuracy_large (s : Sign) {m : Nat} {e : Int} (accuracy : Accuracy)
    (hm : 53 ≤ m.log2) (he : -1074 ≤ e) :
    ∃ final e' h, roundWithAccuracy Format.binary64 s m e accuracy = .finite s final e' h ∧
      final.log2 = 52 ∧ m.log2 + e - 52 ≤ e' := by
  obtain ⟨rounded, hge, hle, hround⟩ := exists_roundWithAccuracy s m e accuracy
  have hshift : shiftAmount m e = m.log2 - 52 := by
    rw [shiftAmount_eq]
    omega
  have hlow : 2 ^ 52 ≤ m / 2 ^ shiftAmount m e := by
    rw [hshift, Nat.le_div_iff_mul_le (Nat.two_pow_pos _), ← Nat.pow_add,
      Nat.add_sub_cancel' (by omega)]
    exact Nat.log2_self_le (by rintro rfl; simp at hm)
  have hhigh := shifted_lt m e
  have hfinal : (rounded / 2 ^ shiftAmount rounded (e + shiftAmount m e)).log2 = 52 := by
    by_cases hcarry : rounded < 2 ^ 53
    · have hlog : rounded.log2 = 52 := (Nat.log2_eq_iff (by omega)).mpr ⟨by omega, hcarry⟩
      have hnone : shiftAmount rounded (e + shiftAmount m e) = 0 := by
        rw [shiftAmount_eq rounded, hlog]
        omega
      rw [hnone, Nat.pow_zero, Nat.div_one, hlog]
    · obtain rfl : rounded = 2 ^ 53 := by omega
      have hone : shiftAmount (2 ^ 53) (e + shiftAmount m e) = 1 := by
        rw [shiftAmount_eq (2 ^ 53), Nat.log2_two_pow]
        omega
      rw [hone]
      decide
  simp only at hround
  rw [dif_neg (by intro h; simp [h] at hfinal)] at hround
  exact ⟨_, _, _, hround, hfinal, by omega⟩

theorem atLeastTwo_unpack {bits : BitVec Format.binary64.numBits}
    (h : 1024 ≤ (unpackExponent bits).toNat)
    (hnumber : unpackExponent bits = -1#_ → unpackMantissa bits = 0#_) :
    AtLeastTwo (unpack Format.binary64 bits) := by
  fun_cases UnpackedFloat.unpack Format.binary64 bits with
  | case1 => trivial
  | case2 _ _ hmax hne => exact absurd (hnumber hmax) hne
  | case3 mantissa biased _ _ _ hzero | case4 mantissa biased _ _ _ _ hzero =>
    have hbiased : biased.toNat = 0 := congrArg BitVec.toNat hzero
    replace h : 1024 ≤ biased.toNat := h
    omega
  | case5 mantissa biased e =>
    have hlow : 2 ^ 52 ≤ (1#1 ++ mantissa).toNat := by
      rw [BitVec.toNat_append]
      exact Nat.left_le_or
    have hlog : 52 ≤ (1#1 ++ mantissa).toNat.log2 := (Nat.le_log2 (by omega)).mpr hlow
    have he : e = (biased.toNat : Int) - 1075 := rfl
    replace h : 1024 ≤ biased.toNat := h
    show 1 ≤ (((1#1 ++ mantissa).toNat.log2 : Nat) : Int) + e
    omega

theorem atLeastTwo_pack {s : Sign} {m : Nat} {e : Int} (h : 0 < m) (hm : m.log2 = 52)
    (he : -51 ≤ e) : AtLeastTwo (Float.Model.pack (.finite s m e h)).unpack := by
  have hbias : Format.binary64.exponentBias = 1023 := by decide
  have hbits : Format.binary64.mantissaBits = 53 := by decide
  show AtLeastTwo (unpack Format.binary64 (UnpackedFloat.pack Format.binary64 _))
  simp only [UnpackedFloat.pack, hbias, hbits, hm]
  split
  · refine atLeastTwo_unpack ?_ ?_
    · simp [packedInfinity]
    · simp [packedInfinity]
  · rw [if_pos trivial]
    refine atLeastTwo_unpack ?_ ?_
    · rw [unpackExponent_packComponents]
      simp
      omega
    · rw [unpackExponent_packComponents]
      intro hmax
      have hmax := congrArg BitVec.toNat hmax
      simp at hmax
      omega

theorem atLeastTwo_roundWithAccuracy {m : Nat} (hm : 54 ≤ m.log2) (s : Sign)
    (accuracy : Accuracy) : AtLeastTwo
      (Float.Model.pack (roundWithAccuracy Format.binary64 s m (-53) accuracy)).unpack := by
  have hexponent : (-1074 : Int) ≤ -53 := by decide
  obtain ⟨final, e', hpos, hround, hfinal, he'⟩ :=
    roundWithAccuracy_large s accuracy (Nat.le_of_succ_le hm) hexponent
  rw [hround]
  exact atLeastTwo_pack hpos hfinal (by omega)

instance (u : UnpackedFloat) : Decidable (AtLeastTwo u) :=
  match u with
  | .infinity _ => isTrue trivial
  | .finite _ m e _ => inferInstanceAs (Decidable (1 ≤ (m.log2 : Int) + e))
  | .zero _ | .notANumber => isFalse id

theorem atLeastTwo_powerOfTen (power : Nat) (h : 0 < power) :
    AtLeastTwo (Float.ofScientific 1 false power).toModel.unpack := by
  by_cases hsmall : power ≤ 22
  -- The small powers stand in a table.
  · have htable : ∀ p < 23, 0 < p → AtLeastTwo (Float.ofScientific 1 false p).toModel.unpack := by
      decide +kernel
    exact htable power (by omega) h
  · unfold Float.ofScientific
    rw [dif_neg (by omega)]
    show AtLeastTwo (Float.Model.pack
      (UnpackedFloat.ofScientific Format.binary64 1 (power : Int))).unpack
    unfold UnpackedFloat.ofScientific
    rw [dif_neg (by decide)]
    split
    · decide +kernel
    · have hnonneg : (0 : Int) ≤ power := Int.natCast_nonneg power
      have hbound : ¬(power : Int) < -((2 ^ Format.binary64.exponentBits : Int) + Nat.log2 1) := by
        have hpos : (0 : Int) < 2 ^ Format.binary64.exponentBits := by decide
        omega
      rw [if_neg hbound, if_pos hnonneg]
      have hlow : 2 ^ 54 ≤ 1 <<< 53 * 10 ^ power := by
        have hten : 10 ^ 1 ≤ 10 ^ power := Nat.pow_le_pow_right (by decide) h
        omega
      have hlog : 54 ≤ (1 <<< 53 * 10 ^ power).log2 := (Nat.le_log2 (by omega)).mpr hlow
      exact atLeastTwo_roundWithAccuracy hlog (Sign.positive * Sign.positive) .exact

theorem isFinite_div_powerOfTen {x : Float} (h : x.isFinite = true) (power : Nat)
    (hpower : 0 < power) : (x / Float.ofScientific 1 false power).isFinite = true :=
  isFinite_div h (atLeastTwo_powerOfTen power hpower)

end Binary64

namespace Json

open Binary64

/-! ## Reading -/

theorem isFinite_divideByPower {x : Float} (h : x.isFinite = true) {power : Nat}
    (hpower : 0 < power) : (divideByPower x power).isFinite = true := by
  fun_induction divideByPower x power with
  | case1 x power hle => exact isFinite_div_powerOfTen h power hpower
  | case2 x power hlt hzero => exact h
  | case3 x power hlt hzero ih =>
    have hlargest : (1e308 : Float) = Float.ofScientific 1 false 308 := rfl
    have hquotient := isFinite_div_powerOfTen h 308 (by decide)
    rw [← hlargest] at hquotient
    exact ih hquotient (by omega)

theorem isFinite_of_scaleWord? {word : Nat} {exponent : Int} {x : Float}
    (h : scaleWord? word exponent = some x) : x.isFinite = true := by
  have hword := isFinite_toFloat word.toUInt64
  unfold scaleWord? at h
  simp only at h
  split at h
  next hnegative =>
    obtain rfl := Option.some.inj h
    exact isFinite_divideByPower hword (by omega)
  split at h
  · obtain rfl := Option.some.inj h
    exact hword
  split at h
  · cases h
  · exact (Option.filter_eq_some_iff.mp h).2

/-- A number that is read is finite. -/
theorem isFinite_of_float? {value : Json} {x : Float} (h : float? value = some x) :
    x.isFinite = true := by
  cases value with
  | number literal =>
    replace h : floatOfLiteral? literal = some x := h
    unfold floatOfLiteral? at h
    generalize splitSign literal = signed at h
    obtain ⟨negative, cs⟩ := signed
    obtain ⟨magnitude, hscale, hsign⟩ := Option.map_eq_some_iff.mp h
    have hfinite := isFinite_of_scaleWord? hscale
    cases negative with
    | false => exact hsign ▸ hfinite
    | true => exact hsign ▸ isFinite_neg hfinite
  | _ => cases h

end Json

end CircuitGrid
