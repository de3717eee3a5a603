import CircuitGrid.Proofs.FiniteNumbers
import CircuitGrid.Proofs.JsonText

/-!
# The numbers that are written are numerals

Natural numbers are written without leading zeros, and every layout of a decimal
number follows the grammar of JSON, whatever its digits and its exponent. A natural
number is read as itself up to the limit of its type.
-/

namespace CircuitGrid

open Json

/-! ## Digits -/

theorem isDigits_decimalDigits (n : Nat) : IsDigits (decimalDigits n) where
  nonempty := Nat.toDigits_ne_nil
  digits _ hc := Nat.isDigit_of_mem_toDigits (by decide) (by decide) hc

theorem Json.IsDigits.append {cs ds : List Char} (h : IsDigits cs)
    (hds : ∀ c ∈ ds, c.isDigit = true) : IsDigits (cs ++ ds) where
  nonempty := List.append_ne_nil_of_left_ne_nil h.nonempty ds
  digits c hc := (List.mem_append.mp hc).elim (h.digits c) (hds c)

/-- The leading digit of a number other than zero is no zero. -/
theorem head?_decimalDigits {n : Nat} (h : n ≠ 0) : (decimalDigits n).head? ≠ some '0' := by
  induction n using Nat.strongRecOn with
  | _ n ih =>
    unfold decimalDigits at ih ⊢
    rw [Nat.toDigits_eq_if (by decide)]
    split
    next hlt =>
      have hdigit : ∀ d < 10, d ≠ 0 → d.digitChar ≠ '0' := by decide
      simpa using hdigit n hlt h
    next hge =>
      have hhead := ih (n / 10) (by omega) (by omega)
      obtain ⟨c, cs, hdigits⟩ := List.exists_cons_of_ne_nil (@Nat.toDigits_ne_nil (n / 10) 10)
      rw [hdigits] at hhead ⊢
      exact hhead

theorem isWhole_zero : IsWhole ['0'] where
  nonempty := List.cons_ne_nil _ _
  digits := List.forall_mem_singleton.mpr rfl
  lone_zero _ := rfl

theorem Json.IsDigits.isWhole {cs : List Char} (h : IsDigits cs) (hhead : cs.head? ≠ some '0') :
    IsWhole cs where
  toIsDigits := h
  lone_zero hzero := absurd hzero hhead

theorem isWhole_decimalDigits (n : Nat) : IsWhole (decimalDigits n) := by
  by_cases h : n = 0
  · subst h
    exact isWhole_zero
  · exact (isDigits_decimalDigits n).isWhole (head?_decimalDigits h)

theorem isNumeral_decimalDigits (n : Nat) : IsNumeral (decimalDigits n) := by
  have h := IsMagnitude.intro (isWhole_decimalDigits n) .none .none
  rw [List.append_nil, List.append_nil] at h
  exact .unsigned h

theorem readDigits?_decimalDigits (n : Nat) : readDigits? (decimalDigits n) = some n := by
  have h := isDigits_decimalDigits n
  unfold readDigits?
  rw [if_pos ⟨h.nonempty, List.all_eq_true.mpr h.digits⟩]
  exact congrArg some Nat.ofDigitChars_ten_toDigits

/-- A natural number within the limit is read as itself. -/
theorem Json.natural?_ofNat {limit n : Nat} (h : n ≤ limit) :
    natural? limit (.ofNat n) = some n := by
  simp [natural?, Json.ofNat, readDigits?_decimalDigits, h]

theorem Json.proper_ofNat (n : Nat) : (Json.ofNat n).Proper := .number (isNumeral_decimalDigits n)

/-! ## Layouts -/

namespace Decimal

/-- The fraction that a whole number may end in. -/
theorem isFraction_pointZero (pointZero : Bool) :
    IsFraction (if pointZero then ['.', '0'] else []) := by
  cases pointZero with
  | false => exact .none
  | true => exact .point isWhole_zero.toIsDigits

theorem isMagnitude_positional {digits : List Char} (h : IsDigits digits)
    (hhead : digits.head? ≠ some '0') (exponent : Int) (pointZero : Bool) :
    IsMagnitude (positional digits exponent pointZero) := by
  have hzeros : ∀ n, ∀ c ∈ List.replicate n '0', c.isDigit = true := by
    intro n c hc
    rw [List.eq_of_mem_replicate hc]
    rfl
  unfold positional
  split
  -- Zeros behind the digits.
  next hwhole =>
    obtain ⟨c, cs, rfl, -⟩ := h.exists_cons
    have hdigits := h.append (hzeros exponent.toNat)
    have hmagnitude :=
      IsMagnitude.intro (hdigits.isWhole hhead) (isFraction_pointZero pointZero) .none
    rwa [List.append_nil] at hmagnitude
  next hpart =>
    simp only
    split
    -- A point among the digits.
    next hplaces =>
      have hbefore : IsDigits (digits.take (digits.length - (-exponent).toNat)) := by
        refine ⟨?_, fun c hc => h.digits c (List.mem_of_mem_take hc)⟩
        rw [Ne, List.take_eq_nil_iff, not_or]
        exact ⟨by omega, h.nonempty⟩
      have hafter : IsDigits (digits.drop (digits.length - (-exponent).toNat)) := by
        refine ⟨?_, fun c hc => h.digits c (List.mem_of_mem_drop hc)⟩
        rw [Ne, List.drop_eq_nil_iff]
        omega
      have hmagnitude := IsMagnitude.intro (hbefore.isWhole ?_) (.point hafter) .none
      · rwa [List.append_nil] at hmagnitude
      · rwa [List.head?_take, if_neg (by omega)]
    -- A point and zeros before the digits.
    next hplaces =>
      have hafter : IsDigits (List.replicate ((-exponent).toNat - digits.length) '0' ++ digits) :=
        ⟨List.append_ne_nil_of_right_ne_nil _ h.nonempty,
          fun c hc => (List.mem_append.mp hc).elim (hzeros _ c) (h.digits c)⟩
      have hmagnitude := IsMagnitude.intro isWhole_zero (.point hafter) .none
      rwa [List.append_nil] at hmagnitude

theorem isMagnitude_scientific {digits : List Char} (h : IsDigits digits)
    (hhead : digits.head? ≠ some '0') (power : Int) (exponentPlus : Bool) :
    IsMagnitude (scientific digits power exponentPlus) := by
  obtain ⟨c, cs, rfl, hc⟩ := h.exists_cons
  have hwhole : IsWhole [c] := IsDigits.isWhole ⟨by simp, by simpa using hc⟩ hhead
  have hfraction : IsFraction (if (c :: cs).length ≤ 1 then [] else '.' :: (c :: cs).drop 1) := by
    split
    · exact .none
    next hlong =>
      refine .point ⟨?_, fun d hd => h.digits d (List.mem_of_mem_drop hd)⟩
      intro hnil
      obtain rfl : cs = [] := hnil
      exact hlong (Nat.le_refl 1)
  have hpower := isDigits_decimalDigits power.natAbs
  have hexponent : IsExponent
      ('e' :: (if power < 0 then ['-'] else if exponentPlus then ['+'] else [])
        ++ decimalDigits power.natAbs) := by
    split
    · exact .minus hpower
    · split
      · exact .plus hpower
      · exact .unsigned hpower
  have hmagnitude := IsMagnitude.intro hwhole hfraction hexponent
  simpa [scientific] using hmagnitude

/-- Every decimal number is written as a numeral. -/
theorem isNumeral_write (layout : Layout) (d : Decimal) : IsNumeral (d.write layout) := by
  have hdigits := isDigits_decimalDigits d.trimZeros.digits
  have hmagnitude : ∀ cs, IsMagnitude cs →
      IsNumeral ((if d.trimZeros.negative then ['-'] else []) ++ cs) := by
    intro cs hcs
    split
    · exact .minus hcs
    · exact .unsigned hcs
  refine hmagnitude _ ?_
  split
  · have hzero := IsMagnitude.intro isWhole_zero (isFraction_pointZero layout.pointZero) .none
    rwa [List.append_nil] at hzero
  next hne =>
    split
    · exact isMagnitude_positional hdigits (head?_decimalDigits hne) _ _
    · exact isMagnitude_scientific hdigits (head?_decimalDigits hne) _ _

end Decimal

/-- A number has a text whatever it is: what is not finite is written as `null`. -/
theorem Json.proper_ofFloat (x : Float) : (Json.ofFloat x).Proper := by
  by_cases h : x.isFinite = true
  · obtain ⟨d, hd⟩ := Binary64.exists_dyadic h
    have hwritten : Json.ofFloat x = .number ((d.shortest .toEven).write jsonLayout) := by
      simp [Json.ofFloat, h, writeShortest, hd]
    rw [hwritten]
    exact .number (Decimal.isNumeral_write _ _)
  · unfold Json.ofFloat
    rw [if_neg h]
    exact .null

end CircuitGrid
