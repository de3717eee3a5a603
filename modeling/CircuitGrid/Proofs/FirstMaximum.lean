import CircuitGrid.Simulation.Outcome
import Mathlib

/-!
# The most likely outcome is the first maximum

The search for the most likely outcome keeps the best entry so far and gives it up for a larger
one only. After any part of the list it holds the first maximum of that part, which is the
invariant that carries the search over the whole list (`IsBest.concat`).

What it takes is that `≥` is a total order on the entries. On floating-point numbers it is one
as soon as none of them is not-a-number (`totallyOrdered_of_not_nan`).
-/

namespace CircuitGrid

section Maximum

variable {ρ : Type} [Scalar ρ]

/-- `≥` is a total order on the entries of a list, where entries that are `≥` each other count
as equal. -/
structure TotallyOrdered (ps : List ρ) : Prop where
  total : ∀ p ∈ ps, ∀ q ∈ ps, Scalar.atLeast p q = true ∨ Scalar.atLeast q p = true
  trans : ∀ p ∈ ps, ∀ q ∈ ps, ∀ r ∈ ps,
    Scalar.atLeast p q = true → Scalar.atLeast q r = true → Scalar.atLeast p r = true

/-- The list has `p` at position `i`, which is `≥` every entry and strictly greater than every
entry before it. -/
structure IsFirstMaximum (ps : List ρ) (i : Nat) (p : ρ) : Prop where
  entry : ps[i]? = some p
  largest : ∀ q ∈ ps, Scalar.atLeast p q = true
  first : ∀ j q, j < i → ps[j]? = some q → Scalar.atLeast q p = false

variable {ps : List ρ}

theorem TotallyOrdered.of_subset {qs : List ρ} (h : TotallyOrdered ps) (hsubset : qs ⊆ ps) :
    TotallyOrdered qs where
  total p hp q hq := h.total p (hsubset hp) q (hsubset hq)
  trans p hp q hq r hr := h.trans p (hsubset hp) q (hsubset hq) r (hsubset hr)

theorem TotallyOrdered.refl (h : TotallyOrdered ps) {p : ρ} (hp : p ∈ ps) :
    Scalar.atLeast p p = true :=
  (h.total p hp p hp).elim id id

namespace IsFirstMaximum

variable {i j : Nat} {p q : ρ}

theorem mem (h : IsFirstMaximum ps i p) : p ∈ ps :=
  List.mem_of_getElem? h.entry

theorem lt_length (h : IsFirstMaximum ps i p) : i < ps.length :=
  (List.getElem?_eq_some_iff.mp h.entry).1

/-- No entry before the first maximum is a maximum. -/
theorem le (h : IsFirstMaximum ps i p) (hq : IsFirstMaximum ps j q) : i ≤ j := by
  by_contra hlt
  have hstrict := h.first j q (Nat.lt_of_not_le hlt) hq.entry
  rw [hq.largest p h.mem] at hstrict
  cases hstrict

theorem unique (h : IsFirstMaximum ps i p) (hq : IsFirstMaximum ps j q) : i = j :=
  Nat.le_antisymm (h.le hq) (hq.le h)

/-- The first maximum stays where it is if the next entry is not larger. -/
theorem keep (h : IsFirstMaximum ps i p) (hp : Scalar.atLeast p q = true) :
    IsFirstMaximum (ps ++ [q]) i p where
  entry := by
    rw [List.getElem?_append_left h.lt_length]
    exact h.entry
  largest r hr := by
    rcases List.mem_append.mp hr with hr | hr
    · exact h.largest r hr
    · rw [List.mem_singleton.mp hr]
      exact hp
  first j r hj hr := by
    rw [List.getElem?_append_left (Nat.lt_trans hj h.lt_length)] at hr
    exact h.first j r hj hr

/-- A larger next entry is the first maximum from then on. -/
theorem replace (h : IsFirstMaximum ps i p) (horder : TotallyOrdered (ps ++ [q]))
    (hp : Scalar.atLeast p q = false) : IsFirstMaximum (ps ++ [q]) ps.length q := by
  have hq : q ∈ ps ++ [q] := List.mem_append_right _ List.mem_cons_self
  have hold : ∀ r ∈ ps, r ∈ ps ++ [q] := fun r hr => List.mem_append_left _ hr
  have hqp : Scalar.atLeast q p = true :=
    (horder.total q hq p (hold p h.mem)).resolve_right (by rw [hp]; exact Bool.false_ne_true)
  refine ⟨List.getElem?_concat_length, ?_, ?_⟩
  · intro r hr
    rcases List.mem_append.mp hr with hr | hr
    · exact horder.trans q hq p (hold p h.mem) r (hold r hr) hqp (h.largest r hr)
    · rw [List.mem_singleton.mp hr]
      exact horder.refl hq
  · intro j r hj hr
    rw [List.getElem?_append_left hj] at hr
    have hr : r ∈ ps := List.mem_of_getElem? hr
    -- an entry that were as large as the next one would be larger than the first maximum
    rw [Bool.eq_false_iff]
    intro hrq
    have hpq := horder.trans p (hold p h.mem) r (hold r hr) q hq (h.largest r hr) hrq
    rw [hp] at hpq
    cases hpq

end IsFirstMaximum

/-! ## The search -/

/-- The best entry of a list so far, with its position: none for the empty list, and the first
maximum otherwise. -/
def IsBest (ps : List ρ) : Option (Nat × ρ) → Prop
  | none => ps = []
  | some (i, p) => IsFirstMaximum ps i p

theorem IsBest.concat {best : Option (Nat × ρ)} {q : ρ} (h : IsBest ps best)
    (horder : TotallyOrdered (ps ++ [q])) :
    IsBest (ps ++ [q]) (betterEntry best (ps.length, q)) := by
  cases best with
  | none =>
    obtain rfl : ps = [] := h
    refine ⟨rfl, fun r hr => ?_, fun j r hj => absurd hj (Nat.not_lt_zero j)⟩
    rw [List.mem_singleton.mp hr]
    exact horder.refl List.mem_cons_self
  | some entry =>
    obtain ⟨i, p⟩ := entry
    have h : IsFirstMaximum ps i p := h
    unfold betterEntry
    dsimp only
    split
    · next hp => exact h.keep hp
    · next hp => exact h.replace horder (Bool.eq_false_iff.mpr hp)

/-- The best entry of a list, with its position. -/
def bestEntry (ps : List ρ) : Option (Nat × ρ) :=
  (ps.zipIdx.map Prod.swap).foldl betterEntry none

theorem bestEntry_concat (ps : List ρ) (q : ρ) :
    bestEntry (ps ++ [q]) = betterEntry (bestEntry ps) (ps.length, q) := by
  simp [bestEntry, List.zipIdx_append]

theorem isBest_bestEntry (h : TotallyOrdered ps) : IsBest ps (bestEntry ps) := by
  induction ps using List.reverseRecOn with
  | nil => rfl
  | append_singleton ps q ih =>
    rw [bestEntry_concat]
    exact (ih (h.of_subset (List.subset_append_left ps [q]))).concat h

/-- On a list on which `≥` is a total order, the most likely entry is found exactly if there is
an entry at all, and it is the first maximum. -/
theorem mostLikely_isFirstMaximum (h : TotallyOrdered ps) :
    (mostLikely ps = none ↔ ps = []) ∧
    ∀ i, mostLikely ps = some i ↔ ∃ p, IsFirstMaximum ps i p := by
  have hbest := isBest_bestEntry h
  have hfound : mostLikely ps = (bestEntry ps).map Prod.fst := rfl
  rw [hfound]
  cases hentry : bestEntry ps with
  | none =>
    rw [hentry] at hbest
    obtain rfl : ps = [] := hbest
    refine ⟨iff_of_true rfl rfl, fun i => iff_of_false nofun ?_⟩
    rintro ⟨p, hp⟩
    exact absurd hp.lt_length (Nat.not_lt_zero i)
  | some entry =>
    obtain ⟨i, p⟩ := entry
    rw [hentry] at hbest
    have hbest : IsFirstMaximum ps i p := hbest
    refine ⟨iff_of_false nofun (List.ne_nil_of_mem hbest.mem), fun j => ?_⟩
    constructor
    · rintro ⟨⟩
      exact ⟨p, hbest⟩
    · rintro ⟨q, hq⟩
      exact congrArg some (hbest.unique hq)

end Maximum

/-! ## Floating-point numbers -/

namespace Binary64

open Float.Model Float.Model.UnpackedFloat

/-- Where a number stands among others: its class counts first, from negative infinity up to
positive infinity, then its exponent, then its mantissa. -/
def rank : UnpackedFloat → Int ×ₗ Int ×ₗ Int
  | .infinity .negative => toLex (-2, toLex (0, 0))
  | .finite .negative m e _ => toLex (-1, toLex (-e, -m))
  | .zero _ | .notANumber => toLex (0, toLex (0, 0))
  | .finite .positive m e _ => toLex (1, toLex (e, m))
  | .infinity .positive => toLex (2, toLex (0, 0))

theorem isLE_compare_magnitude (e e' : Int) (m m' : Nat) :
    ((compare e e').then (compare m m')).isLE = true ↔ e < e' ∨ e = e' ∧ m ≤ m' := by
  rw [Ordering.isLE_then_iff_or, compare_lt_iff_lt, compare_eq_iff_eq, Nat.isLE_compare]

theorem isLE_swap_compare_magnitude (e e' : Int) (m m' : Nat) :
    ((compare e e').then (compare m m')).swap.isLE = true ↔ e' < e ∨ e = e' ∧ m' ≤ m := by
  rw [Ordering.swap_then, Int.compare_swap, Nat.compare_swap, isLE_compare_magnitude, eq_comm]

theorem le_iff_rank_le {x y : UnpackedFloat} (hx : x.isNaN = false) (hy : y.isNaN = false) :
    x.le y = true ↔ rank x ≤ rank y := by
  cases x with
  | notANumber => cases hx
  | infinity s =>
    cases y with
    | notANumber => cases hy
    | infinity s' => cases s <;> cases s' <;> decide
    | zero s' | finite s' m' e' =>
      cases s <;> cases s' <;>
        simp [UnpackedFloat.le, UnpackedFloat.compare, rank, Prod.Lex.toLex_le_toLex]
  | zero s | finite s m e =>
    cases y with
    | notANumber => cases hy
    | infinity s' | zero s' | finite s' m' e' =>
      -- two finite numbers of one sign are compared by their parts, all others by their classes
      cases s <;> cases s' <;>
        simp [UnpackedFloat.le, UnpackedFloat.compare, rank, Prod.Lex.toLex_le_toLex,
          isLE_compare_magnitude, isLE_swap_compare_magnitude, -Ordering.isLE_swap]

theorem atLeast_iff_rank_le {x y : Float} (hx : x.isNaN = false) (hy : y.isNaN = false) :
    Scalar.atLeast x y = true ↔ rank y.toModel.unpack ≤ rank x.toModel.unpack := by
  rw [← le_iff_rank_le hy hx]
  show decide (y ≤ x) = true ↔ _
  rw [decide_eq_true_iff]
  show decide (y.toModel ≤ x.toModel) = true ↔ _
  rw [decide_eq_true_iff]
  rfl

end Binary64

/-- Floating-point numbers that are numbers are totally ordered. -/
theorem totallyOrdered_of_not_nan {ps : List Float} (h : ∀ p ∈ ps, p.isNaN = false) :
    TotallyOrdered ps where
  total p hp q hq := by
    rw [Binary64.atLeast_iff_rank_le (h p hp) (h q hq),
      Binary64.atLeast_iff_rank_le (h q hq) (h p hp)]
    exact le_total _ _
  trans p hp q hq r hr := by
    rw [Binary64.atLeast_iff_rank_le (h p hp) (h q hq),
      Binary64.atLeast_iff_rank_le (h q hq) (h r hr),
      Binary64.atLeast_iff_rank_le (h p hp) (h r hr)]
    exact fun hpq hqr => hqr.trans hpq

/-- Three probabilities are the largest, and the first of them is found. -/
theorem mostLikely_of_repeated_maximum :
    let ps : List Float := [0.125, -0.0, 0.25, 0.0, 0.25, 0.25]
    TotallyOrdered ps ∧ mostLikely ps = some 2 := by
  intro ps
  have horder : TotallyOrdered ps := totallyOrdered_of_not_nan (by decide)
  refine ⟨horder, ((mostLikely_isFirstMaximum horder).2 2).mpr ⟨0.25, rfl, by decide, ?_⟩⟩
  intro j q hj hq
  have hbefore : j = 0 ∨ j = 1 := by omega
  rcases hbefore with rfl | rfl <;> cases hq <;> decide

end CircuitGrid
