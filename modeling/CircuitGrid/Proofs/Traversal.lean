import Mathlib.Data.List.Forall2

/-!
# Loops that may fail

A loop over a list stops at the first element whose step fails and takes the
error of that step. It succeeds exactly if every step does.
-/

namespace CircuitGrid

variable {ε ι σ τ : Type}

/-- A computation that goes on with a result has succeeded so far. -/
theorem bind_eq_ok_iff {result : Except ε σ} {next : σ → Except ε τ} {y : τ} :
    (result >>= next) = .ok y ↔ ∃ x, result = .ok x ∧ next x = .ok y := by
  cases result with
  | error error =>
    constructor
    · intro h
      cases h
    · rintro ⟨_, h, _⟩
      cases h
  | ok x =>
    constructor
    · exact fun h => ⟨x, rfl, h⟩
    · rintro ⟨_, h, hnext⟩
      cases h
      exact hnext

/-! ## Collecting results -/

section Collecting

variable {f : σ → Except ε τ} {xs : List σ}

/-- A loop succeeds with the results of its steps, one for each element. -/
theorem mapM_eq_ok_iff {ys : List τ} :
    xs.mapM f = .ok ys ↔ List.Forall₂ (fun x y => f x = .ok y) xs ys := by
  induction xs generalizing ys with
  | nil =>
    rw [List.forall₂_nil_left_iff]
    exact ⟨fun h => by cases h; rfl, fun h => by rw [h]; rfl⟩
  | cons x xs ih =>
    rw [List.forall₂_cons_left_iff, List.mapM_cons]
    constructor
    · intro h
      obtain ⟨y, hy, h⟩ := bind_eq_ok_iff.mp h
      obtain ⟨rest, hrest, h⟩ := bind_eq_ok_iff.mp h
      cases h
      exact ⟨y, rest, hy, ih.mp hrest, rfl⟩
    · rintro ⟨y, rest, hy, hrest, rfl⟩
      rw [hy, ih.mpr hrest]
      rfl

/-- A loop fails with the error of its first step that fails. -/
theorem mapM_eq_error_iff {error : ε} :
    xs.mapM f = .error error ↔ ∃ before x after, xs = before ++ x :: after ∧
      (∀ earlier ∈ before, ∃ y, f earlier = .ok y) ∧ f x = .error error := by
  constructor
  · intro h
    induction xs with
    | nil => cases h
    | cons x xs ih =>
      rw [List.mapM_cons] at h
      cases hx : f x with
      | error found =>
        rw [hx] at h
        cases h
        exact ⟨[], x, xs, rfl, (fun _ hmem => nomatch hmem), hx⟩
      | ok y =>
        cases hxs : xs.mapM f with
        | ok ys => rw [hx, hxs] at h; cases h
        | error found =>
          rw [hx, hxs] at h
          cases h
          obtain ⟨before, bad, after, rfl, hbefore, hbad⟩ := ih hxs
          refine ⟨x :: before, bad, after, rfl, ?_, hbad⟩
          intro earlier hmem
          rcases List.mem_cons.mp hmem with rfl | hmem
          · exact ⟨y, hx⟩
          · exact hbefore earlier hmem
  · rintro ⟨before, x, after, rfl, hbefore, hx⟩
    induction before with
    | nil =>
      rw [List.nil_append, List.mapM_cons, hx]
      rfl
    | cons y before ih =>
      obtain ⟨found, hy⟩ := hbefore y List.mem_cons_self
      rw [List.cons_append, List.mapM_cons, hy,
        ih (fun earlier hmem => hbefore earlier (List.mem_cons_of_mem _ hmem))]
      rfl

theorem exists_mapM_eq_ok {P : σ → τ → Prop} (h : ∀ x ∈ xs, ∃ y, f x = .ok y ∧ P x y) :
    ∃ ys, xs.mapM f = .ok ys ∧ List.Forall₂ P xs ys := by
  induction xs with
  | nil => exact ⟨[], rfl, .nil⟩
  | cons x xs ih =>
    obtain ⟨y, hy, hP⟩ := h x List.mem_cons_self
    obtain ⟨ys, hys, hall⟩ := ih (fun z hz => h z (List.mem_cons_of_mem _ hz))
    refine ⟨y :: ys, ?_, .cons hP hall⟩
    rw [List.mapM_cons, hy, hys]
    rfl

/-- A loop over two lists in a row collects what it collects from each of them. -/
theorem mapM_append_eq_ok_iff {xs' : List σ} {ys : List τ} :
    (xs ++ xs').mapM f = .ok ys ↔
      ∃ first second, xs.mapM f = .ok first ∧ xs'.mapM f = .ok second ∧ ys = first ++ second := by
  rw [List.mapM_append]
  constructor
  · intro h
    obtain ⟨first, hfirst, h⟩ := bind_eq_ok_iff.mp h
    obtain ⟨second, hsecond, h⟩ := bind_eq_ok_iff.mp h
    cases h
    exact ⟨first, second, hfirst, hsecond, rfl⟩
  · rintro ⟨first, second, hfirst, hsecond, rfl⟩
    rw [hfirst, hsecond]
    rfl

/-- A loop over groups in a row collects what the loops over the groups collect. -/
theorem mapM_flatMap_eq_ok {group : ι → List σ} {result : ι → List τ}
    (h : ∀ i, (group i).mapM f = .ok (result i)) (indices : List ι) :
    (indices.flatMap group).mapM f = .ok (indices.flatMap result) := by
  induction indices with
  | nil => rfl
  | cons i indices ih =>
    rw [List.flatMap_cons, List.flatMap_cons, List.mapM_append, h, ih]
    rfl

end Collecting

/-! ## Elements and their results -/

section Pairs

variable {R : σ → τ → Prop} {xs : List σ} {ys : List τ}

theorem exists_mem_of_forall₂ (hpairs : List.Forall₂ R xs ys) {y : τ} (hmem : y ∈ ys) :
    ∃ x ∈ xs, R x y := by
  induction hpairs with
  | nil => cases hmem
  | cons hhead _ ih =>
    rcases List.mem_cons.mp hmem with rfl | hmem
    · exact ⟨_, List.mem_cons_self, hhead⟩
    · obtain ⟨x, hx, hR⟩ := ih hmem
      exact ⟨x, List.mem_cons_of_mem _ hx, hR⟩

theorem pairwise_of_forall₂ {S : σ → σ → Prop} {T : τ → τ → Prop}
    (hpairs : List.Forall₂ R xs ys) (hxs : xs.Pairwise S)
    (himp : ∀ x y x' y', R x y → R x' y' → S x x' → T y y') : ys.Pairwise T := by
  induction hpairs with
  | nil => exact .nil
  | cons hhead htail ih =>
    rw [List.pairwise_cons] at hxs ⊢
    refine ⟨?_, ih hxs.2⟩
    intro y' hy'
    obtain ⟨x', hx', hR⟩ := exists_mem_of_forall₂ htail hy'
    exact himp _ _ _ _ hhead hR (hxs.1 x' hx')

end Pairs

/-! ## Passing on a state -/

/-- A loop whose steps cannot fail, whatever they start from, does not fail. -/
theorem exists_foldlM_eq_ok {step : σ → τ → Except ε σ} {xs : List τ}
    (h : ∀ x ∈ xs, ∀ start, ∃ next, step start x = .ok next) (start : σ) :
    ∃ result, xs.foldlM step start = .ok result := by
  induction xs generalizing start with
  | nil => exact ⟨start, rfl⟩
  | cons x xs ih =>
    obtain ⟨next, hnext⟩ := h x List.mem_cons_self start
    obtain ⟨result, hresult⟩ := ih (fun y hy => h y (List.mem_cons_of_mem _ hy)) next
    refine ⟨result, ?_⟩
    rw [List.foldlM_cons, hnext]
    exact hresult

end CircuitGrid
