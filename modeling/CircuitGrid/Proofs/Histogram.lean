import CircuitGrid.Proofs.Simulable
import Mathlib.Algebra.BigOperators.Group.List.Lemmas

/-!
# Counting is repeated sampling

`counts` prepares the state once, `sample` anew for every measurement, and both
take their draws from one generator. The idea: a prepared state depends on the
limit of the simulator only, so `n` samples draw from the same probabilities as
one count of `n` shots, and from the same stretch of the stream. What remains is
that the tally kept during the shots is the histogram of the outcomes drawn.
-/

namespace CircuitGrid

/-! ## Outcomes are basis states -/

section Draws

variable {ρ : Type} [Scalar ρ] {m : Nat}

theorem drawFrom_lt (probabilities : Vector ρ m) (r : ρ) (i : Nat) (sum : ρ) {lastPossible : Nat}
    (h : lastPossible < m) : drawFrom probabilities r i sum lastPossible < m := by
  fun_induction drawFrom probabilities r i sum lastPossible with
  | case1 _ _ _ hlt => exact hlt
  | case2 i _ previous hlt p _ _ _ ih =>
    have hpossible : (if Scalar.less Scalar.zero p then i else previous) < m := by
      split
      · exact hlt
      · exact h
    exact ih hpossible
  | case3 => exact h

theorem drawOutcome_lt (probabilities : Vector ρ m) (r : ρ) (h : 0 < m) :
    drawOutcome probabilities r < m :=
  drawFrom_lt probabilities r 0 Scalar.zero h

variable {G : Type} [Generator G]

/-- The outcomes of measuring a state with the given probabilities `shots` times, in order,
and the generator afterwards. -/
def drawOutcomes (probabilities : Vector ρ m) : Nat → G → List Nat × G
  | 0, generator => ([], generator)
  | shots + 1, generator =>
    let (draw, generator) := Generator.next generator
    let (outcomes, generator) := drawOutcomes probabilities shots generator
    (drawOutcome probabilities (Scalar.ofDraw draw) :: outcomes, generator)

theorem length_drawOutcomes (probabilities : Vector ρ m) (shots : Nat) (generator : G) :
    (drawOutcomes probabilities shots generator).1.length = shots := by
  induction shots generalizing generator with
  | zero => rfl
  | succ shots ih => exact congrArg (· + 1) (ih _)

theorem lt_of_mem_drawOutcomes (h : 0 < m) (probabilities : Vector ρ m) (shots : Nat)
    (generator : G) :
    ∀ outcome ∈ (drawOutcomes probabilities shots generator).1, outcome < m := by
  induction shots generalizing generator with
  | zero => exact List.forall_mem_nil _
  | succ shots ih =>
    intro outcome hmem
    obtain rfl | hmem := List.mem_cons.mp hmem
    · exact drawOutcome_lt _ _ h
    · exact ih _ outcome hmem

/-- Further shots draw on from where the earlier ones stopped. -/
theorem drawOutcomes_add (probabilities : Vector ρ m) (first second : Nat) (generator : G) :
    drawOutcomes probabilities (first + second) generator =
      ((drawOutcomes probabilities first generator).1 ++
          (drawOutcomes probabilities second (drawOutcomes probabilities first generator).2).1,
        (drawOutcomes probabilities second (drawOutcomes probabilities first generator).2).2) := by
  induction first generalizing generator with
  | zero => rw [Nat.zero_add]; rfl
  | succ first ih =>
    rw [Nat.succ_add]
    simp only [drawOutcomes, ih, List.cons_append]

end Draws

/-! ## Histograms -/

/-- `found` lists the outcomes that occur, ascending, each with how often it does. -/
structure IsHistogram (found : List (Nat × Nat)) (outcomes : List Nat) : Prop where
  ascending : found.Pairwise (·.1 < ·.1)
  mem_iff : ∀ state count, (state, count) ∈ found ↔ 0 < count ∧ count = outcomes.count state

/-- How often a basis state was found; one that is not listed was not. -/
def countOf (found : List (Nat × Nat)) (state : Nat) : Nat := (found.lookup state).getD 0

namespace IsHistogram

variable {found : List (Nat × Nat)} {outcomes : List Nat}

theorem mem_outcomes (h : IsHistogram found outcomes) {entry : Nat × Nat}
    (hmem : entry ∈ found) : entry.1 ∈ outcomes := by
  obtain ⟨hpos, hcount⟩ := (h.mem_iff entry.1 entry.2).mp hmem
  exact List.count_pos_iff.mp (hcount ▸ hpos)

/-- Looking a basis state up answers how often it occurs, also when it never does. -/
theorem countOf_eq (h : IsHistogram found outcomes) (state : Nat) :
    countOf found state = outcomes.count state := by
  unfold countOf
  cases hlookup : found.lookup state with
  | some count =>
    obtain ⟨before, after, rfl, -⟩ := List.lookup_eq_some_iff.mp hlookup
    have hmem : (state, count) ∈ before ++ (state, count) :: after :=
      List.mem_append_right _ List.mem_cons_self
    exact ((h.mem_iff state count).mp hmem).2
  | none =>
    by_contra hne
    have hmem : (state, outcomes.count state) ∈ found :=
      (h.mem_iff _ _).mpr ⟨Nat.pos_of_ne_zero (Ne.symm hne), rfl⟩
    simpa using List.lookup_eq_none_iff.mp hlookup _ hmem

/-- The counts add up to the number of outcomes. -/
theorem sum_eq (h : IsHistogram found outcomes) :
    (found.map Prod.snd).sum = outcomes.length := by
  -- The keys are the distinct outcomes, in some order.
  have hkeys : (found.map Prod.fst).Perm outcomes.dedup := by
    have hnodup : (found.map Prod.fst).Nodup :=
      List.pairwise_map.mpr (h.ascending.imp fun hlt => Nat.ne_of_lt hlt)
    refine (List.perm_ext_iff_of_nodup hnodup (List.nodup_dedup _)).mpr fun state => ?_
    rw [List.mem_dedup]
    constructor
    · intro hmem
      obtain ⟨entry, hentry, rfl⟩ := List.mem_map.mp hmem
      exact h.mem_outcomes hentry
    · intro hmem
      have hentry : (state, outcomes.count state) ∈ found :=
        (h.mem_iff _ _).mpr ⟨List.count_pos_iff.mpr hmem, rfl⟩
      exact List.mem_map_of_mem hentry
  calc
    (found.map Prod.snd).sum
      = ((found.map Prod.fst).map fun state => outcomes.count state).sum := by
        rw [List.map_map]
        refine congrArg List.sum (List.map_congr_left fun entry hentry => ?_)
        exact ((h.mem_iff entry.1 entry.2).mp hentry).2
    _ = (outcomes.dedup.map fun state => outcomes.count state).sum := (hkeys.map _).sum_eq
    _ = outcomes.length := List.sum_map_count_dedup_eq_length outcomes

/-- Histograms of two stretches of outcomes add up to the histogram of both. -/
theorem countOf_append {further total : List (Nat × Nat)} {others : List Nat}
    (h : IsHistogram found outcomes) (hfurther : IsHistogram further others)
    (htotal : IsHistogram total (outcomes ++ others)) (state : Nat) :
    countOf total state = countOf found state + countOf further state := by
  rw [htotal.countOf_eq, h.countOf_eq, hfurther.countOf_eq]
  exact List.count_append

end IsHistogram

/-! ## The tally of the shots -/

namespace Simulator

theorem getElem_countOutcome {m : Nat} (tally : Vector Nat m) (outcome : Nat) {i : Nat}
    (hi : i < m) :
    (countOutcome tally outcome)[i] = tally[i] + if outcome = i then 1 else 0 := by
  unfold countOutcome
  split
  next h =>
    rw [Vector.getElem_set]
    split
    next heq => subst heq; rfl
    next hne => rfl
  next h =>
    have hne : outcome ≠ i := fun heq => h (heq ▸ hi)
    rw [if_neg hne, Nat.add_zero]

/-- Counting outcomes one by one adds to each entry how often its basis state occurs. -/
theorem getElem_foldl_countOutcome {m : Nat} (outcomes : List Nat) (tally : Vector Nat m) {i : Nat}
    (hi : i < m) : (outcomes.foldl countOutcome tally)[i] = tally[i] + outcomes.count i := by
  induction outcomes generalizing tally with
  | nil => rfl
  | cons outcome outcomes ih =>
    show (outcomes.foldl countOutcome (countOutcome tally outcome))[i] = _
    rw [ih, getElem_countOutcome, List.count_cons, Nat.add_assoc, Nat.add_comm (ite _ _ _)]
    simp only [beq_iff_eq]

theorem tallyShots_eq {ρ G : Type} [Scalar ρ] [Generator G] {m : Nat} (probabilities : Vector ρ m)
    (shots : Nat) (generator : G) (tally : Vector Nat m) :
    tallyShots probabilities shots generator tally =
      ((drawOutcomes probabilities shots generator).1.foldl countOutcome tally,
        (drawOutcomes probabilities shots generator).2) := by
  induction shots generalizing generator tally with
  | zero => rfl
  | succ shots ih => exact ih _ _

/-! ### Reading the tally off -/

theorem mem_occurrences {m : Nat} (tally : Vector Nat m) (state count : Nat) :
    (state, count) ∈ occurrences tally ↔ 0 < count ∧ ∃ h : state < m, tally[state] = count := by
  have hswap : (state, count) ∈ occurrences tally ↔
      (count, state) ∈ tally.toList.zipIdx.filter (·.1 ≠ 0) :=
    List.mem_map_of_injective Prod.swap_injective (a := (count, state))
  rw [hswap, List.mem_filter, List.mem_zipIdx_iff_getElem?, List.getElem?_eq_some_iff]
  simp [Nat.pos_iff_ne_zero, and_comm]

theorem occurrences_ascending {m : Nat} (tally : Vector Nat m) :
    (occurrences tally).Pairwise (·.1 < ·.1) := by
  have hpositions : tally.toList.zipIdx.Pairwise (·.2 < ·.2) := by
    rw [← List.pairwise_map, List.zipIdx_map_snd]
    exact List.pairwise_lt_range'
  exact List.pairwise_map.mpr (hpositions.filter _)

/-- The tally of outcomes below `m`, read off. -/
def histogramOf (m : Nat) (outcomes : List Nat) : List (Nat × Nat) :=
  occurrences (outcomes.foldl countOutcome (Vector.replicate m 0))

theorem isHistogram_histogramOf {m : Nat} {outcomes : List Nat} (h : ∀ o ∈ outcomes, o < m) :
    IsHistogram (histogramOf m outcomes) outcomes where
  ascending := occurrences_ascending _
  mem_iff state count := by
    unfold histogramOf
    rw [mem_occurrences]
    refine and_congr_right fun hpos => ?_
    constructor
    · rintro ⟨hlt, rfl⟩
      rw [getElem_foldl_countOutcome, Vector.getElem_replicate, Nat.zero_add]
    · rintro rfl
      have hlt : state < m := h state (List.count_pos_iff.mp hpos)
      refine ⟨hlt, ?_⟩
      rw [getElem_foldl_countOutcome, Vector.getElem_replicate, Nat.zero_add]

/-! ## Samples and counts of one circuit -/

variable {G ρ : Type} [Scalar ρ] [Generator G] {sim : Simulator G} {wires : Nat}
  {ops : List (Operation ρ)}

/-- The answers of consecutive samples of one circuit, and the simulator afterwards. -/
def samples (sim : Simulator G) (wires : Nat) (ops : List (Operation ρ)) :
    Nat → List (Except SimulationError Nat) × Simulator G
  | 0 => ([], sim)
  | n + 1 =>
    let (answer, sim) := sim.sample wires ops
    let (answers, sim) := sim.samples wires ops n
    (answer :: answers, sim)

/-- Samples of a circuit that can be prepared draw from its probabilities. Each sample
prepares the state anew, and finds the same one: the generator has no part in it. -/
theorem samples_of_prepare {state : StateVector (Amplitude ρ) wires}
    (h : sim.prepare wires ops = .ok state) (n : Nat) :
    sim.samples wires ops n =
      ((drawOutcomes state.probabilities n sim.generator).1.map .ok,
        { sim with generator := (drawOutcomes state.probabilities n sim.generator).2 }) := by
  induction n generalizing sim with
  | zero => rfl
  | succ n ih =>
    have hsame : Simulator.prepare { sim with generator := (Generator.next sim.generator).2 }
        wires ops = .ok state := h
    simp only [samples, sample_eq_of_prepare h, ih hsame]
    rfl

theorem counts_eq_of_prepare {state : StateVector (Amplitude ρ) wires}
    (h : sim.prepare wires ops = .ok state) (n : Nat) :
    sim.counts wires ops n =
      (.ok (histogramOf (basisSize wires) (drawOutcomes state.probabilities n sim.generator).1),
        { sim with generator := (drawOutcomes state.probabilities n sim.generator).2 }) := by
  unfold counts
  rw [probabilities_of_prepare h]
  simp only [countShots, tallyShots_eq]
  rfl

/-- What a count finds is the histogram of the outcomes it draws. -/
theorem isHistogram_drawOutcomes (probabilities : Vector ρ (basisSize wires)) (n : Nat)
    (generator : G) :
    IsHistogram (histogramOf (basisSize wires) (drawOutcomes probabilities n generator).1)
      (drawOutcomes probabilities n generator).1 :=
  isHistogram_histogramOf (lt_of_mem_drawOutcomes (basisSize_pos wires) probabilities n generator)

/-- A count that follows another one goes on with the outcomes where that one stopped. -/
theorem counts_counts_of_prepare {state : StateVector (Amplitude ρ) wires}
    (h : sim.prepare wires ops = .ok state) (n m : Nat) :
    (sim.counts wires ops n).2.counts wires ops m =
      (.ok (histogramOf (basisSize wires) (drawOutcomes state.probabilities m
          (drawOutcomes state.probabilities n sim.generator).2).1),
        (sim.counts wires ops (n + m)).2) := by
  have hafter : (sim.counts wires ops n).2.prepare wires ops = .ok state := by
    rw [counts_eq_of_prepare h n]
    exact h
  rw [counts_eq_of_prepare hafter m, counts_eq_of_prepare h n, counts_eq_of_prepare h (n + m),
    drawOutcomes_add]

/-- Counting is repeated sampling, from every state of the generator. Where the circuit can
be prepared, a count of `n` shots is the histogram of the outcomes of `n` consecutive samples
and leaves the generator where they do; so its counts are positive, add up to `n` and, like
every count of a histogram, stay within the word that holds the number of shots, and a further
count adds up with it to the count of all the shots. Where the circuit cannot be prepared,
sampling and counting report the same error and take no draw. -/
theorem counts_eq_histogram (sim : Simulator G) (wires : Nat) (ops : List (Operation ρ)) :
    (∀ state, sim.prepare wires ops = .ok state → ∀ n, ∃ outcomes found,
      sim.samples wires ops n = (outcomes.map .ok, (sim.counts wires ops n).2) ∧
      (sim.counts wires ops n).1 = .ok found ∧ IsHistogram found outcomes ∧
      (found.map Prod.snd).sum = n ∧
      (∀ entry ∈ found, entry.1 < 2 ^ wires ∧ 0 < entry.2 ∧ entry.2 ≤ n) ∧
      ∀ m, ∃ further total,
        ((sim.counts wires ops n).2.counts wires ops m).1 = .ok further ∧
        sim.counts wires ops (n + m) =
          (.ok total, ((sim.counts wires ops n).2.counts wires ops m).2) ∧
        ∀ basis, countOf total basis = countOf found basis + countOf further basis) ∧
    ∀ error, sim.prepare wires ops = .error error →
      sim.sample wires ops = (.error error, sim) ∧
      ∀ n, sim.counts wires ops n = (.error error, sim) := by
  constructor
  · intro state h n
    have hcounts := counts_eq_of_prepare h n
    have hist := isHistogram_drawOutcomes state.probabilities n sim.generator
    have hlength := length_drawOutcomes state.probabilities n sim.generator
    refine ⟨_, _, ?_, congrArg Prod.fst hcounts, hist, hist.sum_eq.trans hlength, ?_, ?_⟩
    · rw [hcounts]
      exact samples_of_prepare h n
    · intro entry hmem
      obtain ⟨hpos, hcount⟩ := (hist.mem_iff entry.1 entry.2).mp hmem
      refine ⟨?_, hpos, ?_⟩
      · rw [← Nat.one_shiftLeft]
        exact lt_of_mem_drawOutcomes (basisSize_pos wires) _ _ _ _ (hist.mem_outcomes hmem)
      · rw [hcount]
        exact List.count_le_length.trans hlength.le
    · intro m
      have hfurther := counts_counts_of_prepare h n m
      have htotal := isHistogram_drawOutcomes state.probabilities (n + m) sim.generator
      rw [drawOutcomes_add] at htotal
      refine ⟨_, _, congrArg Prod.fst hfurther, ?_,
        hist.countOf_append (isHistogram_drawOutcomes _ m _) htotal⟩
      rw [hfurther, counts_eq_of_prepare h (n + m), drawOutcomes_add]
  · intro error h
    have hprobabilities : sim.probabilities wires ops = .error error := by
      unfold probabilities
      rw [h]
      rfl
    constructor
    · unfold sample
      rw [hprobabilities]
    · intro n
      unfold counts
      rw [hprobabilities]

/-- A hundred shots of a circuit of seven wires, on a simulator that accepts them and on one
that does not. -/
theorem counts_eq_histogram_toffoliAndSwap :
    ∃ ops, Grid.toffoliAndSwap.compile = .ok ops ∧
      (∃ found, ((ofGenerator (SeededDraws.ofSeed 7)).counts 7 ops 100).1 = .ok found ∧
        (found.map Prod.snd).sum = 100) ∧
      (withLimit 3 (SeededDraws.ofSeed 7)).counts 7 ops 100 =
        (.error (.tooManyWires 7 3), withLimit 3 (SeededDraws.ofSeed 7)) := by
  have hlinks : Grid.toffoliAndSwap.Each Column.LinkExclusive := by
    show ∀ column : Fin 1, (Grid.toffoliAndSwap.columnAt column).LinkExclusive
    decide
  obtain ⟨_, _, hcompile⟩ := Grid.toffoliAndSwap.compile_eq_ok hlinks
  have hwell := Grid.wellFormed_of_compile hlinks hcompile
  obtain ⟨state, hstate⟩ :=
    prepare_eq_ok (ofGenerator (SeededDraws.ofSeed 7)) Grid.toffoliAndSwap.wires_le hwell
  obtain ⟨_, found, _, hfound, _, hsum, _⟩ := (counts_eq_histogram _ _ _).1 state hstate 100
  exact ⟨_, hcompile, ⟨found, hfound, hsum⟩, ((counts_eq_histogram _ _ _).2 _ rfl).2 100⟩

end Simulator

end CircuitGrid
