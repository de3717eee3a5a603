import CircuitGrid.Proofs.Emission
import CircuitGrid.Proofs.OperationUpdate
import CircuitGrid.Simulation.Simulator

/-!
# What a link-exclusive grid compiles to can be simulated

The simulator refuses an operation for two reasons only: a wire that is not one
of the state, or a swap without its second wire. A well-formed operation gives it
neither, so a circuit of well-formed operations has a state, and with it
probabilities, samples and counts.
-/

namespace CircuitGrid

/-! ## Applying well-formed operations -/

/-- A well-formed operation has all the wires it needs. -/
theorem Operation.WellFormed.applicable {α : Type} {op : Operation α} {n : Nat}
    (h : op.WellFormed n) : op.Applicable n := by
  refine ⟨?_, h.in_range _ ?_, ?_, ?_⟩
  · intro wire hmem
    exact h.in_range wire (List.mem_append_left _ hmem)
  · exact List.mem_append_right _ List.mem_cons_self
  · intro wire hsecond
    exact h.in_range wire (op.mem_wires_of_second hsecond)
  · intro hswap
    exact h.partner.trans hswap

namespace StateVector

variable {α R : Type} {n : Nat} [Add R] [Mul R] (matrixOf : Primitive α → Matrix R)

theorem apply_eq_ok {op : Operation α} (h : op.WellFormed n) (state : StateVector R n) :
    ∃ next, apply matrixOf op state = .ok next :=
  ⟨_, apply_of_applicable matrixOf h.applicable state⟩

theorem applyAll_eq_ok {ops : List (Operation α)} (h : ∀ op ∈ ops, op.WellFormed n)
    (state : StateVector R n) : ∃ final, applyAll matrixOf ops state = .ok final :=
  exists_foldlM_eq_ok (fun _ hmem start => apply_eq_ok matrixOf (h _ hmem) start) state

end StateVector

/-! ## Measuring -/

theorem StateVector.get_probabilities {ρ : Type} [Scalar ρ] {n : Nat}
    (state : StateVector (Amplitude ρ) n) (i : Fin (basisSize n)) :
    state.probabilities.get i = (state.get i).normSq :=
  Vector.getElem_map _ i.isLt

namespace Simulator

variable {G ρ : Type} [Scalar ρ] {sim : Simulator G} {wires : Nat} {ops : List (Operation ρ)}

/-- Well-formed operations on no more wires than the simulator accepts have a state. -/
theorem prepare_eq_ok (sim : Simulator G) (hlimit : wires ≤ sim.limit)
    (h : ∀ op ∈ ops, op.WellFormed wires) :
    ∃ state, sim.prepare wires ops = .ok state := by
  obtain ⟨state, hstate⟩ := StateVector.applyAll_eq_ok Primitive.matrix h
    (StateVector.ground (R := Amplitude ρ) wires)
  refine ⟨state, ?_⟩
  unfold prepare
  rw [if_neg (Nat.not_lt.mpr hlimit)]
  exact hstate

theorem probabilities_of_prepare {state : StateVector (Amplitude ρ) wires}
    (h : sim.prepare wires ops = .ok state) :
    sim.probabilities wires ops = .ok state.probabilities := by
  unfold probabilities
  rw [h]
  rfl

variable [Generator G]

/-- A sample takes one draw from the generator. -/
theorem sample_eq_of_prepare {state : StateVector (Amplitude ρ) wires}
    (h : sim.prepare wires ops = .ok state) :
    sim.sample wires ops =
      (.ok (drawOutcome state.probabilities (Scalar.ofDraw (Generator.next sim.generator).1)),
        { sim with generator := (Generator.next sim.generator).2 }) := by
  unfold sample
  rw [probabilities_of_prepare h]

theorem sample_of_prepare {state : StateVector (Amplitude ρ) wires}
    (h : sim.prepare wires ops = .ok state) :
    (sim.sample wires ops).1 =
      .ok (drawOutcome state.probabilities (Scalar.ofDraw (Generator.next sim.generator).1)) :=
  congrArg Prod.fst (sample_eq_of_prepare h)

theorem counts_of_prepare {state : StateVector (Amplitude ρ) wires}
    (h : sim.prepare wires ops = .ok state) (shots : Nat) :
    (sim.counts wires ops shots).1 = .ok (sim.countShots state.probabilities shots).1 := by
  unfold counts
  rw [probabilities_of_prepare h]

end Simulator

/-! ## From the grid to the simulator -/

namespace Grid

theorem wellFormed_of_compile {α : Type} [Angle α] {wires columns : Nat}
    {grid : Grid α wires columns} (hlinks : grid.Each Column.LinkExclusive)
    {ops : List (Operation α)} (h : grid.compile = .ok ops) : ∀ op ∈ ops, op.WellFormed wires := by
  obtain ⟨opsOf, hcolumns, hcompile⟩ := grid.compile_eq_ok hlinks
  obtain rfl := Except.ok.inj (h.symm.trans hcompile)
  intro op hop
  obtain ⟨column, _, hmem⟩ := List.mem_flatMap.mp hop
  exact (hcolumns column).2.1 op hmem

variable {ρ G : Type} [Angle ρ] [Scalar ρ] [Generator G] {wires columns : Nat}

/-- Nothing fails between a link-exclusive grid and its measurement: each column
compiles to well-formed operations on disjoint wires, the grid to the operations
of its columns in order, and these have a state, probabilities, samples and counts
in the simulator for as many wires as a grid may have. -/
theorem compile_simulable {grid : Grid ρ wires columns} (hlinks : grid.Each Column.LinkExclusive)
    (generator : G) :
    ∃ (opsOf : Fin columns → List (Operation ρ)) (ops : List (Operation ρ)),
      (∀ column, grid.compileColumn column = .ok (opsOf column)) ∧
      ops = (List.finRange columns).flatMap opsOf ∧ grid.compile = .ok ops ∧
      (∀ op ∈ ops, op.WellFormed wires) ∧
      (∀ column, (opsOf column).Pairwise fun op op' => op.wires.Disjoint op'.wires) ∧
      ∃ state, (Simulator.ofGenerator generator).prepare wires ops = .ok state ∧
        (Simulator.ofGenerator generator).probabilities wires ops = .ok state.probabilities ∧
        (∃ outcome, ((Simulator.ofGenerator generator).sample wires ops).1 = .ok outcome) ∧
        ∀ shots, ∃ found, ((Simulator.ofGenerator generator).counts wires ops shots).1 =
          .ok found := by
  obtain ⟨opsOf, hcolumns, hcompile⟩ := grid.compile_eq_ok hlinks
  have hwell := wellFormed_of_compile hlinks hcompile
  obtain ⟨state, hstate⟩ := Simulator.prepare_eq_ok (Simulator.ofGenerator generator)
    grid.wires_le hwell
  refine ⟨opsOf, _, fun column => (hcolumns column).1, rfl, hcompile, hwell,
    fun column => (hcolumns column).2.2, state, hstate, Simulator.probabilities_of_prepare hstate,
    ⟨_, Simulator.sample_of_prepare hstate⟩, ?_⟩
  intro shots
  exact ⟨_, Simulator.counts_of_prepare hstate shots⟩

theorem compile_simulable_toffoliAndSwap :
    toffoliAndSwap.Each Column.LinkExclusive ∧
      ∃ ops, toffoliAndSwap.compile = .ok ops ∧ (∀ op ∈ ops, op.WellFormed 7) ∧
        ∃ state,
          (Simulator.ofGenerator (SeededDraws.ofSeed 7)).prepare 7 ops = .ok state := by
  have hlinks : toffoliAndSwap.Each Column.LinkExclusive := by
    show ∀ column : Fin 1, (toffoliAndSwap.columnAt column).LinkExclusive
    decide
  obtain ⟨_, ops, _, _, hcompile, hwell, _, state, hstate, _⟩ :=
    compile_simulable hlinks (SeededDraws.ofSeed 7)
  exact ⟨hlinks, ops, hcompile, hwell, state, hstate⟩

end Grid

end CircuitGrid
