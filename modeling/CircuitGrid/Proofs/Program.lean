import CircuitGrid.CommandLine.Program
import CircuitGrid.Proofs.LinkEdits
import CircuitGrid.Proofs.Replay
import CircuitGrid.Proofs.Simulable

/-!
# What can go wrong in a run of the program

A command fails for what it is given: its files, its settings, its script. Once
the script is replayed, nothing fails any more. The grid of a session is
link-exclusive, so it compiles, and the simulator accepts what it compiles to.

The failures and the values of a program are described alike: it is a program whose results are
taken from those with a property (`FailsOnly`, `Returns`).
-/

namespace CircuitGrid

/-! ## Failures of a program -/

section Failing

variable {m : Type → Type} [Monad m] {σ τ : Type} {P : Failure → Prop}

/-- A program that fails for reasons in `P` only: it is a program whose failures are taken
from these. -/
def FailsOnly (P : Failure → Prop) (program : ExceptT Failure m τ) : Prop :=
  ∃ narrow : m (Except { failure // P failure } τ),
    program.run = Except.mapError Subtype.val <$> narrow

variable [LawfulMonad m]

theorem FailsOnly.pure (value : τ) : FailsOnly P (pure value : ExceptT Failure m τ) := by
  refine ⟨Pure.pure (.ok value), ?_⟩
  rw [map_pure]
  rfl

theorem FailsOnly.throw {failure : Failure} (h : P failure) :
    FailsOnly P (throw failure : ExceptT Failure m τ) := by
  refine ⟨Pure.pure (.error ⟨failure, h⟩), ?_⟩
  rw [map_pure]
  rfl

/-- A step of the surroundings does not fail. -/
theorem FailsOnly.lift (step : m τ) : FailsOnly P (liftM step : ExceptT Failure m τ) := by
  refine ⟨Except.ok <$> step, ?_⟩
  rw [Functor.map_map]
  rfl

theorem FailsOnly.bind {first : ExceptT Failure m σ} {rest : σ → ExceptT Failure m τ}
    (hfirst : FailsOnly P first) (hrest : ∀ value, FailsOnly P (rest value)) :
    FailsOnly P (first >>= rest) := by
  obtain ⟨narrow, hnarrow⟩ := hfirst
  -- for each value of the first part, the rest has failures from `P` only
  choose narrowRest hnarrowRest using hrest
  refine ⟨narrow >>= fun result => match result with
    | .ok value => narrowRest value
    | .error failure => Pure.pure (.error failure), ?_⟩
  rw [ExceptT.run_bind, hnarrow, bind_map_left, map_bind]
  congr 1
  funext result
  cases result with
  | ok value => exact hnarrowRest value
  | error failure =>
    dsimp only
    rw [map_pure]
    rfl

/-- After a pure step, the program fails as the result of the step says, or later. -/
theorem FailsOnly.bind_result {result : Except Failure σ} {rest : σ → ExceptT Failure m τ}
    (herror : ∀ failure, result = .error failure → P failure)
    (hrest : ∀ value, result = .ok value → FailsOnly P (rest value)) :
    FailsOnly P (ExceptT.mk (Pure.pure result) >>= rest) := by
  cases result with
  | ok value =>
    show FailsOnly P (Pure.pure value >>= rest)
    rw [pure_bind]
    exact hrest value rfl
  | error failure =>
    refine ⟨Pure.pure (.error ⟨failure, herror failure rfl⟩), ?_⟩
    rw [ExceptT.run_bind, ExceptT.run_mk, pure_bind, map_pure]
    rfl

end Failing

/-! ## Values of a program -/

section Returning

variable {m : Type → Type} [Monad m] {σ τ : Type} {P : τ → Prop}

/-- A program that returns values with a property only: it is a program whose values are taken
from these. -/
def Returns (P : τ → Prop) (program : ExceptT Failure m τ) : Prop :=
  ∃ narrow : m (Except Failure { value // P value }),
    program.run = Except.map Subtype.val <$> narrow

variable [LawfulMonad m]

theorem Returns.pure {value : τ} (h : P value) :
    Returns P (pure value : ExceptT Failure m τ) := by
  refine ⟨Pure.pure (.ok ⟨value, h⟩), ?_⟩
  rw [map_pure]
  rfl

theorem Returns.throw (failure : Failure) : Returns P (throw failure : ExceptT Failure m τ) := by
  refine ⟨Pure.pure (.error failure), ?_⟩
  rw [map_pure]
  rfl

theorem Returns.trivial (program : ExceptT Failure m τ) : Returns (fun _ => True) program := by
  refine ⟨Except.map (fun value => ⟨value, True.intro⟩) <$> program.run, ?_⟩
  rw [Functor.map_map]
  refine (id_map program.run).symm.trans (congrArg (· <$> program.run) ?_)
  funext result
  cases result <;> rfl

theorem Returns.imp {Q : τ → Prop} {program : ExceptT Failure m τ} (h : Returns P program)
    (himp : ∀ value, P value → Q value) : Returns Q program := by
  obtain ⟨narrow, hnarrow⟩ := h
  refine ⟨Except.map (fun value => ⟨value.val, himp _ value.property⟩) <$> narrow, ?_⟩
  rw [hnarrow, Functor.map_map]
  congr 1
  funext result
  cases result <;> rfl

theorem Returns.bind {Q : σ → Prop} {first : ExceptT Failure m σ}
    {rest : σ → ExceptT Failure m τ} (hfirst : Returns Q first)
    (hrest : ∀ value, Q value → Returns P (rest value)) : Returns P (first >>= rest) := by
  obtain ⟨narrow, hnarrow⟩ := hfirst
  -- for each value of the first part, the rest returns values with the property only
  choose narrowRest hnarrowRest using hrest
  refine ⟨narrow >>= fun result => match result with
    | .ok value => narrowRest value.val value.property
    | .error failure => Pure.pure (.error failure), ?_⟩
  rw [ExceptT.run_bind, hnarrow, bind_map_left, map_bind]
  congr 1
  funext result
  cases result with
  | ok value => exact hnarrowRest value.val value.property
  | error failure =>
    dsimp only
    rw [map_pure]
    rfl

/-- After a pure step, the program goes on with its result, or returns nothing. -/
theorem Returns.bind_result {result : Except Failure σ} {rest : σ → ExceptT Failure m τ}
    (hrest : ∀ value, result = .ok value → Returns P (rest value)) :
    Returns P (ExceptT.mk (Pure.pure result) >>= rest) := by
  cases result with
  | ok value =>
    show Returns P (Pure.pure value >>= rest)
    rw [pure_bind]
    exact hrest value rfl
  | error failure =>
    refine ⟨Pure.pure (.error failure), ?_⟩
    rw [ExceptT.run_bind, ExceptT.run_mk, pure_bind, map_pure]
    rfl

end Returning

/-! ## Loading and choosing a key -/

/-- The failure is about what the program was given: a file, a setting, or the text of a
script, whose commands it has not begun to carry out. -/
def Failure.OfInput : Failure → Prop
  | .session (.command _ _) => False
  | .compilation _ => False
  | .simulation _ => False
  | _ => True

section Loading

variable {m : Type → Type} [Monad m] [LawfulMonad m] (host : Host m)

theorem failsOnly_loadFrom (path : String) : FailsOnly Failure.OfInput (loadFrom host path) := by
  unfold loadFrom
  refine .bind (.lift _) fun found => ?_
  cases found with
  | error error => exact .throw trivial
  | ok text =>
    dsimp only
    cases Settings.ofConfiguration text.toList with
    | error error => exact .throw trivial
    | ok settings => exact .pure settings

theorem failsOnly_loadSettings (named : Option String) :
    FailsOnly Failure.OfInput (loadSettings host named) := by
  unfold loadSettings
  cases named with
  | some path => exact failsOnly_loadFrom host path
  | none =>
    cases host.home with
    | none => exact .pure Settings.default
    | some home =>
      refine .bind (.lift _) fun found => ?_
      cases found with
      | ok bytes => exact failsOnly_loadFrom host _
      | error error =>
        dsimp only
        split
        · exact .pure Settings.default
        · exact failsOnly_loadFrom host _

theorem failsOnly_resolveSettings (named : Option String) (overrides : Overrides Float) :
    FailsOnly Failure.OfInput (resolveSettings host named overrides) := by
  unfold resolveSettings
  refine .bind (failsOnly_loadSettings host named) fun settings => ?_
  cases (settings.override overrides).validate with
  | error error => exact .throw trivial
  | ok settings => exact .pure settings

theorem failsOnly_loadScript (source : Option ScriptSource) :
    FailsOnly Failure.OfInput (loadScript host source) := by
  cases source with
  | none => exact .throw trivial
  | some source =>
    cases source with
    | text script => exact .pure script
    | file path =>
      refine .bind (.lift _) fun found => ?_
      cases found with
      | error error => exact .throw trivial
      | ok script => exact .pure script

theorem failsOnly_chooseKey (seed : Option Nat) :
    FailsOnly Failure.OfInput (chooseKey host seed) := by
  cases seed with
  | none => exact .lift _
  | some seed => exact .pure _

/-- The settings of a session are those that were loaded, with what the options replace. -/
theorem returns_resolveSettings (named : Option String) (overrides : Overrides Float) :
    Returns (fun settings => ∃ loaded : Settings Float, settings = loaded.override overrides)
      (resolveSettings host named overrides) := by
  unfold resolveSettings
  refine .bind (.trivial _) fun loaded _ => ?_
  unfold Settings.validate
  split
  · exact .throw _
  · next settings hvalid =>
    refine .pure ⟨loaded, ?_⟩
    split at hvalid
    · cases hvalid
    · split at hvalid
      · cases hvalid
      · exact (Except.ok.inj hvalid).symm

/-- A script that is given as text is the script of the session. -/
theorem returns_loadScript (source : ScriptSource) :
    Returns (fun script => ∀ given, source = .text given → script = given)
      (loadScript host (some source)) := by
  cases source with
  | text script => exact .pure fun given hgiven => ScriptSource.text.inj hgiven
  | file path =>
    refine .bind (.trivial _) fun found _ => ?_
    cases found with
    | error error => exact .throw _
    | ok script => exact .pure nofun

/-- A seed that is given decides the key. -/
theorem returns_chooseKey (seed : Option Nat) :
    Returns (fun key => ∀ n ∈ seed, key = SeededDraws.keyOfSeed n.toUInt64)
      (chooseKey host seed) := by
  cases seed with
  | none => exact (Returns.trivial _).imp fun _ _ => nofun
  | some n =>
    refine .pure ?_
    rintro _ ⟨⟩
    rfl

end Loading

/-! ## Compiling and measuring -/

/-- The default simulator accepts operations on so many wires, whatever it draws from. -/
structure Simulable (wires : Nat) (ops : List (Operation Float)) {G : Type} [Generator G]
    (generator : G) : Prop where
  probabilities : ∃ found, (Simulator.ofGenerator generator).probabilities wires ops = .ok found
  counts : ∀ shots, ∃ found,
    ((Simulator.ofGenerator generator).counts wires ops shots).1 = .ok found
  measure : ∀ shots, ∃ found, measure generator wires ops shots = .ok found

theorem simulable_of_wellFormed {wires : Nat} (hwires : wires ≤ maxWires)
    {ops : List (Operation Float)} (hops : ∀ op ∈ ops, op.WellFormed wires) {G : Type}
    [Generator G] (generator : G) : Simulable wires ops generator := by
  obtain ⟨state, hstate⟩ := Simulator.prepare_eq_ok (Simulator.ofGenerator generator) hwires hops
  have hprobabilities := Simulator.probabilities_of_prepare hstate
  refine ⟨⟨_, hprobabilities⟩, fun shots => ⟨_, Simulator.counts_of_prepare hstate shots⟩, ?_⟩
  intro shots
  unfold CircuitGrid.measure
  dsimp only
  rw [hprobabilities]
  exact ⟨_, rfl⟩

section Sessions

variable {α : Type} [Angle α] {wires columns : Nat}

/-- Whatever is done to an empty grid, it compiles to well-formed operations. -/
theorem exists_compile_run {grid : Grid α wires columns}
    (hgrid : Grid.empty? wires columns = .ok grid) (actions : List (Action α)) :
    ∃ ops, ((Editor.start grid).run actions).grid.compile = .ok ops ∧
      ∀ op ∈ ops, op.WellFormed wires := by
  have hempty : grid.Each Column.LinkExclusive := by
    -- a fresh column has no links
    intro column
    rw [Grid.columnAt_of_empty? hgrid]
    exact .fresh
  have hlinks : ((Editor.start grid).run actions).grid.Each Column.LinkExclusive :=
    Editor.run_each .fresh (fun _ _ _ _ h hchange => h.onColumn hchange) hempty actions
  obtain ⟨opsOf, hcolumns, hcompile⟩ := Grid.compile_eq_ok hlinks
  refine ⟨_, hcompile, ?_⟩
  intro op hop
  obtain ⟨column, -, hmem⟩ := List.mem_flatMap.mp hop
  exact (hcolumns column).2.1 op hmem

end Sessions

variable {settings : Settings Float} {script : String}

/-- A replayed session compiles, and to operations that can be simulated. -/
theorem compileScript_of_replay
    {session : Session Float settings.grid.wires settings.grid.columns}
    (h : replay settings script.toList = .ok session) :
    ∃ ops, session.editor.grid.compile = .ok ops ∧
      compileScript settings script = .ok ⟨_, _, session, ops⟩ ∧
      ∀ op ∈ ops, op.WellFormed settings.grid.wires := by
  obtain ⟨grid, commands, hgrid, -, hrecords⟩ := records_of_replay h
  obtain ⟨ops, hcompile, hops⟩ := exists_compile_run hgrid (commands.map Command.action)
  rw [← hrecords.editor] at hcompile
  refine ⟨ops, hcompile, ?_, hops⟩
  unfold compileScript liftError
  rw [h]
  show (do
    let ops ← session.editor.grid.compile.mapError Failure.compilation
    return CompiledSession.mk _ _ session ops) = _
  rw [hcompile]
  rfl

theorem compileScript_of_replay_error {error : SessionError}
    (h : replay settings script.toList = .error error) :
    compileScript settings script = .error (.session error) := by
  unfold compileScript liftError
  rw [h]
  rfl

/-- If a script cannot be compiled, it could not be read. -/
theorem compileScript_eq_error {failure : Failure}
    (h : compileScript settings script = .error failure) : failure.OfInput := by
  cases hreplay : replay settings script.toList with
  | ok session =>
    obtain ⟨ops, -, hcompiled, -⟩ := compileScript_of_replay hreplay
    rw [hcompiled] at h
    cases h
  | error error =>
    rw [compileScript_of_replay_error hreplay] at h
    cases h
    -- a replay fails for the dimensions or for a token, and for no command
    rcases replay_eq_error_iff.mp hreplay with ⟨-, rfl⟩ | ⟨-, reason, -, rfl⟩
    · trivial
    · trivial

theorem simulable_of_compileScript {compiled : CompiledSession}
    (h : compileScript settings script = .ok compiled) {G : Type} [Generator G] (generator : G) :
    Simulable compiled.wires compiled.ops generator := by
  cases hreplay : replay settings script.toList with
  | ok session =>
    obtain ⟨ops, -, hcompiled, hops⟩ := compileScript_of_replay hreplay
    rw [hcompiled] at h
    cases h
    exact simulable_of_wellFormed session.editor.grid.wires_le hops generator
  | error error =>
    rw [compileScript_of_replay_error hreplay] at h
    cases h

/-! ## The commands -/

/-- A compiled session is measured and reported without fail. -/
theorem failsOnly_measure {m : Type → Type} [Monad m] [LawfulMonad m]
    {compiled : CompiledSession} (h : compileScript settings script = .ok compiled) (shots : Nat)
    {G : Type} [Generator G] (generator : G) (report : Measurements → String) :
    FailsOnly Failure.OfInput (do
      let found ← ExceptT.mk (pure (measure generator compiled.wires compiled.ops shots))
      return report found : ExceptT Failure m String) := by
  obtain ⟨found, hfound⟩ := (simulable_of_compileScript h generator).measure shots
  refine .bind_result (fun failure hfailure => ?_) fun found _ => .pure (report found)
  rw [hfound] at hfailure
  cases hfailure

/-- Whatever its surroundings answer, a command fails for what it is given only. -/
theorem failsOnly_execute {m : Type → Type} [Monad m] [LawfulMonad m] (host : Host m)
    (invocation : Invocation) : FailsOnly Failure.OfInput (execute host invocation) := by
  unfold execute
  cases invocation.request with
  | version => exact .pure versionReport
  | edit source overrides json =>
    refine .bind (failsOnly_resolveSettings host _ _) fun settings => ?_
    refine .bind (failsOnly_loadScript host _) fun script => ?_
    refine .bind_result (fun _ => compileScript_eq_error) fun compiled _ => ?_
    exact .pure _
  | run source overrides seed json =>
    refine .bind (failsOnly_resolveSettings host _ _) fun settings => ?_
    refine .bind (failsOnly_loadScript host _) fun script => ?_
    refine .bind_result (fun _ => compileScript_eq_error) fun compiled hcompiled => ?_
    refine .bind (failsOnly_chooseKey host seed) fun key => ?_
    exact failsOnly_measure hcompiled settings.shots (SeededDraws.ofKey key) _

/-- A replay is total and exact. It fails exactly if no grid has the dimensions, or else
some token names no command, and then for the first such token. Otherwise there is a
session; it records its commands truthfully, its grid compiles, and the default simulator
accepts what it compiles to. So no command of the program fails after its script is
replayed. -/
theorem replay_total (settings : Settings Float) (script : String) :
    (∀ error, replay settings script.toList = .error error ↔
      (¬ settings.grid.Valid ∧
        error = .dimensions (.invalidDimensions settings.grid.wires settings.grid.columns)) ∨
      (settings.grid.Valid ∧ ∃ reason, BadToken settings.rotationStep script.toList reason ∧
        error = .script reason)) ∧
    ((∃ session, replay settings script.toList = .ok session) ↔ settings.grid.Valid ∧
      ∀ token ∈ scriptTokens script.toList, ∃ command : Command Float,
        parseToken settings.rotationStep token = .ok command) ∧
    (∀ session, replay settings script.toList = .ok session → ∃ grid commands ops,
      Grid.empty? settings.grid.wires settings.grid.columns = .ok grid ∧
      List.Forall₂ (fun token command => parseToken settings.rotationStep token = .ok command)
        (scriptTokens script.toList) commands ∧
      session.commands = (scriptTokens script.toList).length ∧
      session.Records grid commands ∧
      session.editor.grid.compile = .ok ops ∧
      compileScript settings script = .ok ⟨_, _, session, ops⟩ ∧
      ∀ {G : Type} [Generator G] (generator : G), Simulable settings.grid.wires ops generator) ∧
    ∀ {m : Type → Type} [Monad m] [LawfulMonad m] (host : Host m) (invocation : Invocation),
      FailsOnly Failure.OfInput (execute host invocation) := by
  refine ⟨fun error => replay_eq_error_iff, exists_replay_eq_ok_iff, ?_,
    fun host => failsOnly_execute host⟩
  intro session hsession
  obtain ⟨grid, commands, hgrid, htokens, hrecords⟩ := records_of_replay hsession
  obtain ⟨ops, hcompile, hcompiled, hops⟩ := compileScript_of_replay hsession
  exact ⟨grid, commands, ops, hgrid, htokens, hrecords.count.trans htokens.length_eq.symm, hrecords,
    hcompile, hcompiled,
    fun generator => simulable_of_wellFormed session.editor.grid.wires_le hops generator⟩

end CircuitGrid
