import CircuitGrid.Proofs.BasisLabels
import CircuitGrid.Proofs.Histogram
import CircuitGrid.Proofs.JsonIndented
import CircuitGrid.Proofs.Program
import CircuitGrid.Proofs.RoundTrip

/-!
# The counts of a run report

What a run prints as JSON is read back as an object whose field `counts` has one entry for each
basis state that was observed. The entries stand under the labels of the states. Labels are
ordered as their states, so that sorting the keys leaves the entries in their order and none of
them is lost to another.
-/

namespace CircuitGrid

open Json

/-! ## Looking up sorted fields -/

theorem lookup_map_snd (change : Json → Json) (fields : List (String × Json)) (key : String) :
    (fields.map fun field => (field.1, change field.2)).lookup key =
      (fields.lookup key).map change := by
  induction fields with
  | nil => rfl
  | cons field fields ih =>
    obtain ⟨found, value⟩ := field
    simp only [List.map_cons, List.lookup_cons, ih]
    cases key == found <;> rfl

/-- In an object whose keys are sorted, the fields are looked up as in any other. -/
theorem exists_sortKeys_ofFields {fields : List (String × Json)}
    (h : (fields.map Prod.fst).Nodup) :
    ∃ sorted, (ofFields fields).sortKeys = .object sorted ∧
      ∀ key, field? sorted key = some ((fields.lookup key).map sortKeys) := by
  refine ⟨sortKeysOfFields (fields.map ofEntry), rfl, fun key => ?_⟩
  have hentries : (fields.map ofEntry).map (fun field => (field.1, field.2.sortKeys)) =
      (fields.map fun field => (field.1, field.2.sortKeys)).map ofEntry := by
    rw [List.map_map, List.map_map]
    rfl
  have hkeys : ((fields.map fun field => (field.1, field.2.sortKeys)).map Prod.fst).Nodup := by
    rw [List.map_map]
    exact h
  rw [field?_perm (sortKeysOfFields_perm _), hentries, field?_eq_lookup hkeys, lookup_map_snd]

/-! ## The report is a text of its value -/

/-- The value that a run report stands for, before its keys are sorted. -/
def runFields (wires columns : Nat) (ops : List (Operation Float)) (found : Measurements) :
    List (String × Json) :=
  [("wires", .ofNat wires), ("columns", .ofNat columns),
    ("ops", .array (ops.map JsonForm.encode)),
    ("probabilities", .array (found.probabilities.map Json.ofFloat)),
    ("shots", .ofNat found.shots), ("counts", .ofFields (countFields found.counts wires))]

theorem proper_runFields (wires columns : Nat) (ops : List (Operation Float))
    (found : Measurements) : (ofFields (runFields wires columns ops found)).Proper := by
  refine proper_ofFields ?_
  simp only [runFields, List.forall_mem_cons]
  refine ⟨proper_ofNat wires, proper_ofNat columns,
    .array (List.forall_mem_map.mpr fun op _ => proper_operation fun x _ => proper_ofFloat x),
    .array (List.forall_mem_map.mpr fun p _ => proper_ofFloat p), proper_ofNat found.shots,
    proper_ofFields (List.forall_mem_map.mpr fun entry _ => proper_ofNat entry.2),
    List.forall_mem_nil _⟩

/-- The value that a report is read as. -/
theorem read?_runJson (wires columns : Nat) (ops : List (Operation Float))
    (found : Measurements) :
    read? (runJson wires columns ops found).toList =
      some (ofFields (runFields wires columns ops found)).sortKeys := by
  have hproper := (proper_runFields wires columns ops found).sortKeys
  have htext : (runJson wires columns ops found).toList =
      (ofFields (runFields wires columns ops found)).sortKeys.pretty 0 ++ ['\n'] := by
    unfold runJson line
    rw [String.toList_append, String.toList_ofList]
    rfl
  rw [htext]
  exact read?_pretty hproper 0 (isWhitespace_newLine 0)

/-! ## The field of the counts -/

section Counts

variable {wires : Nat} {counts : List (Nat × Nat)}

/-- The entries that the counts are written as. -/
def countEntries (counts : List (Nat × Nat)) (wires : Nat) : List (JsonText × Json) :=
  counts.map fun entry => (some (basisLabel entry.1 wires), .ofNat entry.2)

theorem ofFields_countFields (counts : List (Nat × Nat)) (wires : Nat) :
    ofFields (countFields counts wires) = .object (countEntries counts wires) := by
  unfold ofFields countFields countEntries labelText
  rw [List.map_map]
  congr 1
  apply List.map_congr_left
  intro entry _
  simp [String.toList_ofList]

/-- Counts that ascend by their states ascend by their labels, and stay as they are when their
keys are sorted. -/
theorem sortKeys_countEntries (hwires : 1 ≤ wires) (hascending : counts.Pairwise (·.1 < ·.1))
    (hlt : ∀ entry ∈ counts, entry.1 < 2 ^ wires) :
    (Json.object (countEntries counts wires)).sortKeys = .object (countEntries counts wires) := by
  have hsorted : (countEntries counts wires).Pairwise
      fun field other => field.1.getD [] < other.1.getD [] := by
    refine List.pairwise_map.mpr (hascending.imp_of_mem ?_)
    intro entry other hentry hother hless
    exact (basisLabel_lt_iff hwires (hlt entry hentry) (hlt other hother)).mpr hless
  rw [sortKeys, sortKeysOfFields_of_sorted hsorted, countEntries, List.map_map]
  rfl

end Counts

/-- The text is read as an object whose counts are the histogram of the outcomes, under the
labels of their states. No two entries share a label, and their values add up to the shots. -/
def ReportsCounts (text : String) (wires shots : Nat) (outcomes : List Nat) : Prop :=
  ∃ fields found, read? text.toList = some (.object fields) ∧
    field? fields "shots" = some (some (.ofNat shots)) ∧
    field? fields "counts" = some (some (.object
      (found.map fun entry => (some (basisLabel entry.1 wires), .ofNat entry.2)))) ∧
    IsHistogram found outcomes ∧ (found.map fun entry => basisLabel entry.1 wires).Nodup ∧
    (found.map Prod.snd).sum = shots

theorem reportsCounts_runJson {wires : Nat} (hwires : 1 ≤ wires) (columns : Nat)
    (ops : List (Operation Float)) {found : Measurements} {outcomes : List Nat}
    (hhistogram : IsHistogram found.counts outcomes)
    (hlt : ∀ outcome ∈ outcomes, outcome < 2 ^ wires) (hlength : outcomes.length = found.shots) :
    ReportsCounts (runJson wires columns ops found) wires found.shots outcomes := by
  have hstates : ∀ entry ∈ found.counts, entry.1 < 2 ^ wires :=
    fun entry hentry => hlt _ (hhistogram.mem_outcomes hentry)
  have hkeys : ((runFields wires columns ops found).map Prod.fst).Nodup := by
    show ["wires", "columns", "ops", "probabilities", "shots", "counts"].Nodup
    decide
  obtain ⟨sorted, hsorted, hlookup⟩ := exists_sortKeys_ofFields hkeys
  have hread := read?_runJson wires columns ops found
  rw [hsorted] at hread
  refine ⟨sorted, found.counts, hread, hlookup "shots", ?_, hhistogram, ?_,
    hhistogram.sum_eq.trans hlength⟩
  · rw [hlookup]
    show some (some (ofFields (countFields found.counts wires)).sortKeys) = _
    rw [ofFields_countFields, sortKeys_countEntries hwires hhistogram.ascending hstates]
    rfl
  · have hstates : (found.counts.map Prod.fst).Nodup :=
      List.pairwise_map.mpr (hhistogram.ascending.imp fun hless => Nat.ne_of_lt hless)
    have hlabels := hstates.map (basisLabel_injective wires)
    rwa [List.map_map] at hlabels

/-! ## Measuring a session -/

theorem measure_of_prepare {G : Type} [Generator G] {generator : G} {wires : Nat}
    {ops : List (Operation Float)} {state : StateVector (Amplitude Float) wires}
    (h : (Simulator.ofGenerator generator).prepare wires ops = .ok state) (shots : Nat) :
    measure generator wires ops shots = .ok ⟨state.probabilities.toList,
      Simulator.histogramOf (basisSize wires)
        (drawOutcomes state.probabilities shots generator).1, shots⟩ := by
  unfold measure
  dsimp only
  rw [Simulator.probabilities_of_prepare h]
  simp only [Simulator.countShots, Simulator.tallyShots_eq]
  rfl

section Sessions

variable {G : Type} [Generator G] (generator : G)

/-- The text reports the counts of a session that the script replays to: its grid compiles, the
operations prepare a state, and outcomes are drawn from the probabilities of this state, as many
as the settings say. -/
def ReportsRun (settings : Settings Float) (script : String) (text : String) : Prop :=
  ∃ (session : Session Float settings.grid.wires settings.grid.columns)
    (ops : List (Operation Float))
    (state : StateVector (Amplitude Float) settings.grid.wires),
    replay settings script.toList = .ok session ∧ session.editor.grid.compile = .ok ops ∧
    (Simulator.ofGenerator generator).prepare settings.grid.wires ops = .ok state ∧
    ReportsCounts text settings.grid.wires settings.shots
      (drawOutcomes state.probabilities settings.shots generator).1

/-- Every session that a script replays to is measured and reported, whatever the draws. -/
theorem exists_reportsRun {settings : Settings Float} {script : String}
    {session : Session Float settings.grid.wires settings.grid.columns}
    (h : replay settings script.toList = .ok session) : ∃ ops found,
      compileScript settings script = .ok ⟨_, _, session, ops⟩ ∧
      measure generator settings.grid.wires ops settings.shots = .ok found ∧
      ReportsRun generator settings script
        (runJson settings.grid.wires settings.grid.columns ops found) := by
  obtain ⟨ops, hcompile, hcompiled, hops⟩ := compileScript_of_replay h
  obtain ⟨state, hstate⟩ := Simulator.prepare_eq_ok
    (Simulator.ofGenerator generator) session.editor.grid.wires_le hops
  let outcomes := (drawOutcomes state.probabilities settings.shots generator).1
  have hlt : ∀ outcome ∈ outcomes, outcome < 2 ^ settings.grid.wires := by
    intro outcome hmem
    rw [← Nat.one_shiftLeft]
    exact lt_of_mem_drawOutcomes (basisSize_pos _) _ _ _ outcome hmem
  refine ⟨ops, _, hcompiled, measure_of_prepare hstate settings.shots, session, ops, state, h,
    hcompile, hstate, ?_⟩
  exact reportsCounts_runJson session.editor.grid.wires_pos _ ops
    (Simulator.isHistogram_drawOutcomes state.probabilities settings.shots _) hlt
    (length_drawOutcomes _ _ _)

end Sessions

/-! ## Running the program -/

section Running

variable {m : Type → Type} [Monad m] [LawfulMonad m] (host : Host m)

/-- A compiled session is measured and reported. -/
theorem returns_measure {G : Type} [Generator G] (generator : G) {settings : Settings Float}
    {script : String} {compiled : CompiledSession}
    (h : compileScript settings script = .ok compiled) :
    Returns (ReportsRun generator settings script) (do
      let found ← ExceptT.mk (pure (measure generator compiled.wires compiled.ops settings.shots))
      return runJson compiled.wires compiled.columns compiled.ops found
        : ExceptT Failure m String) := by
  refine .bind_result fun found hfound => .pure ?_
  cases hreplay : replay settings script.toList with
  | error error =>
    rw [compileScript_of_replay_error hreplay] at h
    cases h
  | ok session =>
    obtain ⟨ops, found', hcompiled, hmeasured, hreports⟩ := exists_reportsRun generator hreplay
    rw [hcompiled] at h
    cases h
    rw [hmeasured] at hfound
    cases hfound
    exact hreports

/-- Whatever its surroundings answer, a run that prints JSON prints the counts of the outcomes it
drew. The draws are those of the seed that was given, or else of some key. -/
theorem returns_execute {invocation : Invocation} {source : ScriptSource}
    {overrides : Overrides Float} {seed : Option Nat}
    (h : invocation.request = .run source overrides seed true) :
    Returns (fun text => ∃ (loaded : Settings Float) (script : String) (key : ChaCha.Key),
      (∀ given, source = .text given → script = given) ∧
        (∀ n ∈ seed, key = SeededDraws.keyOfSeed n.toUInt64) ∧
        ReportsRun (SeededDraws.ofKey key) (loaded.override overrides) script text)
      (execute host invocation) := by
  unfold execute
  rw [h]
  refine .bind (returns_resolveSettings host _ _) fun settings ⟨loaded, hsettings⟩ => ?_
  refine .bind (returns_loadScript host source) fun script hscript => ?_
  refine .bind_result fun compiled hcompiled => ?_
  rw [hsettings] at hcompiled ⊢
  refine .bind (returns_chooseKey host seed) fun key hkey => ?_
  refine (returns_measure (SeededDraws.ofKey key) hcompiled).imp fun text hreports => ?_
  exact ⟨loaded, script, key, hscript, hkey, hreports⟩

end Running

/-- A label has one character for each wire, wire `i` at position `wires - 1 - i`, and is a numeral
of its state in base two; labels are ordered as their states and differ where they do. So a run
that prints JSON prints the counts of the outcomes it drew, one entry for each basis state
observed, with values that add up to the shots; and so it does for every session that a script
replays to, whatever the draws. -/
theorem labels_decode_and_count :
    (∀ wires state, 1 ≤ wires → state < 2 ^ wires →
      (basisLabel state wires).length = wires ∧
      (∀ i < wires, (basisLabel state wires)[wires - 1 - i]? =
        some (if state.testBit i then '1' else '0')) ∧
      Nat.ofDigitChars 2 (basisLabel state wires) 0 = state ∧
      ∀ other < 2 ^ wires,
        (basisLabel state wires < basisLabel other wires ↔ state < other) ∧
        (state ≠ other → basisLabel state wires ≠ basisLabel other wires)) ∧
    (∀ {G : Type} [Generator G] (generator : G) (settings : Settings Float) (script : String)
      (session : Session Float settings.grid.wires settings.grid.columns),
      replay settings script.toList = .ok session → ∃ ops found,
        compileScript settings script = .ok ⟨_, _, session, ops⟩ ∧
        measure generator settings.grid.wires ops settings.shots = .ok found ∧
        ReportsRun generator settings script
          (runJson settings.grid.wires settings.grid.columns ops found)) ∧
    ∀ {m : Type → Type} [Monad m] [LawfulMonad m] (host : Host m) (invocation : Invocation)
      (source : ScriptSource) (overrides : Overrides Float) (seed : Option Nat),
      invocation.request = .run source overrides seed true →
      Returns (fun text => ∃ (loaded : Settings Float) (script : String) (key : ChaCha.Key),
        (∀ given, source = .text given → script = given) ∧
          (∀ n ∈ seed, key = SeededDraws.keyOfSeed n.toUInt64) ∧
          ReportsRun (SeededDraws.ofKey key) (loaded.override overrides) script text)
        (execute host invocation) := by
  refine ⟨?_, fun generator settings script session h => exists_reportsRun generator h,
    fun host invocation source overrides seed h => returns_execute host h⟩
  intro wires state hwires h
  refine ⟨length_basisLabel hwires h, fun i hi => getElem?_basisLabel hwires h hi,
    ofDigitChars_basisLabel state wires, fun other h' => ⟨basisLabel_lt_iff hwires h h', ?_⟩⟩
  exact fun hne heq => hne (basisLabel_injective wires heq)

/-- Two shots of a wire that is flipped, on a machine without files: the counts are printed. The
labels of two states of three wires are in order, and each says which wires are set. -/
theorem labels_decode_and_count_flipped :
    let host : Host Id := ⟨none, none, fun _ => .error .notFound, 0⟩
    let overrides : Overrides Float := ⟨some 1, some 1, none, some 2⟩
    let invocation : Invocation := ⟨0, none, .run (.text "x") overrides (some 7) true⟩
    (∃ text loaded, (execute host invocation).run = .ok text ∧
      ReportsRun (SeededDraws.ofSeed 7) (Settings.override loaded overrides) "x" text) ∧
    basisLabel 5 3 < basisLabel 6 3 ∧ (basisLabel 6 3)[0]? = some '1' ∧
      (basisLabel 6 3)[2]? = some '0' := by
  intro host overrides invocation
  obtain ⟨hlabels, _, hreturns⟩ := labels_decode_and_count
  obtain ⟨_, hbits, _, _⟩ := hlabels 3 6 (by decide) (by decide)
  obtain ⟨_, _, _, horder⟩ := hlabels 3 5 (by decide) (by decide)
  refine ⟨?_, (horder 6 (by decide)).1.mpr (by decide), hbits 2 (by decide), hbits 0 (by decide)⟩
  obtain ⟨narrow, hnarrow⟩ := hreturns host invocation (.text "x") overrides (some 7) rfl
  have hprints : ((execute host invocation).run : Except Failure String).isOk = true := by
    decide +kernel
  cases narrow with
  | error failure =>
    rw [hnarrow] at hprints
    cases hprints
  | ok returned =>
    obtain ⟨text, loaded, script, key, hscript, hkey, hreports⟩ := returned
    rw [hscript "x" rfl, hkey 7 rfl] at hreports
    exact ⟨text, loaded, hnarrow, hreports⟩

end CircuitGrid
