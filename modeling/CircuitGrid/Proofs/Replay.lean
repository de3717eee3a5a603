import CircuitGrid.Proofs.Outcomes
import CircuitGrid.Proofs.Traversal
import CircuitGrid.Session

/-!
# Replaying commands

From a cursor inside the grid no command fails but by a rejection, so a replay
comes to its end. Its diagnostics are the rejections on the way, and since a
rejected command does nothing, the commands that were not rejected lead to the same
editor when they are replayed alone.
-/

namespace CircuitGrid

/-! ## Leaving commands out -/

section Unlisted

variable {α : Type}

/-- The commands at positions that are not listed, the first command at the given one. -/
def unlisted (position : Nat) (positions : List Nat) (commands : List (Command α)) :
    List (Command α) :=
  ((commands.zipIdx position).filter fun numbered => numbered.2 ∉ positions).map Prod.fst

theorem unlisted_cons_of_mem {position : Nat} {positions : List Nat} (h : position ∈ positions)
    (command : Command α) (commands : List (Command α)) :
    unlisted position positions (command :: commands) =
      unlisted (position + 1) positions commands := by
  unfold unlisted
  rw [List.zipIdx_cons, List.filter_cons_of_neg (by simpa using h)]

theorem unlisted_cons_of_notMem {position : Nat} {positions : List Nat} (h : position ∉ positions)
    (command : Command α) (commands : List (Command α)) :
    unlisted position positions (command :: commands) =
      command :: unlisted (position + 1) positions commands := by
  unfold unlisted
  rw [List.zipIdx_cons, List.filter_cons_of_pos (by simpa using h)]
  rfl

/-- A position before the first one makes no difference. -/
theorem unlisted_cons_positions {position earlier : Nat} (h : earlier < position)
    (positions : List Nat) (commands : List (Command α)) :
    unlisted position (earlier :: positions) commands = unlisted position positions commands := by
  unfold unlisted
  congr 1
  apply List.filter_congr
  rintro ⟨command, place⟩ hmem
  have hplace := List.le_snd_of_mem_zipIdx hmem
  have hne : place ≠ earlier := by
    simp only at hplace
    omega
  simp [hne]

end Unlisted

/-! ## Rejections along the way -/

section Rejections

variable {α : Type} [Angle α] {wires columns : Nat}

/-- The rejected commands by position, the first command at the given one. -/
def rejections (position : Nat) (editor : Editor α wires columns) :
    List (Command α) → List (Nat × EditError)
  | [] => []
  | command :: commands =>
    let rest := rejections (position + 1) (editor.apply command).2 commands
    match (editor.apply command).1 with
    | .ok _ => rest
    | .error error => (position, error) :: rest

section Steps

variable {editor : Editor α wires columns} {command : Command α}

theorem rejections_of_ok {outcome : Outcome} (h : (editor.apply command).1 = .ok outcome)
    (position : Nat) (commands : List (Command α)) :
    rejections position editor (command :: commands) =
      rejections (position + 1) (editor.apply command).2 commands := by
  rw [rejections, h]

theorem rejections_of_error {error : EditError} (h : (editor.apply command).1 = .error error)
    (position : Nat) (commands : List (Command α)) :
    rejections position editor (command :: commands) =
      (position, error) :: rejections (position + 1) (editor.apply command).2 commands := by
  rw [rejections, h]

theorem mem_rejections_cons {position place : Nat} {commands : List (Command α)}
    {error : EditError} :
    (place, error) ∈ rejections position editor (command :: commands) ↔
      (place = position ∧ (editor.apply command).1 = .error error) ∨
      (place, error) ∈ rejections (position + 1) (editor.apply command).2 commands := by
  cases hresult : (editor.apply command).1 with
  | ok outcome =>
    rw [rejections_of_ok hresult]
    simp
  | error found =>
    rw [rejections_of_error hresult, List.mem_cons]
    simp [eq_comm]

end Steps

/-- The rejections are those of the commands in the editors that they meet. -/
theorem mem_rejections_iff {position place : Nat} {editor : Editor α wires columns}
    {commands : List (Command α)} {error : EditError} :
    (place, error) ∈ rejections position editor commands ↔
      ∃ before command after, commands = before ++ command :: after ∧
        place = position + before.length ∧
        ((editor.run (before.map Command.action)).apply command).1 = .error error := by
  induction commands generalizing position editor with
  | nil => simp [rejections]
  | cons command commands ih =>
    rw [mem_rejections_cons, ih]
    constructor
    · rintro (⟨rfl, herror⟩ | ⟨before, other, after, rfl, rfl, herror⟩)
      · exact ⟨[], command, commands, rfl, rfl, herror⟩
      · refine ⟨command :: before, other, after, rfl, ?_, herror⟩
        simp only [List.length_cons]
        omega
    · rintro ⟨before, other, after, hsplit, rfl, herror⟩
      cases before with
      | nil =>
        cases hsplit
        exact Or.inl ⟨rfl, herror⟩
      | cons first before =>
        cases hsplit
        refine Or.inr ⟨before, other, after, rfl, ?_, herror⟩
        simp only [List.length_cons]
        omega

theorem le_of_mem_rejections {position : Nat} {editor : Editor α wires columns}
    {commands : List (Command α)} {rejection : Nat × EditError}
    (h : rejection ∈ rejections position editor commands) : position ≤ rejection.1 := by
  obtain ⟨before, -, -, -, hplace, -⟩ := mem_rejections_iff.mp h
  omega

/-- The rejections come in the order of their positions, and none comes twice. -/
theorem pairwise_rejections (position : Nat) (editor : Editor α wires columns)
    (commands : List (Command α)) :
    (rejections position editor commands).Pairwise fun earlier later => earlier.1 < later.1 := by
  induction commands generalizing position editor with
  | nil => exact .nil
  | cons command commands ih =>
    cases hresult : (editor.apply command).1 with
    | ok outcome =>
      rw [rejections_of_ok hresult]
      exact ih _ _
    | error error =>
      rw [rejections_of_error hresult]
      exact .cons (fun later hlater => le_of_mem_rejections hlater) (ih _ _)

/-- Without the rejected commands the run is the same, and nothing is rejected any more. -/
theorem run_unlisted (position : Nat) (editor : Editor α wires columns)
    (commands : List (Command α)) :
    let kept := unlisted position ((rejections position editor commands).map Prod.fst) commands
    editor.run (kept.map Command.action) = editor.run (commands.map Command.action) ∧
      ∀ first, rejections first editor kept = [] := by
  induction commands generalizing position editor with
  | nil => exact ⟨rfl, fun _ => rfl⟩
  | cons command commands ih =>
    cases hresult : (editor.apply command).1 with
    | ok outcome =>
      -- every rejection comes later, so the command is kept
      have hkept : position ∉
          (rejections (position + 1) (editor.apply command).2 commands).map Prod.fst := by
        intro hmem
        obtain ⟨rejection, hrejection, hplace⟩ := List.mem_map.mp hmem
        have := le_of_mem_rejections hrejection
        omega
      obtain ⟨hrun, hnone⟩ := ih (position + 1) (editor.apply command).2
      rw [rejections_of_ok hresult, unlisted_cons_of_notMem hkept]
      refine ⟨hrun, fun first => ?_⟩
      rw [rejections_of_ok hresult]
      exact hnone _
    | error error =>
      -- the command is left out, and it did nothing
      have hsame : (editor.apply command).2 = editor :=
        (editor.truthful_perform command.action).rejected error hresult
      obtain ⟨hrun, hnone⟩ := ih (position + 1) editor
      rw [rejections_of_error hresult, hsame, List.map_cons,
        unlisted_cons_of_mem List.mem_cons_self, unlisted_cons_positions (Nat.lt_succ_self _)]
      refine ⟨?_, hnone⟩
      rw [hrun, List.map_cons]
      show _ = (editor.apply command).2.run _
      rw [hsame]

/-- A gate on a taken cell is rejected, and so is one on a control. -/
example :
    let editor := Editor.start
      (Grid.ofColumn (Vector.replicate 2 Node.empty) (by decide) : Grid Float 2 1)
    let commands := [.placeX, .placeY, .toggleControl, .navigateDown, .placeH, .delete]
    rejections 1 editor commands =
        [(2, .invalidPlacement 0 0 (.gate .pauliX)), (5, .invalidPlacement 1 0 .control)] ∧
      unlisted 1 [2, 5] commands = [.placeX, .toggleControl, .navigateDown, .delete] := by
  decide

/-! ## Replays -/

/-- What a replayed session says about the commands it was given is true. -/
structure Session.Records (grid : Grid α wires columns) (commands : List (Command α))
    (session : Session α wires columns) : Prop where
  /-- The session counts the commands. -/
  count : session.commands = commands.length
  /-- Its editor is the one after all of them. -/
  editor : session.editor = (Editor.start grid).run (commands.map Command.action)
  /-- The diagnostics are in the order of the commands. -/
  ordered : session.diagnostics.Pairwise fun earlier later => earlier.1 < later.1
  /-- There is one for each command that is rejected by the editor after the commands before it. -/
  rejected : ∀ position error, (position, error) ∈ session.diagnostics ↔
    ∃ before command after, commands = before ++ command :: after ∧
      position = before.length + 1 ∧
      (((Editor.start grid).run (before.map Command.action)).apply command).1 = .error error
  /-- Replayed without the rejected commands, the others lead to the same editor, and none of them
  is rejected. -/
  kept : replayCommands (.start grid) (unlisted 1 (session.diagnostics.map Prod.fst) commands) =
    .ok ⟨session.editor, (unlisted 1 (session.diagnostics.map Prod.fst) commands).length, []⟩

/-- From a cursor inside the grid a replay comes to its end. -/
theorem applyFrom_eq {editor : Editor α wires columns} (h : editor.CursorInside)
    (position : Nat) (commands : List (Command α)) :
    applyFrom position editor commands =
      .ok (editor.run (commands.map Command.action), rejections position editor commands) := by
  induction commands generalizing position editor with
  | nil => rfl
  | cons command commands ih =>
    have hrest : applyFrom (position + 1) (editor.apply command).2 commands =
        .ok (editor.run ((command :: commands).map Command.action),
          rejections (position + 1) (editor.apply command).2 commands) :=
      ih (h.perform command.action) (position + 1)
    cases hresult : (editor.apply command).1 with
    | ok outcome =>
      have happly : editor.apply command = (.ok outcome, (editor.apply command).2) :=
        Prod.ext hresult rfl
      rw [applyFrom, happly, rejections_of_ok hresult]
      exact hrest
    | error error =>
      have happly : editor.apply command = (.error error, (editor.apply command).2) :=
        Prod.ext hresult rfl
      -- nothing but a rejection can have happened
      have hrecoverable : error.isRecoverable = true :=
        (Editor.perform_error_inside h hresult).isRecoverable
      rw [applyFrom, happly, rejections_of_error hresult]
      dsimp only
      rw [if_pos hrecoverable, hrest]
      rfl

theorem replayCommands_eq {editor : Editor α wires columns} (h : editor.CursorInside)
    (commands : List (Command α)) :
    replayCommands editor commands =
      .ok ⟨editor.run (commands.map Command.action), commands.length,
        rejections 1 editor commands⟩ := by
  unfold replayCommands
  rw [applyFrom_eq h]
  rfl

theorem replayCommands_start (grid : Grid α wires columns) (commands : List (Command α)) :
    replayCommands (.start grid) commands =
      .ok ⟨(Editor.start grid).run (commands.map Command.action), commands.length,
        rejections 1 (.start grid) commands⟩ :=
  replayCommands_eq (Editor.cursorInside_start grid) commands

theorem records_replayCommands (grid : Grid α wires columns) (commands : List (Command α)) :
    Session.Records grid commands
      ⟨(Editor.start grid).run (commands.map Command.action), commands.length,
        rejections 1 (.start grid) commands⟩ := by
  obtain ⟨hrun, hnone⟩ := run_unlisted 1 (Editor.start grid) commands
  refine ⟨rfl, rfl, pairwise_rejections _ _ _, ?_, ?_⟩
  · intro position error
    rw [mem_rejections_iff]
    simp only [Nat.add_comm]
  · rw [replayCommands_start, hrun, hnone]

end Rejections

/-! ## Scripts -/

/-- A grid of these dimensions can be made. -/
def Dimensions.Valid (dimensions : Dimensions) : Prop :=
  (0 < dimensions.wires ∧ dimensions.wires ≤ maxWires) ∧
    0 < dimensions.columns ∧ dimensions.columns ≤ maxColumns

instance (dimensions : Dimensions) : Decidable dimensions.Valid :=
  inferInstanceAs (Decidable ((_ ∧ _) ∧ _ ∧ _))

section Scripts

variable {α : Type} [Angle α] [AngleText α] {settings : Settings α} {script : List Char}

theorem replay_of_not_valid (h : ¬ settings.grid.Valid) :
    replay settings script =
      .error (.dimensions (.invalidDimensions settings.grid.wires settings.grid.columns)) := by
  unfold Dimensions.Valid at h
  unfold replay Grid.empty?
  rw [dif_neg h]
  rfl

theorem replay_of_parseScript_error {grid : Grid α settings.grid.wires settings.grid.columns}
    (hgrid : Grid.empty? settings.grid.wires settings.grid.columns = .ok grid) {reason : EditError}
    (hscript : parseScript settings.rotationStep script = .error reason) :
    replay settings script = .error (.script reason) := by
  unfold replay
  rw [hgrid, hscript]
  rfl

theorem replay_of_parseScript_ok {grid : Grid α settings.grid.wires settings.grid.columns}
    (hgrid : Grid.empty? settings.grid.wires settings.grid.columns = .ok grid)
    {commands : List (Command α)}
    (hscript : parseScript settings.rotationStep script = .ok commands) :
    replay settings script =
      .ok ⟨(Editor.start grid).run (commands.map Command.action), commands.length,
        rejections 1 (.start grid) commands⟩ := by
  rw [← replayCommands_start]
  unfold replay
  rw [hgrid, hscript]
  rfl

/-- The first token of a script that names no command, if `reason` is what is wrong with it. -/
def BadToken (step : α) (script : List Char) (reason : EditError) : Prop :=
  ∃ before token after, scriptTokens script = before ++ token :: after ∧
    (∀ earlier ∈ before, ∃ command : Command α, parseToken step earlier = .ok command) ∧
    parseToken step token = .error reason

/-- A replay fails for the dimensions, or else for the first token that names no command. -/
theorem replay_eq_error_iff {error : SessionError} :
    replay settings script = .error error ↔
      (¬ settings.grid.Valid ∧
        error = .dimensions (.invalidDimensions settings.grid.wires settings.grid.columns)) ∨
      (settings.grid.Valid ∧ ∃ reason, BadToken settings.rotationStep script reason ∧
        error = .script reason) := by
  by_cases hvalid : settings.grid.Valid
  · obtain ⟨grid, hgrid⟩ := Grid.empty?_eq_ok (α := α) hvalid.1 hvalid.2
    have hbad : ∀ reason, parseScript settings.rotationStep script = .error reason ↔
        BadToken settings.rotationStep script reason := fun _ => mapM_eq_error_iff
    simp only [hvalid, not_true, false_and, true_and, false_or, ← hbad]
    cases hscript : parseScript settings.rotationStep script with
    | error reason =>
      rw [replay_of_parseScript_error hgrid hscript]
      simp [eq_comm]
    | ok commands =>
      rw [replay_of_parseScript_ok hgrid hscript]
      simp
  · rw [replay_of_not_valid hvalid]
    simp [hvalid, eq_comm]

/-- A replayed session records the commands of its tokens on the grid of its settings. -/
theorem records_of_replay {session : Session α settings.grid.wires settings.grid.columns}
    (h : replay settings script = .ok session) :
    ∃ grid commands, Grid.empty? settings.grid.wires settings.grid.columns = .ok grid ∧
      List.Forall₂ (fun token command => parseToken settings.rotationStep token = .ok command)
        (scriptTokens script) commands ∧
      session.Records grid commands := by
  by_cases hvalid : settings.grid.Valid
  · obtain ⟨grid, hgrid⟩ := Grid.empty?_eq_ok (α := α) hvalid.1 hvalid.2
    cases hscript : parseScript settings.rotationStep script with
    | error reason =>
      rw [replay_of_parseScript_error hgrid hscript] at h
      cases h
    | ok commands =>
      rw [replay_of_parseScript_ok hgrid hscript] at h
      cases h
      exact ⟨grid, commands, hgrid, mapM_eq_ok_iff.mp hscript, records_replayCommands grid commands⟩
  · rw [replay_of_not_valid hvalid] at h
    cases h

/-- A script is replayed exactly if a grid can be made and every token names a command. -/
theorem exists_replay_eq_ok_iff :
    (∃ session, replay settings script = .ok session) ↔ settings.grid.Valid ∧
      ∀ token ∈ scriptTokens script, ∃ command : Command α,
        parseToken settings.rotationStep token = .ok command := by
  constructor
  · rintro ⟨session, h⟩
    obtain ⟨grid, commands, -, htokens, -⟩ := records_of_replay h
    refine ⟨⟨⟨grid.wires_pos, grid.wires_le⟩, grid.columns_pos, grid.columns_le⟩, ?_⟩
    intro token hmem
    obtain ⟨place, hplace, rfl⟩ := List.mem_iff_getElem.mp hmem
    exact ⟨_, htokens.get hplace (htokens.length_eq ▸ hplace)⟩
  · rintro ⟨hvalid, htokens⟩
    obtain ⟨grid, hgrid⟩ := Grid.empty?_eq_ok (α := α) hvalid.1 hvalid.2
    obtain ⟨commands, hscript, -⟩ :=
      exists_mapM_eq_ok (P := fun _ (_ : Command α) => True)
        fun token hmem => (htokens token hmem).imp fun _ h => ⟨h, trivial⟩
    exact ⟨_, replay_of_parseScript_ok hgrid hscript⟩

end Scripts

end CircuitGrid
