import CircuitGrid.Proofs.Replay
import CircuitGrid.Proofs.Scripts

/-!
# Replaying one script after another

Two scripts with a newline between them are one script. Its replay does what the
second script does to the editor that the first one leaves: the commands add up,
and the diagnostics of the second script follow those of the first, at positions
that count the commands of both.
-/

namespace CircuitGrid

/-! ## Reading two scripts -/

section Reading

variable {α : Type} [Angle α] [AngleText α] (step : α)

/-- A newline puts the commands of the text before it in front of those of the text after it. -/
theorem parseScript_append_newline (first second : List Char) :
    parseScript step (first ++ '\n' :: second) = do
      let commands ← parseScript step first
      let commands' ← parseScript step second
      return commands ++ commands' := by
  unfold parseScript
  rw [scriptTokens_append_newline, List.mapM_append]

end Reading

/-! ## Replaying on -/

section Replaying

variable {α : Type} [Angle α] {wires columns : Nat}

/-- Counted from a later position, the same commands are rejected at later positions. -/
theorem rejections_add (position offset : Nat) (editor : Editor α wires columns)
    (commands : List (Command α)) :
    rejections (position + offset) editor commands =
      (rejections position editor commands).map fun rejection =>
        (rejection.1 + offset, rejection.2) := by
  induction commands generalizing position editor with
  | nil => rfl
  | cons command commands ih =>
    have hrest := ih (position + 1) (editor.apply command).2
    rw [Nat.add_right_comm] at hrest
    cases hresult : (editor.apply command).1 with
    | ok outcome => rw [rejections_of_ok hresult, rejections_of_ok hresult, hrest]
    | error error =>
      rw [rejections_of_error hresult, rejections_of_error hresult, hrest, List.map_cons]

/-- The commands of a second list are rejected by the editor that the first list leaves. -/
theorem rejections_append (position : Nat) (editor : Editor α wires columns)
    (first second : List (Command α)) :
    rejections position editor (first ++ second) =
      rejections position editor first ++
        rejections (position + first.length) (editor.run (first.map Command.action)) second := by
  induction first generalizing position editor with
  | nil => rfl
  | cons command first ih =>
    have hrest : rejections (position + 1) (editor.apply command).2 (first ++ second) =
        rejections (position + 1) (editor.apply command).2 first ++
          rejections (position + (command :: first).length)
            (editor.run ((command :: first).map Command.action)) second := by
      rw [ih, List.length_cons, Nat.add_right_comm, Nat.add_assoc]
      rfl
    cases hresult : (editor.apply command).1 with
    | ok outcome =>
      rw [List.cons_append, rejections_of_ok hresult, rejections_of_ok hresult, hrest]
    | error error =>
      rw [List.cons_append, rejections_of_error hresult, rejections_of_error hresult, hrest]
      rfl

end Replaying

/-! ## Replaying two scripts -/

section Scripts

variable {α : Type} [Angle α] [AngleText α]

/-- A script that follows another one behind a newline is replayed on what the other one leaves.
If one of the two cannot be read, the replay fails for that one, and for the first one if neither
can. -/
theorem replay_append_newline {settings : Settings α} (hvalid : settings.grid.Valid)
    (first second : List Char) :
    (∀ reason, parseScript settings.rotationStep first = .error reason →
      replay settings (first ++ '\n' :: second) = .error (.script reason)) ∧
    (∀ commands reason, parseScript settings.rotationStep first = .ok commands →
      parseScript settings.rotationStep second = .error reason →
      replay settings (first ++ '\n' :: second) = .error (.script reason)) ∧
    ∀ commands commands', parseScript settings.rotationStep first = .ok commands →
      parseScript settings.rotationStep second = .ok commands' →
      ∃ session session', replay settings first = .ok session ∧
        replayCommands session.editor commands' = .ok session' ∧
        session.commands = commands.length ∧ session'.commands = commands'.length ∧
        replay settings (first ++ '\n' :: second) = .ok {
          editor := session'.editor
          commands := session.commands + session'.commands
          diagnostics := session.diagnostics ++ session'.diagnostics.map fun rejection =>
            (rejection.1 + session.commands, rejection.2) } := by
  obtain ⟨grid, hgrid⟩ := Grid.empty?_eq_ok (α := α) hvalid.1 hvalid.2
  have hparse := parseScript_append_newline settings.rotationStep first second
  refine ⟨fun reason hfirst => ?_, fun commands reason hfirst hsecond => ?_,
    fun commands commands' hfirst hsecond => ?_⟩
  · rw [hfirst] at hparse
    exact replay_of_parseScript_error hgrid hparse
  · rw [hfirst, hsecond] at hparse
    exact replay_of_parseScript_error hgrid hparse
  · rw [hfirst, hsecond] at hparse
    have hinside := (Editor.cursorInside_start grid).run (commands.map Command.action)
    refine ⟨_, _, replay_of_parseScript_ok hgrid hfirst, replayCommands_eq hinside commands', rfl,
      rfl, ?_⟩
    rw [replay_of_parseScript_ok hgrid hparse, rejections_append, rejections_add,
      List.length_append, List.map_append, Editor.run_append]

/-- A carriage return before the newline and a comment behind it; the second gate does not fit on
the first one, which counts from the beginning of the first script. -/
theorem replay_append_newline_occupied :
    let settings : Settings Float := ⟨⟨2, 1⟩, Radians.defaultStep, 1⟩
    settings.grid.Valid ∧ ∃ session, replay settings ("x c\r".toList ++ '\n' :: "# y\nx".toList) =
      .ok session ∧ session.commands = 3 ∧
        session.diagnostics = [(3, .invalidPlacement 0 0 (.gate .pauliX))] := by
  intro settings
  have hvalid : settings.grid.Valid := by decide
  obtain ⟨-, -, h⟩ := replay_append_newline hvalid "x c\r".toList "# y\nx".toList
  obtain ⟨session, session', hsession, hsession', hcount, hcount', hreplay⟩ :=
    h [.placeX, .toggleControl] [.placeX] rfl rfl
  refine ⟨hvalid, _, hreplay, by rw [hcount, hcount']; rfl, ?_⟩
  have hfirst : (replay settings "x c\r".toList).map Session.diagnostics = .ok [] := by
    decide +kernel
  have hsecond : (do
      let session ← replay settings "x c\r".toList
      let session' ← replayCommands session.editor [.placeX]
      return session'.diagnostics) = .ok [(1, .invalidPlacement 0 0 (.gate .pauliX))] := by
    decide +kernel
  rw [hsession] at hfirst hsecond
  change (do
    let session' ← replayCommands session.editor [.placeX]
    return session'.diagnostics) = _ at hsecond
  rw [hsession'] at hsecond
  rw [Except.ok.inj hfirst, Except.ok.inj hsecond, hcount]
  rfl

end Scripts

end CircuitGrid
