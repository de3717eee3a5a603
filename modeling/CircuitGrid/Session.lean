import CircuitGrid.Edit.Editor
import CircuitGrid.Edit.Script
import CircuitGrid.Settings

/-!
# Sessions: replaying a script

A session starts from an empty grid and applies the commands of a script in
order. A rejected command is noted as a diagnostic with its position, counted
from one, and the session goes on.
-/

namespace CircuitGrid

/-- Why a script cannot be replayed. -/
inductive SessionError where
  /-- No grid has the dimensions asked for. -/
  | dimensions (error : GridError)
  /-- A token names no command. -/
  | script (error : EditError)
  /-- A command failed for another reason than a rejection. -/
  | command (position : Nat) (error : EditError)
  deriving DecidableEq, Repr

/-- The error in words. -/
def SessionError.message : SessionError → String
  | .dimensions error => "Invalid grid dimensions: " ++ error.message
  | .script error => error.message
  | .command position error =>
    "Command " ++ toString position ++ " failed: " ++ error.message

/-- A replayed script. -/
structure Session (α : Type) (wires columns : Nat) where
  /-- The editor after the last command. -/
  editor : Editor α wires columns
  /-- How many commands were applied. -/
  commands : Nat
  /-- The rejected commands by position, each with the reason. -/
  diagnostics : List (Nat × EditError)

variable {α : Type} [Angle α]

/-- Apply commands in order, the first one at the given position. -/
def applyFrom {wires columns : Nat} (position : Nat) (editor : Editor α wires columns) :
    List (Command α) → Except SessionError (Editor α wires columns × List (Nat × EditError))
  | [] => .ok (editor, [])
  | command :: commands =>
    match editor.apply command with
    | (.ok _, editor) => applyFrom (position + 1) editor commands
    | (.error error, editor) =>
      if error.isRecoverable then do
        let (editor, diagnostics) ← applyFrom (position + 1) editor commands
        return (editor, (position, error) :: diagnostics)
      else .error (.command position error)

/-- Apply commands in order and collect the diagnostics. -/
def replayCommands {wires columns : Nat} (editor : Editor α wires columns)
    (commands : List (Command α)) : Except SessionError (Session α wires columns) := do
  let (editor, diagnostics) ← applyFrom 1 editor commands
  return ⟨editor, commands.length, diagnostics⟩

/-- Replay a script on an empty grid of the size that the settings ask for. The
dimensions are checked before the script is read. -/
def replay [AngleText α] (settings : Settings α) (script : List Char) :
    Except SessionError (Session α settings.grid.wires settings.grid.columns) := do
  let grid ← (Grid.empty? settings.grid.wires settings.grid.columns).mapError .dimensions
  let commands ← (parseScript settings.rotationStep script).mapError .script
  replayCommands (.start grid) commands

end CircuitGrid
