import CircuitGrid.Compile
import CircuitGrid.Drawing
import CircuitGrid.Serialized
import CircuitGrid.Session
import CircuitGrid.Simulation.Simulator
import CircuitGrid.Text.Amount

/-!
# Reports of the commands

What the commands print, as text or as JSON. A report begins with what was done
and the rejected commands, then shows the grid and its operations, and for a
simulation the probabilities and the measurements, of which the first sixteen
are listed.
-/

namespace CircuitGrid

/-! ## Shared parts -/

/-- How many outcomes are listed before the rest is summed up. -/
def maxListed : Nat := 16

/-- Probabilities up to this one are not listed. -/
def leastListed : Float := 1e-12

/-- A line of text. -/
def line (text : String) : String := text ++ "\n"

/-- A percentage with two decimal places, filled up on the left. -/
def percentage (width : Nat) (fraction : Float) : String :=
  String.ofList (padLeft width (writeFixed 2 (fraction * 100.0)))

/-- A bar with one block for every two percent, rounded. -/
def bar (fraction : Float) : String :=
  String.ofList (List.replicate (fraction * 100.0 / 2.0).round.toUInt64.toNat '█')

/-- A basis state as a label. -/
def labelText (state wires : Nat) : String := String.ofList (basisLabel state wires)

/-- The rejected commands, each with its position. -/
def diagnosticLines (diagnostics : List (Nat × EditError)) : String :=
  String.join (diagnostics.map fun (position, error) =>
    line ("  ! step " ++ toString position ++ ": " ++ error.message))

/-- The operations, numbered from one. -/
def operationLines (ops : List (Operation Float)) : String :=
  "\n" ++ line ("Operations (" ++ toString ops.length ++ "):")
    ++ (if ops.isEmpty then line "  (none)" else "")
    ++ String.join (ops.zipIdx.map fun (op, index) =>
      line ("  " ++ String.ofList (padLeft 2 (decimalDigits (index + 1))) ++ ". "
        ++ op.text writeOperationAngle))

/-- The line that stands for the outcomes that are not listed. -/
def unlistedLine (count : Nat) : String :=
  if maxListed < count then line ("  ... and " ++ toString (count - maxListed) ++ " more outcomes")
  else ""

/-- The size of a grid as the reports name it. -/
def sizeText (wires columns : Nat) : String := toString wires ++ "×" ++ toString columns

/-! ## The edit report -/

/-- The report of an edit session. -/
def editReport {wires columns : Nat} (session : Session Float wires columns)
    (ops : List (Operation Float)) : String :=
  line ("→ Editing " ++ sizeText wires columns ++ " grid (" ++ toString session.commands
      ++ " commands)")
    ++ diagnosticLines session.diagnostics ++ "\n" ++ session.editor.grid.text ++ operationLines ops

/-- The operations of an edit session as JSON. -/
def editJson (ops : List (Operation Float)) : String :=
  line (String.ofList ((Json.array (ops.map JsonForm.encode)).pretty 0))

/-! ## The run report -/

/-- What a simulation found. -/
structure Measurements where
  /-- The probability of each basis state. -/
  probabilities : List Float
  /-- The outcomes that occurred, ascending, each with its count. -/
  counts : List (Nat × Nat)
  shots : Nat

/-- The probabilities that are worth listing. -/
def probabilityLines (probabilities : List Float) (wires : Nat) : String :=
  let listed := probabilities.zipIdx.filter fun (p, _) => leastListed < p
  "\n" ++ line "✓ Probabilities:"
    ++ String.join ((listed.take maxListed).map fun (p, state) =>
      line ("  " ++ labelText state wires ++ ": " ++ percentage 6 p ++ "% " ++ bar p))
    ++ unlistedLine listed.length

/-- The outcomes that occurred, the most frequent first. -/
def countLines (counts : List (Nat × Nat)) (shots wires : Nat) : String :=
  let sorted := counts.mergeSort fun a b => b.2 < a.2 || (a.2 = b.2 && a.1 ≤ b.1)
  "\n" ++ line ("✓ Measurements (" ++ toString shots ++ " shots):")
    ++ String.join ((sorted.take maxListed).map fun (state, count) =>
      let fraction := count.toUInt64.toFloat / shots.toUInt64.toFloat
      line ("  " ++ labelText state wires ++ ": "
        ++ String.ofList (padLeft 6 (decimalDigits count)) ++ " (" ++ percentage 5 fraction
        ++ "%) " ++ bar fraction))
    ++ unlistedLine sorted.length

/-- The report of a simulation. -/
def runReport {wires columns : Nat} (session : Session Float wires columns)
    (ops : List (Operation Float)) (found : Measurements) : String :=
  line ("→ Running " ++ sizeText wires columns ++ " grid on " ++ Simulator.name ++ " ("
      ++ toString found.shots ++ " shots)")
    ++ diagnosticLines session.diagnostics ++ "\n" ++ session.editor.grid.text ++ operationLines ops
    ++ probabilityLines found.probabilities wires
    ++ countLines found.counts found.shots wires
    ++ match mostLikely found.probabilities with
      | some state => "\n" ++ line ("  Most likely: " ++ labelText state wires)
      | none => ""

/-- The counts as fields, one per outcome that occurred. -/
def countFields (counts : List (Nat × Nat)) (wires : Nat) : List (String × Json) :=
  counts.map fun (state, count) => (labelText state wires, Json.ofNat count)

/-- The results of a simulation as JSON, every object with sorted keys. -/
def runJson (wires columns : Nat) (ops : List (Operation Float)) (found : Measurements) : String :=
  let report := Json.ofFields
    [("wires", .ofNat wires), ("columns", .ofNat columns),
      ("ops", .array (ops.map JsonForm.encode)),
      ("probabilities", .array (found.probabilities.map Json.ofFloat)),
      ("shots", .ofNat found.shots), ("counts", .ofFields (countFields found.counts wires))]
  line (String.ofList (report.sortKeys.pretty 0))

/-! ## The version report -/

/-- The version of the program. -/
def programVersion : String := "0.3.0"

/-- The report of the version command. -/
def versionReport : String :=
  line ("qbreak v" ++ programVersion ++ " - quantum circuit grid editor")
    ++ "\n"
    ++ line "Components:"
    ++ line "  qbreak-grid         Grid model and compiler"
    ++ line "  qbreak-editor       Cursor-driven edit commands"
    ++ line "  qbreak-adapter-sim  Local statevector simulator"
    ++ line "  qbreak-cli          Command-line interface"
    ++ "\n"
    ++ line "License: Apache-2.0"

/-- What is printed when only the version is asked for. -/
def versionLine : String := line ("qbreak " ++ programVersion)

end CircuitGrid
