import CircuitGrid.CommandLine.Arguments
import CircuitGrid.CommandLine.Host
import CircuitGrid.CommandLine.Report
import CircuitGrid.Configuration

/-!
# The program

Running a command: load the settings, read the script, replay it, compile the
grid, simulate it if asked to, and report. The first step that fails decides the
message, and nothing is printed then.
-/

namespace CircuitGrid

/-! ## Failures -/

/-- Why a command failed. -/
inductive Failure where
  | unreadableConfiguration (path : String) (error : FileError)
  | configuration (path : String) (error : ConfigurationError)
  | settings (error : SettingsError)
  | noScript
  | unreadableScript (path : String) (error : FileError)
  | session (error : SessionError)
  | compilation (error : GridError)
  | simulation (error : SimulationError)
  deriving DecidableEq, Repr

/-- The failure in words. -/
def Failure.message : Failure → String
  | .unreadableConfiguration path error =>
    "Failed to read configuration: " ++ path ++ ": " ++ error.message
  | .configuration path error => "In " ++ path ++ ": " ++ error.message
  | .settings error => error.message
  | .noScript => "No edit script given (use --script or --input)"
  | .unreadableScript path error => "Failed to read script: " ++ path ++ ": " ++ error.message
  | .session error => error.message
  | .compilation error => "Grid does not compile: " ++ error.message
  | .simulation error => "Simulation failed: " ++ error.message

/-! ## Loading -/

variable {m : Type → Type} [Monad m]

/-- The settings of a configuration file that must exist. -/
def loadFrom (host : Host m) (path : String) : ExceptT Failure m (Settings Float) := do
  match ← host.readText path with
  | .error error => throw (.unreadableConfiguration path error)
  | .ok text =>
    match Settings.ofConfiguration text.toList with
    | .error error => throw (.configuration path error)
    | .ok settings => return settings

/-- The configuration file in the user's own directory. -/
def userConfiguration (home : String) : String := joinPath (joinPath home ".qbreak") "config.yaml"

/-- The settings of the file that was named, else of the user's own file if there
is one, else the defaults. -/
def loadSettings (host : Host m) (named : Option String) : ExceptT Failure m (Settings Float) := do
  match named, host.home with
  | some path, _ => loadFrom host path
  | none, some home =>
    let path := userConfiguration home
    match ← host.fetch path with
    | .error error => if error.isAbsence then return .default else loadFrom host path
    | .ok _ => loadFrom host path
  | none, none => return .default

/-- The settings of a session, with what the options replace. -/
def resolveSettings (host : Host m) (named : Option String) (overrides : Overrides Float) :
    ExceptT Failure m (Settings Float) := do
  let settings ← loadSettings host named
  match (settings.override overrides).validate with
  | .error error => throw (.settings error)
  | .ok settings => return settings

/-- The script of a session, which must come from somewhere. -/
def loadScript (host : Host m) : Option ScriptSource → ExceptT Failure m String
  | none => throw .noScript
  | some (.text script) => return script
  | some (.file path) => do
    match ← host.readText path with
    | .error error => throw (.unreadableScript path error)
    | .ok script => return script

/-! ## Sessions -/

/-- A failure of a pure step. -/
def liftError {ε τ : Type} (toFailure : ε → Failure) : Except ε τ → Except Failure τ :=
  Except.mapError toFailure

/-- A replayed session with its operations. -/
structure CompiledSession where
  wires : Nat
  columns : Nat
  session : Session Float wires columns
  ops : List (Operation Float)

/-- Replay a script and compile the grid it leaves behind. -/
def compileScript (settings : Settings Float) (script : String) :
    Except Failure CompiledSession := do
  let session ← liftError .session (replay settings script.toList)
  let ops ← liftError .compilation session.editor.grid.compile
  return ⟨_, _, session, ops⟩

/-- Simulate operations: the probabilities, and the counts of as many measurements
as `shots` says. -/
def measure {G : Type} [Generator G] (generator : G) (wires : Nat) (ops : List (Operation Float))
    (shots : Nat) : Except Failure Measurements := do
  let simulator := Simulator.ofGenerator generator
  let probabilities ← liftError .simulation (simulator.probabilities wires ops)
  return ⟨probabilities.toList, (simulator.countShots probabilities shots).1, shots⟩

/-- The key of a seed, or a random one where no seed was given. -/
def chooseKey (host : Host m) : Option Nat → ExceptT Failure m ChaCha.Key
  | some seed => return SeededDraws.keyOfSeed seed.toUInt64
  | none => liftM host.freshKey

/-! ## Commands -/

/-- Run a command; the result is the text it prints. -/
def execute (host : Host m) (invocation : Invocation) : ExceptT Failure m String := do
  match invocation.request with
  | .edit source overrides json =>
    let settings ← resolveSettings host invocation.configuration overrides
    let script ← loadScript host (some source)
    let compiled ← ExceptT.mk (pure (compileScript settings script))
    return if json then editJson compiled.ops else editReport compiled.session compiled.ops
  | .run source overrides seed json =>
    let settings ← resolveSettings host invocation.configuration overrides
    let script ← loadScript host (some source)
    let compiled ← ExceptT.mk (pure (compileScript settings script))
    let key ← chooseKey host seed
    let found ← ExceptT.mk (pure
      (measure (SeededDraws.ofKey key) compiled.wires compiled.ops settings.shots))
    return if json then runJson compiled.wires compiled.columns compiled.ops found
      else runReport compiled.session compiled.ops found
  | .version => return versionReport

end CircuitGrid
