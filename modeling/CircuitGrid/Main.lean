import CircuitGrid.CommandLine.Program

/-!
# The command line

Reads the arguments, the environment and the files of the machine, runs the
program, and prints what it reports.
-/

namespace CircuitGrid

/-- Why reading a file failed, by the number that the system gives, which may
come negated. -/
def fileErrorOf : IO.Error → FileError
  | .noFileOrDirectory .. => .notFound
  | .inappropriateType file code details =>
    if code = 20 ∨ code = -20 then .notDirectory
    else if code = 21 ∨ code = -21 then .isDirectory
    else .other (toString (IO.Error.inappropriateType file code details))
  | error => .other (toString error)

/-- A number made of eight random bytes. -/
def randomSeed : IO UInt64 := do
  let bytes ← IO.getRandomBytes 8
  return (bytes.toList.foldl (fun (n : Nat) (byte : UInt8) => 256 * n + byte.toNat) 0).toUInt64

/-- The machine that the program runs on. -/
def machine : IO (Host IO) := do
  let home ← IO.getEnv "HOME"
  return {
    configuration := ← IO.getEnv "QBREAK_CONFIG"
    home := home.filter (!·.isEmpty)
    fetch := fun path => do
      try return .ok (← IO.FS.readBinFile path)
      catch error => return .error (fileErrorOf error)
    freshSeed := randomSeed }

/-- A summary of the usage. -/
def usageText : String :=
  "Usage: qbreak [-v] [--config FILE] edit|run|version [OPTIONS]\n"

/-- Run the program on its arguments; the result is its exit status. -/
def runProgram (args : List String) : IO UInt32 := do
  let host ← machine
  match Invocation.ofArguments? host.configuration args with
  | .error .usage =>
    IO.eprint usageText
    return 2
  | .error .version =>
    IO.print versionLine
    return 0
  | .error .help =>
    IO.print usageText
    return 0
  | .ok invocation =>
    match ← (execute host invocation).run with
    | .ok text =>
      IO.print text
      return 0
    | .error failure =>
      IO.eprintln ("Error: " ++ failure.message)
      return 1

end CircuitGrid

/-- The entry point of the program. -/
def main (args : List String) : IO UInt32 := CircuitGrid.runProgram args
