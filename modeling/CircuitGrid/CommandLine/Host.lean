import CircuitGrid.Simulation.Draw

/-!
# What the program needs from its surroundings

The program reads files and the environment through a `Host`, in any monad, so
that the same definitions run on a real machine and on a table of files.
-/

namespace CircuitGrid

/-- Why a file could not be read. -/
inductive FileError where
  | notFound
  | notDirectory
  | isDirectory
  | notUtf8
  | other (reason : String)
  deriving DecidableEq, Repr

namespace FileError

/-- The error in words. -/
def message : FileError → String
  | .notFound => "No such file or directory (os error 2)"
  | .notDirectory => "Not a directory (os error 20)"
  | .isDirectory => "Is a directory (os error 21)"
  | .notUtf8 => "stream did not contain valid UTF-8"
  | .other reason => reason

/-- Whether the path leads nowhere. -/
def isAbsence : FileError → Bool
  | .notFound | .notDirectory => true
  | _ => false

end FileError

/-- The surroundings of the program. -/
structure Host (m : Type → Type) where
  /-- The configuration file that the environment names. -/
  configuration : Option String
  /-- The user's own directory. -/
  home : Option String
  /-- The bytes of a file. -/
  fetch : String → m (Except FileError ByteArray)
  /-- Random bits, for measurements that were given no seed. -/
  freshSeed : m UInt64

/-- A random key. -/
def Host.freshKey {m : Type → Type} [Monad m] (host : Host m) : m ChaCha.Key := do
  let first ← host.freshSeed
  let second ← host.freshSeed
  let third ← host.freshSeed
  let fourth ← host.freshSeed
  return .ofLongWords #v[first, second, third, fourth]

/-- The text of a file. -/
def Host.readText {m : Type → Type} [Monad m] (host : Host m) (path : String) :
    m (Except FileError String) := do
  match ← host.fetch path with
  | .error error => return .error error
  | .ok bytes =>
    match String.fromUTF8? bytes with
    | some text => return .ok text
    | none => return .error .notUtf8

/-- A path one name further down. -/
def joinPath (directory name : String) : String :=
  if directory.endsWith "/" then directory ++ name else directory ++ "/" ++ name

end CircuitGrid
