import CircuitGrid.Settings

/-!
# Command-line arguments

The arguments name one command, `edit`, `run` or `version`, with its options.
`Invocation.ofArguments?` either understands all of them or says why the program
stops: wrong usage, or a request for its version or its usage.

An option is written `--name value`, `--name=value`, or with its letter as
`-x value`, `-xvalue` or `-x=value`; letters without value may share one dash. A
separate value may not begin with a dash, except that a negative number may be
given to an option that takes one. After `--` nothing but positional arguments
may follow, and no command has any.
-/

namespace CircuitGrid

/-! ## What the arguments ask for -/

/-- Why the program stops before a command is run. -/
inductive Stop where
  | usage
  | version
  | help
  deriving DecidableEq, Repr

/-- Where an edit script comes from. -/
inductive ScriptSource where
  | text (script : String)
  | file (path : String)
  deriving DecidableEq, Repr

/-- A command with its options. -/
inductive Request where
  | edit (source : ScriptSource) (overrides : Overrides Float) (json : Bool)
  | run (source : ScriptSource) (overrides : Overrides Float) (seed : Option Nat) (json : Bool)
  | version

/-- What the arguments ask for as a whole. -/
structure Invocation where
  /-- How often more detail was asked for. -/
  verbosity : Nat
  /-- The configuration file named by an option or by the environment. -/
  configuration : Option String
  request : Request

/-! ## Options -/

/-- What an option is given. -/
inductive Operand where
  /-- Nothing, at most once. -/
  | none
  /-- Nothing, any number of times. -/
  | count
  /-- A value that `accepts` it, at most once. -/
  | value (accepts : List Char → Bool) (negative : Bool)
  /-- Nothing; it stops the program. -/
  | stop (reason : Stop)

/-- An option. -/
structure OptionSpec where
  name : String
  letter : Option Char
  operand : Operand

/-- The options given, in order, each with its value; none but counted ones have
none. -/
abbrev GivenOptions := List (String × List Char)

/-- How often an option was given. -/
def timesGiven (given : GivenOptions) (name : String) : Nat := given.countP (·.1 == name)

/-- The value of an option. -/
def givenValue? (given : GivenOptions) (name : String) : Option (List Char) := given.lookup name

/-- Record an option, unless it was given before or its value is not accepted. -/
def recordOption (given : GivenOptions) (spec : OptionSpec) (value : List Char) :
    Except Stop GivenOptions :=
  let once : Except Stop GivenOptions :=
    if timesGiven given spec.name = 0 then .ok (given ++ [(spec.name, value)]) else .error .usage
  match spec.operand with
  | .none => once
  | .count => .ok (given ++ [(spec.name, value)])
  | .value accepts _ => if accepts value then once else .error .usage
  | .stop reason => .error reason

/-! ## Reading one level of arguments -/

/-- What is known while the arguments are read from left to right. -/
structure ReadState where
  given : GivenOptions
  /-- The option whose value comes next. -/
  pending : Option OptionSpec

/-- An option written with two dashes, and the value attached to it. -/
def readLong (specs : List OptionSpec) (given : GivenOptions) (text : List Char) :
    Except Stop ReadState := do
  let name := text.takeWhile (· ≠ '=')
  let attached := (text.dropWhile (· ≠ '=')).tail?
  match specs.find? fun spec => spec.name.toList == name with
  | none => throw .usage
  | some spec =>
    match spec.operand, attached with
    | .value _ _, some value => return ⟨← recordOption given spec value, none⟩
    | .value _ _, none => return ⟨given, some spec⟩
    | _, some _ => throw .usage
    | _, none => return ⟨← recordOption given spec [], none⟩

/-- Option letters behind one dash. The first that takes a value takes the rest. -/
def readLetters (specs : List OptionSpec) (given : GivenOptions) :
    List Char → Except Stop ReadState
  | [] => .ok ⟨given, none⟩
  | letter :: rest =>
    match specs.find? fun spec => spec.letter == some letter with
    | none => .error .usage
    | some spec =>
      match spec.operand, rest with
      | .value _ _, [] => .ok ⟨given, some spec⟩
      | .value _ _, '=' :: value => (recordOption given spec value).map fun given => ⟨given, none⟩
      | .value _ _, value => (recordOption given spec value).map fun given => ⟨given, none⟩
      | _, _ => recordOption given spec [] >>= fun given => readLetters specs given rest

/-- Whether a text after a minus sign counts as a number: digits with one point
and one exponent letter among them, neither of them first nor the letter last. -/
def looksNumeric (cs : List Char) : Bool :=
  let whole := cs.takeWhile Char.isDigit
  let rest := cs.dropWhile Char.isDigit
  let rest := match rest with
    | '.' :: more => if whole.isEmpty then rest else more.dropWhile Char.isDigit
    | rest => rest
  match rest with
  | [] => true
  | c :: exponent =>
    (c == 'e' || c == 'E') && !whole.isEmpty && !exponent.isEmpty && exponent.all Char.isDigit

/-- Whether the value awaited may be this negative number. -/
def takesNegative (pending : Option OptionSpec) (digits : List Char) : Bool :=
  match pending with
  | some ⟨_, _, .value _ true⟩ => looksNumeric digits
  | _ => false

/-- Read the arguments of one level: options, up to the first argument that names
one of the commands of the level. -/
def readLevel (specs : List OptionSpec) (commands : List String) (state : ReadState) :
    List String → Except Stop (GivenOptions × Option (String × List String))
  | [] => if state.pending.isSome then .error .usage else .ok (state.given, none)
  | arg :: rest =>
    let continueWith (next : Except Stop ReadState) :=
      next >>= fun state => readLevel specs commands state rest
    let asValue :=
      match state.pending with
      | some spec =>
        continueWith ((recordOption state.given spec arg.toList).map fun given => ⟨given, none⟩)
      | none => .error .usage
    let asOption (next : Except Stop ReadState) :=
      if state.pending.isSome then .error .usage else continueWith next
    match arg.toList with
    | ['-', '-'] =>
      if state.pending.isNone && rest.isEmpty then .ok (state.given, none) else .error .usage
    | '-' :: '-' :: name => asOption (readLong specs state.given name)
    | '-' :: letter :: letters =>
      if takesNegative state.pending (letter :: letters) then asValue
      else asOption (readLetters specs state.given (letter :: letters))
    | _ =>
      if state.pending.isNone && commands.contains arg then .ok (state.given, some (arg, rest))
      else asValue

/-! ## The options of the program -/

/-- Whether a text can name a file. -/
def isPath (cs : List Char) : Bool := !cs.isEmpty

/-- A natural number. -/
def naturalOperand : Operand := .value (fun cs => (readNatural? maxWord64 cs).isSome) false

/-- The options of every level. -/
def commonOptions : List OptionSpec :=
  [⟨"verbose", some 'v', .count⟩, ⟨"config", none, .value isPath false⟩,
    ⟨"help", some 'h', .stop .help⟩]

/-- The options before the command. -/
def programOptions : List OptionSpec :=
  commonOptions ++ [⟨"version", some 'V', .stop .version⟩]

/-- The options of a command that replays a script. -/
def sessionOptions : List OptionSpec :=
  commonOptions ++
    [⟨"script", some 's', .value (fun _ => true) false⟩,
      ⟨"input", some 'i', .value isPath false⟩,
      ⟨"wires", none, naturalOperand⟩,
      ⟨"columns", none, naturalOperand⟩,
      ⟨"rotation-step", none, .value (fun cs => (readFloat? cs).isSome) true⟩,
      ⟨"json", none, .none⟩]

/-- The options of the command that simulates. -/
def runOptions : List OptionSpec :=
  sessionOptions ++
    [⟨"shots", none, .value (fun cs => (readSigned? maxWord32 cs).isSome) false⟩,
      ⟨"seed", none, naturalOperand⟩]

/-! ## Understanding the options -/

/-- The script of a session: given as text or as a file, but not both. -/
def scriptSource? (given : GivenOptions) : Option ScriptSource :=
  match givenValue? given "script", givenValue? given "input" with
  | some script, none => some (.text (String.ofList script))
  | none, some path => some (.file (String.ofList path))
  | _, _ => none

/-- The settings that options replace. -/
def overridesOf (given : GivenOptions) : Overrides Float :=
  let natural? (name : String) := (givenValue? given name).bind (readNatural? maxWord64)
  { wires := natural? "wires"
    columns := natural? "columns"
    rotationStep := (givenValue? given "rotation-step").bind readFloat?
    shots := (givenValue? given "shots").bind (readSigned? maxWord32) }

/-- The configuration file at one level: an option comes before the environment,
which must not name an empty path where it counts. -/
def levelConfiguration (environment : Option String) (given : GivenOptions) :
    Except Stop (Option String) :=
  match givenValue? given "config", environment with
  | some path, _ => .ok (some (String.ofList path))
  | none, some path => if path.isEmpty then .error .usage else .ok (some path)
  | none, none => .ok none

/-- What the arguments ask for, given the configuration file that the environment
names.

The options of every level may stand before or after the command, and those
after it come first. -/
def Invocation.ofArguments? (environment : Option String) (args : List String) :
    Except Stop Invocation := do
  match ← readLevel programOptions ["edit", "run", "version", "help"] ⟨[], none⟩ args with
  | (_, none) => throw .usage
  | (outer, some (command, rest)) =>
    let finish (inner : GivenOptions) (request : Request) : Except Stop Invocation := do
      let outerPath ← levelConfiguration environment outer
      let innerPath ← levelConfiguration environment inner
      let verbosity :=
        if timesGiven inner "verbose" = 0 then timesGiven outer "verbose"
        else timesGiven inner "verbose"
      return {
        verbosity := min verbosity 255
        configuration := if (givenValue? inner "config").isSome then innerPath else outerPath
        request }
    match command with
    | "edit" =>
      let (given, _) ← readLevel sessionOptions [] ⟨[], none⟩ rest
      match scriptSource? given with
      | some source =>
        finish given (.edit source (overridesOf given) (timesGiven given "json" ≠ 0))
      | none => throw .usage
    | "run" =>
      let (given, _) ← readLevel runOptions [] ⟨[], none⟩ rest
      match scriptSource? given with
      | some source =>
        finish given (.run source (overridesOf given)
          ((givenValue? given "seed").bind (readNatural? maxWord64))
          (timesGiven given "json" ≠ 0))
      | none => throw .usage
    | "version" =>
      let (given, _) ← readLevel commonOptions [] ⟨[], none⟩ rest
      finish given .version
    | _ => throw .help

end CircuitGrid
