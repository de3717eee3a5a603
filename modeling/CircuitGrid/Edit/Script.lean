import CircuitGrid.Edit.Command
import CircuitGrid.Edit.Error
import CircuitGrid.Text.Blank

/-!
# Edit scripts

A script is text: tokens separated by blanks or commas, one command each. A line
whose first character after blanks is `#` is a comment.

Lines end with a newline. A carriage return before it is one more blank, so that
both common line endings read alike.
-/

namespace CircuitGrid

/-! ## Tokens -/

/-- The commands with a fixed name, given the step of the two rotations. -/
def namedCommand? {α : Type} [Angle α] (step : α) (name : String) : Option (Command α) :=
  match name with
  | "left" | "a" => some .navigateLeft
  | "right" | "d" => some .navigateRight
  | "up" | "w" => some .navigateUp
  | "down" | "s" => some .navigateDown
  | "x" => some .placeX
  | "y" => some .placeY
  | "z" => some .placeZ
  | "h" => some .placeH
  | "delete" | "del" | "space" => some .delete
  | "ctrl" | "c" => some .toggleControl
  | "ctrl-up" => some .moveControlUp
  | "ctrl-down" => some .moveControlDown
  | "rot+" => some (.rotateBy step)
  | "rot-" => some (.rotateBy (Angle.neg step))
  | _ => none

/-- A rotation by an angle of its own, written `rotate:` and the angle. -/
def explicitRotation? {α : Type} [AngleText α] (token : List Char) : Option (Command α) :=
  let mark := "rotate:".toList
  if mark.isPrefixOf token then (AngleText.read? (token.drop mark.length)).map .rotateBy else none

/-- The command of a token. Blanks around the token and the case of its ASCII
letters do not matter. -/
def parseToken {α : Type} [Angle α] [AngleText α] (step : α) (token : List Char) :
    Except EditError (Command α) :=
  let token := (trimBlanks token).map Char.toLower
  match (namedCommand? step (String.ofList token)).or (explicitRotation? token) with
  | some command => .ok command
  | none => .error (.unknownCommand (String.ofList token))

/-! ## Scripts -/

/-- The pieces of a text between the characters at which it is cut. -/
def splitAt (cut : Char → Bool) : List Char → List (List Char)
  | [] => [[]]
  | c :: rest =>
    if cut c then [] :: splitAt cut rest
    else match splitAt cut rest with
      | [] => [[c]]
      | piece :: pieces => (c :: piece) :: pieces

/-- Whether a line is a comment. -/
def isComment (line : List Char) : Bool := (trimStart line).head? == some '#'

/-- The tokens of a line. -/
def lineTokens (line : List Char) : List (List Char) :=
  (splitAt (fun c => isBlank c || c == ',') line).filter (!·.isEmpty)

/-- The tokens of a script, comments left out. -/
def scriptTokens (script : List Char) : List (List Char) :=
  ((splitAt (· == '\n') script).filter (!isComment ·)).flatMap lineTokens

/-- The commands of a script, or the error of its first token that names none. -/
def parseScript {α : Type} [Angle α] [AngleText α] (step : α) (script : List Char) :
    Except EditError (List (Command α)) :=
  (scriptTokens script).mapM (parseToken step)

end CircuitGrid
