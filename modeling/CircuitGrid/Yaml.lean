import CircuitGrid.Text.Numeral

/-!
# YAML values

The values of a configuration file, and the numbers that its scalars stand for.
A scalar keeps its text, and whether it was quoted: only a plain one can be a
number.
-/

namespace CircuitGrid

/-- A YAML value. -/
inductive Yaml where
  /-- A scalar; `plain` means that it was not quoted. -/
  | scalar (plain : Bool) (text : List Char)
  | sequence (items : List Yaml)
  | mapping (entries : List (Yaml × Yaml))
  deriving Repr

namespace Yaml

/-- What stands where nothing is written. -/
def missing : Yaml := .scalar true []

/-! ## Numbers -/

/-- The value of a digit in any base up to sixteen. -/
def digitValue? (base : Nat) (c : Char) : Option Nat :=
  let value :=
    if c.isDigit then c.toNat - 48
    else if 'a' ≤ c ∧ c ≤ 'f' then c.toNat - 87
    else if 'A' ≤ c ∧ c ≤ 'F' then c.toNat - 55
    else base
  if value < base then some value else none

/-- A non-empty run of digits in a base. -/
def digitsIn? (base : Nat) (cs : List Char) : Option Nat :=
  if cs = [] then none
  else cs.foldlM (fun value c => (digitValue? base c).map (base * value + ·)) 0

/-- The number in base sixteen, eight or two that the text is, if it is marked as one. -/
def markedNumber? : List Char → Option Nat
  | '0' :: 'x' :: digits => digitsIn? 16 digits
  | '0' :: 'o' :: digits => digitsIn? 8 digits
  | '0' :: 'b' :: digits => digitsIn? 2 digits
  | _ => none

/-- Whether the text is a zero with more digits behind it. -/
def hasLeadingZero : List Char → Bool
  | '0' :: c :: rest => (c :: rest).all Char.isDigit
  | _ => false

/-- A natural number of at most `limit`: digits after an optional plus sign, or a
marked number. Digits must not begin with a spare zero. -/
def natural? (limit : Nat) : Yaml → Option Nat
  | .scalar true text =>
    let digits := match text with
      | '+' :: rest => rest
      | text => text
    let decimal := if hasLeadingZero digits then none else readDigits? digits
    ((markedNumber? digits).or decimal).filter (· ≤ limit)
  | _ => none

/-- A floating-point number: an infinity or not-a-number by its YAML name, or a
decimal number within the finite range. -/
def float? : Yaml → Option Float
  | .scalar true text =>
    let name := String.ofList text
    if name ∈ [".inf", ".Inf", ".INF", "+.inf", "+.Inf", "+.INF"] then some (1.0 / 0.0)
    else if name ∈ ["-.inf", "-.Inf", "-.INF"] then some (-(1.0 / 0.0))
    else if name ∈ [".nan", ".NaN", ".NAN"] then some (0.0 / 0.0)
    else ((Decimal.read? text).map Decimal.toFloat).filter Float.isFinite
  | _ => none

/-! ## Records -/

/-- The entries of a mapping whose keys are all scalars. Where nothing is written
there are no entries. -/
def entries? : Yaml → Option (List (List Char × Yaml))
  | .scalar true [] => some []
  | .mapping entries => entries.mapM fun (key, value) =>
    match key with
    | .scalar _ text => some (text, value)
    | _ => none
  | _ => none

/-- The value of an entry that may be missing, read by `read?`, with a default.
An entry that comes twice is refused. -/
def entry? {τ : Type} (entries : List (List Char × Yaml)) (key : String) (default : τ)
    (read? : Yaml → Option τ) : Option τ :=
  match entries.filter (·.1 == key.toList) with
  | [] => some default
  | [entry] => read? entry.2
  | _ => none

end Yaml

end CircuitGrid
