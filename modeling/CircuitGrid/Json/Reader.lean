import CircuitGrid.Json

/-!
# Reading JSON text

`Json.read?` accepts exactly the JSON grammar: one value, with whitespace allowed
between tokens. Each step returns what it read and the text after it. The
recursion over nested values is bounded by a counter that starts above the
length of the text, which no nesting can exhaust.
-/

namespace CircuitGrid.Json

/-! ## Whitespace and numbers -/

/-- The text after whitespace: spaces, tabs, newlines and carriage returns. -/
def skipWhitespace (cs : List Char) : List Char := cs.dropWhile Char.isWhitespace

/-- A non-empty run of digits. -/
def scanDigits? (cs : List Char) : Option (List Char × List Char) :=
  match cs.takeWhile Char.isDigit with
  | [] => none
  | digits => some (digits, cs.dropWhile Char.isDigit)

/-- The whole part of a number: a lone zero, or digits that do not begin with one. -/
def scanWhole? : List Char → Option (List Char × List Char)
  | '0' :: rest => if rest.head?.any Char.isDigit then none else some (['0'], rest)
  | cs => scanDigits? cs

/-- The fraction of a number, which may be missing. -/
def scanFraction? : List Char → Option (List Char × List Char)
  | '.' :: rest => (scanDigits? rest).map fun (digits, rest) => ('.' :: digits, rest)
  | cs => some ([], cs)

/-- The exponent of a number, which may be missing. -/
def scanExponent? : List Char → Option (List Char × List Char)
  | c :: rest =>
    if c = 'e' ∨ c = 'E' then
      let (sign, rest) := match rest with
        | '+' :: rest => (['+'], rest)
        | '-' :: rest => (['-'], rest)
        | rest => ([], rest)
      (scanDigits? rest).map fun (digits, rest) => (c :: sign ++ digits, rest)
    else some ([], c :: rest)
  | [] => some ([], [])

/-- A number, as its text. -/
def scanNumber? (cs : List Char) : Option (List Char × List Char) := do
  let (sign, cs) := match cs with
    | '-' :: rest => (['-'], rest)
    | cs => ([], cs)
  let (whole, cs) ← scanWhole? cs
  let (fraction, cs) ← scanFraction? cs
  let (exponent, cs) ← scanExponent? cs
  return (sign ++ whole ++ fraction ++ exponent, cs)

/-! ## Strings -/

/-- The value of a hexadecimal digit. -/
def hexDigit? (c : Char) : Option Nat :=
  if c.isDigit then some (c.toNat - 48)
  else if 'a' ≤ c ∧ c ≤ 'f' then some (c.toNat - 87)
  else if 'A' ≤ c ∧ c ≤ 'F' then some (c.toNat - 55)
  else none

/-- The value of four hexadecimal digits. -/
def hexUnit? (a b c d : Char) : Option Nat := do
  return 4096 * (← hexDigit? a) + 256 * (← hexDigit? b) + 16 * (← hexDigit? c) + (← hexDigit? d)

/-- The character that a backslash and one letter stand for. -/
def shortEscape? : Char → Option Char
  | '"' => some '"'
  | '\\' => some '\\'
  | '/' => some '/'
  | 'b' => some '\x08'
  | 'f' => some '\x0c'
  | 'n' => some '\n'
  | 'r' => some '\r'
  | 't' => some '\t'
  | _ => none

/-- One piece of a string: a character, or a 16-bit unit written in hexadecimal. -/
inductive StringPiece where
  | char (c : Char)
  | unit (code : Nat)
  deriving DecidableEq, Repr

/-- The pieces of a string up to its closing quote, and the text after it.
Control characters must be escaped. -/
def scanPieces? : List Char → Option (List StringPiece × List Char)
  | [] => none
  | '"' :: rest => some ([], rest)
  | '\\' :: 'u' :: a :: b :: c :: d :: rest => do
    let code ← hexUnit? a b c d
    let (pieces, rest) ← scanPieces? rest
    return (.unit code :: pieces, rest)
  | '\\' :: e :: rest => do
    let c ← shortEscape? e
    let (pieces, rest) ← scanPieces? rest
    return (.char c :: pieces, rest)
  | c :: rest =>
    if c.toNat < 32 ∨ c = '\\' then none
    else do
      let (pieces, rest) ← scanPieces? rest
      return (.char c :: pieces, rest)

/-- The characters of a string. A unit from `D800` up to `DBFF` needs one from
`DC00` up to `DFFF` right behind it, and stands for one character together with
it; neither stands for one alone. -/
def joinPieces : List StringPiece → JsonText
  | [] => some []
  | .char c :: pieces => (joinPieces pieces).map (c :: ·)
  | .unit high :: pieces =>
    if high < 0xd800 ∨ 0xe000 ≤ high then (joinPieces pieces).map (Char.ofNat high :: ·)
    else match pieces with
      | .unit low :: pieces =>
        if high < 0xdc00 ∧ 0xdc00 ≤ low ∧ low < 0xe000 then
          (joinPieces pieces).map
            (Char.ofNat (0x10000 + 0x400 * (high - 0xd800) + (low - 0xdc00)) :: ·)
        else none
      | _ => none

/-- A string after its opening quote. -/
def scanString? (cs : List Char) : Option (JsonText × List Char) :=
  (scanPieces? cs).map fun (pieces, rest) => (joinPieces pieces, rest)

/-! ## Values -/

/-- The text after a given beginning. -/
def skip? (beginning : String) (cs : List Char) : Option (List Char) :=
  if beginning.toList.isPrefixOf cs then some (cs.drop beginning.toList.length) else none

mutual

/-- A value, with whitespace allowed before it. -/
def scanValue? : Nat → List Char → Option (Json × List Char)
  | 0, _ => none
  | fuel + 1, cs =>
    match skipWhitespace cs with
    | '"' :: rest => (scanString? rest).map fun (text, rest) => (.string text, rest)
    | '[' :: rest =>
      match skipWhitespace rest with
      | ']' :: rest => some (.array [], rest)
      | rest => (scanItems? fuel rest).map fun (items, rest) => (.array items, rest)
    | '{' :: rest =>
      match skipWhitespace rest with
      | '\x7d' :: rest => some (.object [], rest)
      | rest => (scanFields? fuel rest).map fun (fields, rest) => (.object fields, rest)
    | 'n' :: rest => (skip? "ull" rest).map fun rest => (.null, rest)
    | 't' :: rest => (skip? "rue" rest).map fun rest => (.bool true, rest)
    | 'f' :: rest => (skip? "alse" rest).map fun rest => (.bool false, rest)
    | rest => (scanNumber? rest).map fun (literal, rest) => (.number literal, rest)

/-- The items of an array up to its closing bracket; there is at least one. -/
def scanItems? : Nat → List Char → Option (List Json × List Char)
  | 0, _ => none
  | fuel + 1, cs => do
    let (item, rest) ← scanValue? fuel cs
    match skipWhitespace rest with
    | ',' :: rest =>
      let (items, rest) ← scanItems? fuel rest
      return (item :: items, rest)
    | ']' :: rest => return ([item], rest)
    | _ => none

/-- The fields of an object up to its closing bracket; there is at least one. -/
def scanFields? : Nat → List Char → Option (List (JsonText × Json) × List Char)
  | 0, _ => none
  | fuel + 1, cs =>
    match skipWhitespace cs with
    | '"' :: rest => do
      let (key, rest) ← scanString? rest
      let rest ← skip? ":" (skipWhitespace rest)
      let (value, rest) ← scanValue? fuel rest
      match skipWhitespace rest with
      | ',' :: rest =>
        let (fields, rest) ← scanFields? fuel rest
        return ((key, value) :: fields, rest)
      | '\x7d' :: rest => return ([(key, value)], rest)
      | _ => none
    | _ => none

end

/-- The value that a text consists of. -/
def read? (cs : List Char) : Option Json :=
  match scanValue? (cs.length + 1) cs with
  | some (value, rest) => if skipWhitespace rest = [] then some value else none
  | none => none

end CircuitGrid.Json
