import CircuitGrid.Yaml

/-!
# Reading YAML text

A reader for the part of YAML that configuration files are written in: block and
flow collections, plain and quoted scalars, comments, and document markers.

This is less than YAML allows. Anchors and aliases, tags, directives, block scalars
(literal or folded) and explicit keys are refused wherever they stand, even below a
key that no setting is read from. A file that uses one of them is malformed here,
and a command that loads it fails, where a reader of all of YAML would go on.

In block style, indentation decides where a collection ends. The reader goes
from token to token; a `Gap` is a position between tokens together with the fact
whether a line break comes before it. The recursion over nested values is bounded
by a counter that starts above the length of the text.
-/

namespace CircuitGrid.Yaml

/-! ## Characters -/

/-- The characters that may occur in a text. -/
def isPrintable (c : Char) : Bool :=
  let code := c.toNat
  c == '\t' || c == '\n' || c == '\r' || (0x20 ≤ code && code ≤ 0x7e) || code = 0x85
    || (0xa0 ≤ code && code ≤ 0xd7ff) || (0xe000 ≤ code && code ≤ 0xfffd && code ≠ 0xfeff)
    || 0x10000 ≤ code

/-- The text with every line break written as a newline. -/
def unifyBreaks : List Char → List Char
  | [] => []
  | '\r' :: '\n' :: rest => '\n' :: unifyBreaks rest
  | c :: rest =>
    (if c == '\r' || c == '\u0085' || c == '\u2028' || c == '\u2029' then '\n' else c)
      :: unifyBreaks rest

/-- A space or a tab. -/
def isSpace (c : Char) : Bool := c == ' ' || c == '\t'

/-- Whether a token can end before this text: at its end, a space or a line break. -/
def atBreak : List Char → Bool
  | [] => true
  | c :: _ => isSpace c || c == '\n'

/-- The characters that open, close and separate flow collections. -/
def isFlowMark (c : Char) : Bool :=
  c == ',' || c == '[' || c == ']' || c == '{' || c == '\x7d'

/-- Whether the text up to `rest` can be a key: it has no line break and at most
1024 characters. -/
def fitsKey (cs rest : List Char) : Bool :=
  let key := cs.take (cs.length - rest.length)
  !key.contains '\n' && key.length ≤ 1024

/-! ## Gaps between tokens -/

/-- A position between two tokens. -/
structure Gap where
  rest : List Char
  /-- The column, which counts only after a line break. -/
  column : Nat
  /-- Whether a line break comes before the position. -/
  broken : Bool

/-- Skip spaces, comments and line breaks. A tab may not indent a line, unless
`tabs` allows it. -/
def skipGap (tabs : Bool) (lineStart comment : Bool) (column : Nat) (broken : Bool) :
    List Char → Gap
  | [] => ⟨[], column, broken⟩
  | c :: rest =>
    if c = '\n' then skipGap tabs true false 0 true rest
    else if comment then skipGap tabs lineStart true column broken rest
    else if c = ' ' ∨ (c = '\t' ∧ (tabs ∨ !lineStart)) then
      skipGap tabs lineStart false (column + 1) broken rest
    else if c = '#' then skipGap tabs lineStart true column broken rest
    else ⟨c :: rest, column, broken⟩

/-- The next token outside flow collections. -/
def Gap.next (gap : Gap) : Gap := skipGap false gap.broken false gap.column gap.broken gap.rest

/-- The text of the next token within a flow collection. -/
def skipInFlow (cs : List Char) : List Char := (skipGap true false false 0 false cs).rest

/-! ## Scalars -/

/-- The value of hexadecimal digits. -/
def hexValue? (digits : List Char) : Option Nat := digitsIn? 16 digits

/-- The character that a backslash and a letter stand for. -/
def escaped? : Char → Option Char
  | '0' => some '\x00'
  | 'a' => some '\x07'
  | 'b' => some '\x08'
  | 't' => some '\t'
  | '\t' => some '\t'
  | 'n' => some '\n'
  | 'v' => some '\x0b'
  | 'f' => some '\x0c'
  | 'r' => some '\r'
  | 'e' => some '\x1b'
  | ' ' => some ' '
  | '"' => some '"'
  | '/' => some '/'
  | '\\' => some '\\'
  | 'N' => some '\u0085'
  | '_' => some '\u00a0'
  | 'L' => some '\u2028'
  | 'P' => some '\u2029'
  | _ => none

/-- The character of a hexadecimal code. -/
def codeChar? (digits : List Char) : Option Char :=
  (hexValue? digits).bind fun code =>
    if code.isValidChar then some (Char.ofNat code) else none

/-- A scalar in double quotes, after the first one. A line break in it counts as a space. -/
def scanDouble? : List Char → Option (List Char × List Char)
  | [] => none
  | '"' :: rest => some ([], rest)
  | '\\' :: '\n' :: rest => scanDouble? rest
  | '\\' :: 'x' :: a :: b :: rest => do
    let c ← codeChar? [a, b]
    let (text, rest) ← scanDouble? rest
    return (c :: text, rest)
  | '\\' :: 'u' :: a :: b :: c :: d :: rest => do
    let c ← codeChar? [a, b, c, d]
    let (text, rest) ← scanDouble? rest
    return (c :: text, rest)
  | '\\' :: 'U' :: a :: b :: c :: d :: e :: f :: g :: h :: rest => do
    let c ← codeChar? [a, b, c, d, e, f, g, h]
    let (text, rest) ← scanDouble? rest
    return (c :: text, rest)
  | '\\' :: e :: rest => do
    let c ← escaped? e
    let (text, rest) ← scanDouble? rest
    return (c :: text, rest)
  | c :: rest => do
    let (text, rest) ← scanDouble? rest
    return ((if c = '\n' then ' ' else c) :: text, rest)

/-- A scalar in single quotes, after the first one; a quote in it is written twice. -/
def scanSingle? : List Char → Option (List Char × List Char)
  | [] => none
  | '\x27' :: '\x27' :: rest => (scanSingle? rest).map fun (text, rest) => ('\x27' :: text, rest)
  | '\x27' :: rest => some ([], rest)
  | c :: rest =>
    (scanSingle? rest).map fun (text, rest) => ((if c = '\n' then ' ' else c) :: text, rest)

/-- The characters that have a meaning of their own at the beginning of a token. -/
def isIndicator (c : Char) : Bool := "#&*!|>\x27\"%@\x60".toList.contains c

/-- Whether a plain scalar can begin here. -/
def startsPlain (inFlow : Bool) : List Char → Bool
  | [] => false
  | c :: rest =>
    if c = '-' then !atBreak rest
    else if c = '?' ∨ c = ':' then !inFlow && !atBreak rest
    else !isSpace c && c ≠ '\n' && !isFlowMark c && !isIndicator c

/-- Whether a colon in a flow collection stands right before one of its marks. -/
def isMarked (inFlow : Bool) : List Char → Bool
  | ':' :: c :: _ => inFlow && (isFlowMark c || c == '?')
  | _ => false

/-- The part of a plain scalar on one line: up to a colon before a space, a
comment, or in a flow collection one of its marks. -/
def scanLine (inFlow afterSpace : Bool) : List Char → List Char × List Char
  | [] => ([], [])
  | c :: rest =>
    if c = '\n' ∨ (c = ':' ∧ atBreak rest) ∨ isMarked inFlow (c :: rest) ∨ (c = '#' ∧ afterSpace)
        ∨ (inFlow ∧ isFlowMark c) then
      ([], c :: rest)
    else
      let (text, rest) := scanLine inFlow (isSpace c) rest
      (c :: text, rest)

/-- The text without spaces at its end. -/
def trimSpaces (cs : List Char) : List Char := (cs.reverse.dropWhile isSpace).reverse

/-- Skip line breaks and spaces after a line of a plain scalar. A tab may not
stand in for indentation, which takes the columns before `least`. -/
def skipBreaks? (least column : Nat) (broken : Bool) : List Char → Option Gap
  | [] => some ⟨[], column, broken⟩
  | c :: rest =>
    if c = '\n' then skipBreaks? least 0 true rest
    else if c = '\t' ∧ broken ∧ column < least then none
    else if isSpace c then skipBreaks? least (column + 1) broken rest
    else some ⟨c :: rest, column, broken⟩

/-- The lines of a plain scalar, joined by spaces, and the next token after them.
The scalar goes on over the lines that are indented by at least `least`; in a
flow collection indentation does not matter. -/
def scanLines? (inFlow : Bool) (least : Nat) : Nat → List Char → Option (List Char × Gap)
  | 0, _ => none
  | fuel + 1, cs => do
    let (line, rest) := scanLine inFlow true cs
    let line := trimSpaces line
    if isMarked inFlow rest then none
    else
      let gap ← skipBreaks? least 0 false rest
      if !gap.broken ∨ (!inFlow ∧ gap.column < least) ∨ (scanLine inFlow true gap.rest).1 = [] then
        return (line, gap)
      else
        let (text, gap) ← scanLines? inFlow least fuel gap.rest
        return (line ++ ' ' :: text, gap)

/-- A scalar, and where it ends. A plain one may go on over lines indented by at
least `least`. -/
def scanScalar? (inFlow : Bool) (least : Nat) : List Char → Option (Yaml × Gap)
  | '"' :: rest => (scanDouble? rest).map fun (text, rest) => (.scalar false text, ⟨rest, 0, false⟩)
  | '\x27' :: rest =>
    (scanSingle? rest).map fun (text, rest) => (.scalar false text, ⟨rest, 0, false⟩)
  | cs =>
    if startsPlain inFlow cs then
      (scanLines? inFlow least (cs.length + 1) cs).map fun (text, gap) => (.scalar true text, gap)
    else none

/-! ## Flow collections -/

/-- Whether the next token marks a value within a flow collection. -/
def atFlowValue : List Char → Bool
  | ':' :: _ => true
  | _ => false

mutual

/-- A value within a flow collection, or a flow collection itself, and where it ends. -/
def scanFlow? (least : Nat) (inFlow : Bool) : Nat → List Char → Option (Yaml × Gap)
  | 0, _ => none
  | fuel + 1, cs =>
    match cs with
    | '[' :: rest =>
      (scanFlowItems? least fuel (skipInFlow rest)).map fun (items, rest) =>
        (.sequence items, ⟨rest, 0, false⟩)
    | '{' :: rest =>
      (scanFlowEntries? least fuel (skipInFlow rest)).map fun (entries, rest) =>
        (.mapping entries, ⟨rest, 0, false⟩)
    | cs => scanScalar? inFlow least cs

/-- The entry of a flow collection: a value, and one more if a colon follows it on
the same line. -/
def scanFlowEntry? (least : Nat) : Nat → List Char → Option (Yaml × Option Yaml × List Char)
  | 0, _ => none
  | fuel + 1, cs => do
    let (key, gap) ← scanFlow? least true fuel cs
    let next := skipInFlow gap.rest
    if atFlowValue next then
      if fitsKey cs next then
        let value := skipInFlow (next.drop 1)
        match value with
        | ',' :: _ | ']' :: _ | '\x7d' :: _ => return (key, some missing, value)
        | _ =>
          let (value, gap) ← scanFlow? least true fuel value
          return (key, some value, skipInFlow gap.rest)
      else none
    else return (key, none, next)

/-- The items of a flow sequence up to its closing bracket. -/
def scanFlowItems? (least : Nat) : Nat → List Char → Option (List Yaml × List Char)
  | 0, _ => none
  | fuel + 1, cs =>
    match cs with
    | ']' :: rest => some ([], rest)
    | cs => do
      let (key, value, rest) ← scanFlowEntry? least fuel cs
      let item := match value with
        | some value => .mapping [(key, value)]
        | none => key
      match rest with
      | ']' :: rest => return ([item], rest)
      | ',' :: rest =>
        let (items, rest) ← scanFlowItems? least fuel (skipInFlow rest)
        return (item :: items, rest)
      | _ => none

/-- The entries of a flow mapping up to its closing bracket. -/
def scanFlowEntries? (least : Nat) : Nat → List Char → Option (List (Yaml × Yaml) × List Char)
  | 0, _ => none
  | fuel + 1, cs =>
    match cs with
    | '\x7d' :: rest => some ([], rest)
    | cs => do
      let (key, value, rest) ← scanFlowEntry? least fuel cs
      let entry := (key, value.getD missing)
      match rest with
      | '\x7d' :: rest => return ([entry], rest)
      | ',' :: rest =>
        let (entries, rest) ← scanFlowEntries? least fuel (skipInFlow rest)
        return (entry :: entries, rest)
      | _ => none

end

/-! ## Block collections -/

/-- Whether an item of a block sequence begins here. -/
def atItem : List Char → Bool
  | '-' :: rest => atBreak rest
  | _ => false

/-- Whether a colon follows on the same line. -/
def atColon (gap : Gap) : Bool := !gap.broken && (gap.rest.dropWhile isSpace).head? == some ':'

/-- What a key leaves behind: the text after its colon, if it is one. -/
def afterKey? (cs : List Char) (gap : Gap) : Option (List Char) :=
  match gap.rest.dropWhile isSpace with
  | ':' :: rest =>
    if !gap.broken && atBreak rest && fitsKey cs (':' :: rest) then some rest else none
  | _ => none

mutual

/-- A value at the position of a token, at least `least` columns in, together with
the position of the next token. A block collection can begin here only if
`collection` allows it, since it may not begin on the line of a key. -/
def scanNode? (least : Nat) (collection : Bool) : Nat → Gap → Option (Yaml × Gap)
  | 0, _ => none
  | fuel + 1, gap =>
    if atItem gap.rest then
      if collection then
        (scanItems? gap.column fuel gap.rest).map fun (items, next) => (.sequence items, next)
      else none
    else do
      let (value, stop) ← scanFlow? least false fuel gap.rest
      if atColon stop then
        let rest ← afterKey? gap.rest stop
        if collection then
          (scanEntries? gap.column value fuel rest).map fun (entries, next) =>
            (.mapping entries, next)
        else none
      else return (value, stop.next)

/-- The items of a block sequence whose dashes stand in `column`. A tab may not
stand right after a dash. -/
def scanItems? (column : Nat) : Nat → List Char → Option (List Yaml × Gap)
  | 0, _ => none
  | fuel + 1, cs => do
    let gap := skipGap false true false (column + 1) false (cs.drop 1)
    let (item, next) ←
      if gap.rest = [] ∨ gap.column ≤ column then some (missing, gap)
      else scanNode? (column + 1) true fuel gap
    if next.rest ≠ [] ∧ !next.broken then none
    else if next.rest ≠ [] ∧ next.column = column ∧ atItem next.rest then
      let (items, next) ← scanItems? column fuel next.rest
      return (item :: items, next)
    else return ([item], next)

/-- The entries of a block mapping whose keys stand in `column`, after the colon of
its first key. -/
def scanEntries? (column : Nat) (key : Yaml) :
    Nat → List Char → Option (List (Yaml × Yaml) × Gap)
  | 0, _ => none
  | fuel + 1, cs => do
    let gap := Gap.next ⟨cs, column + 1, false⟩
    let (value, next) ←
      if gap.rest = [] then some (missing, gap)
      else if !gap.broken then scanNode? (column + 1) false fuel gap
      else if column < gap.column then scanNode? (column + 1) true fuel gap
      else if gap.column = column ∧ atItem gap.rest then
        (scanItems? column fuel gap.rest).map fun (items, next) => (Yaml.sequence items, next)
      else some (missing, gap)
    if next.rest ≠ [] ∧ (!next.broken ∨ column < next.column) then none
    else if next.rest ≠ [] ∧ next.column = column then
      if atItem next.rest then none
      else
        let (nextKey, stop) ← scanFlow? (column + 1) false fuel next.rest
        let rest ← afterKey? next.rest stop
        let (entries, next) ← scanEntries? column nextKey fuel rest
        return ((key, value) :: entries, next)
    else return ([(key, value)], next)

end

/-! ## Documents -/

/-- The document markers. -/
inductive Marker where
  /-- Three dashes begin a document. -/
  | start
  /-- Three points end one. -/
  | stop
  deriving DecidableEq, Repr

/-- The marker at the beginning of a line, and the rest of the line. -/
def marker? : List Char → Option (Marker × List Char)
  | '-' :: '-' :: '-' :: rest => if atBreak rest then some (.start, rest) else none
  | '.' :: '.' :: '.' :: rest => if atBreak rest then some (.stop, rest) else none
  | _ => none

/-- The lines of a text. -/
def lines : List Char → List (List Char)
  | [] => [[]]
  | c :: rest =>
    if c = '\n' then [] :: lines rest
    else match lines rest with
      | [] => [[c]]
      | line :: lines => (c :: line) :: lines

/-- The text before the first marker, and the text after each marker. -/
def sections : List (List Char) → List Char × List (Marker × List Char)
  | [] => ([], [])
  | line :: rest =>
    let (text, marked) := sections rest
    match marker? line with
    | some (marker, line) => ([], (marker, line ++ '\n' :: text) :: marked)
    | none => (line ++ '\n' :: text, marked)

/-- Whether a text holds nothing but blanks and comments. -/
def isVoid (cs : List Char) : Bool := (skipGap false true false 0 false cs).rest = []

/-- The only value of a document's text. On the line of a marker no block
collection can begin. -/
def scanDocument? (afterMarker : Bool) (cs : List Char) : Option Yaml :=
  let gap := skipGap false (!afterMarker) false 0 false cs
  if gap.rest = [] then some missing
  else
    match scanNode? 0 (!afterMarker || gap.broken) (4 * cs.length + 4) gap with
    | some (value, next) => if next.rest = [] then some value else none
    | none => none

/-- Whether nothing but markers of the end follows a document. -/
def isClosed (sections : List (Marker × List Char)) : Bool :=
  sections.all fun (marker, text) => marker = .stop && isVoid text

/-- The value of the only document of a text. A text without any is a document in
which nothing is written. An end marker must follow a document. -/
def read? (cs : List Char) : Option Yaml :=
  let cs := match cs with
    | '\ufeff' :: rest => rest
    | cs => cs
  if cs.all isPrintable then
    match sections (lines (unifyBreaks cs)) with
    | (first, []) => scanDocument? false first
    | (first, (marker, text) :: others) =>
      if isVoid first then
        if marker = .start && isClosed others then scanDocument? true text else none
      else if isClosed ((marker, text) :: others) then scanDocument? false first
      else none
  else none

end CircuitGrid.Yaml
