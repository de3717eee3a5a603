import CircuitGrid.Decimal

/-!
# JSON values and their text

A value as JSON knows it. A number keeps its text, since what it means depends
on the type that is read from it. The fields of an object keep their order.

`Json.compact` writes a value without whitespace, `Json.pretty` with one entry per
line, indented by two spaces for each level.
-/

namespace CircuitGrid

/-- The characters of a JSON string. There are none if an escape in it names one
half of a character only: such a string may be skipped but not used. -/
abbrev JsonText := Option (List Char)

/-- A JSON value. -/
inductive Json where
  | null
  | bool (value : Bool)
  | number (literal : List Char)
  | string (text : JsonText)
  | array (items : List Json)
  | object (fields : List (JsonText × Json))
  deriving Repr

namespace Json

/-! ## Building values -/

/-- A string. -/
def ofString (s : String) : Json := .string (some s.toList)

/-- A natural number. -/
def ofNat (n : Nat) : Json := .number (decimalDigits n)

/-- An object, from its fields in order. -/
def ofFields (fields : List (String × Json)) : Json :=
  .object (fields.map fun (key, value) => (some key.toList, value))

/-- A named value: an object with one field. -/
def tagged (tag : String) (value : Json) : Json := .ofFields [(tag, value)]

/-! ## Strings -/

/-- A character as it stands in a string: the quote, the backslash and control
characters are escaped. -/
def escapeChar (c : Char) : List Char :=
  match c with
  | '"' => ['\\', '"']
  | '\\' => ['\\', '\\']
  | '\x08' => ['\\', 'b']
  | '\x0c' => ['\\', 'f']
  | '\n' => ['\\', 'n']
  | '\r' => ['\\', 'r']
  | '\t' => ['\\', 't']
  | c =>
    if c.toNat < 32 then
      ['\\', 'u', '0', '0', Nat.digitChar (c.toNat / 16), Nat.digitChar (c.toNat % 16)]
    else [c]

/-- A string in quotes. A string without characters of its own is written empty. -/
def quote (text : JsonText) : List Char :=
  '"' :: (text.getD []).flatMap escapeChar ++ ['"']

/-- The characters of `true` and `false`. -/
def boolText (b : Bool) : List Char := if b then "true".toList else "false".toList

/-! ## Compact text -/

mutual

/-- The value without whitespace. -/
def compact : Json → List Char
  | .null => "null".toList
  | .bool b => boolText b
  | .number literal => literal
  | .string text => quote text
  | .array items => '[' :: compactItems items
  | .object fields => '{' :: compactFields fields

/-- The rest of an array, from its first item on. -/
def compactItems : List Json → List Char
  | [] => [']']
  | [item] => item.compact ++ [']']
  | item :: items => item.compact ++ ',' :: compactItems items

/-- The rest of an object, from its first field on. -/
def compactFields : List (JsonText × Json) → List Char
  | [] => ['\x7d']
  | [(key, value)] => quote key ++ ':' :: value.compact ++ ['\x7d']
  | (key, value) :: fields => quote key ++ ':' :: value.compact ++ ',' :: compactFields fields

end

/-! ## Indented text -/

/-- A new line at the given level. -/
def newLine (level : Nat) : List Char := '\n' :: List.replicate (2 * level) ' '

mutual

/-- The value with one entry per line, its own brackets standing at `level`. -/
def pretty (level : Nat) : Json → List Char
  | .null => "null".toList
  | .bool b => boolText b
  | .number literal => literal
  | .string text => quote text
  | .array [] => ['[', ']']
  | .array items => '[' :: prettyItems level items
  | .object [] => ['{', '\x7d']
  | .object fields => '{' :: prettyFields level fields

/-- The rest of an array at `level`, from its first item on. -/
def prettyItems (level : Nat) : List Json → List Char
  | [] => newLine level ++ [']']
  | [item] => newLine (level + 1) ++ item.pretty (level + 1) ++ newLine level ++ [']']
  | item :: items =>
    newLine (level + 1) ++ item.pretty (level + 1) ++ ',' :: prettyItems level items

/-- The rest of an object at `level`, from its first field on. -/
def prettyFields (level : Nat) : List (JsonText × Json) → List Char
  | [] => newLine level ++ ['\x7d']
  | [(key, value)] =>
    newLine (level + 1) ++ quote key ++ ':' :: ' ' :: value.pretty (level + 1)
      ++ newLine level ++ ['\x7d']
  | (key, value) :: fields =>
    newLine (level + 1) ++ quote key ++ ':' :: ' ' :: value.pretty (level + 1)
      ++ ',' :: prettyFields level fields

end

/-! ## Sorted keys -/

/-- Put a field where it belongs among fields sorted by key, after equal ones. -/
def insertField (field : JsonText × Json) : List (JsonText × Json) → List (JsonText × Json)
  | [] => [field]
  | other :: fields =>
    if (field.1.getD []) < (other.1.getD []) then field :: other :: fields
    else other :: insertField field fields

mutual

/-- The value with the fields of every object in the order of their keys. -/
def sortKeys : Json → Json
  | .array items => .array (sortKeysOfItems items)
  | .object fields => .object (sortKeysOfFields fields)
  | value => value

/-- Every item with its keys sorted. -/
def sortKeysOfItems : List Json → List Json
  | [] => []
  | item :: items => item.sortKeys :: sortKeysOfItems items

/-- The fields sorted by key, every value with its keys sorted. -/
def sortKeysOfFields : List (JsonText × Json) → List (JsonText × Json)
  | [] => []
  | (key, value) :: fields => insertField (key, value.sortKeys) (sortKeysOfFields fields)

end

end Json

end CircuitGrid
