import CircuitGrid.Json.Number
import CircuitGrid.Json.Reader

/-!
# Forms of types in JSON

A form of a type says how its values are written as JSON and which JSON values
are accepted for it. Two shapes recur:

* a record is an object with one field for each part. Fields may come in any
  order and unknown ones are skipped, but none of the record's own may come
  twice. An array with the parts in order is accepted too;
* a variant is the string of its tag, or, with a payload, an object whose only
  field is the tag.
-/

namespace CircuitGrid

/-- How a type is written to JSON and read from it. -/
class JsonForm (τ : Type) where
  encode : τ → Json
  decode? : Json → Option τ

instance : JsonForm Float where
  encode := Json.ofFloat
  decode? := Json.float?

namespace Json

/-- The text of a value in its form. -/
def render {τ : Type} [JsonForm τ] (value : τ) : List Char := (JsonForm.encode value).compact

/-- The value whose form a text is. -/
def parse? {τ : Type} [JsonForm τ] (cs : List Char) : Option τ := read? cs >>= JsonForm.decode?

/-! ## Records -/

/-- The value of a field that may be missing, unless it comes twice. -/
def field? (fields : List (JsonText × Json)) (key : String) : Option (Option Json) :=
  match fields.filter (·.1 == some key.toList) with
  | [] => some none
  | [field] => some (some field.2)
  | _ => none

/-- The parts of a record in the order of its keys, each absent if the record
does not have it. In an object every key must be a proper string. In an array
only the last parts may be missing, and only if `short` is set. -/
def parts? (keys : List String) (short : Bool) : Json → Option (List (Option Json))
  | .object fields => if fields.all (·.1.isSome) then keys.mapM (field? fields) else none
  | .array items =>
    if items.length = keys.length ∨ (short ∧ items.length < keys.length) then
      some (items.map some ++ List.replicate (keys.length - items.length) none)
    else none
  | _ => none

/-- A part that may be absent or null. -/
def optional? {τ : Type} (decode? : Json → Option τ) : Option Json → Option (Option τ)
  | none | some .null => some none
  | some value => (decode? value).map some

/-- A part for which there is a default. -/
def withDefault? {τ : Type} (default : τ) (decode? : Json → Option τ) : Option Json → Option τ
  | none => some default
  | some value => decode? value

/-- The field of a part that is written only if it is present. -/
def presentField (key : String) : Option Json → List (String × Json)
  | some value => [(key, value)]
  | none => []

/-! ## Variants -/

/-- The tag of a variant, with its payload if one is written. -/
def variant? : Json → Option (List Char × Option Json)
  | .string (some tag) => some (tag, none)
  | .object [(some tag, payload)] => some (tag, some payload)
  | _ => none

/-- The tag of a variant without payload; a null may stand for the payload. -/
def plainVariant? (value : Json) : Option (List Char) :=
  match variant? value with
  | some (tag, none) | some (tag, some .null) => some tag
  | _ => none

/-- The payload of the variant with the given tag. -/
def payload? (tag : String) (value : Json) : Option Json :=
  match variant? value with
  | some (found, some payload) => if found = tag.toList then some payload else none
  | _ => none

/-- The entry of a table of tags that a variant without payload selects. -/
def select? {τ : Type} (table : List (String × τ)) (value : Json) : Option τ :=
  (plainVariant? value).bind fun tag =>
    (table.find? fun entry => entry.1.toList == tag).map Prod.snd

end Json

end CircuitGrid
