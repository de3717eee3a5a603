import CircuitGrid.Edit.Command
import CircuitGrid.Grid
import CircuitGrid.Json.Form
import CircuitGrid.Operation
import CircuitGrid.Settings

/-!
# Serialized forms of the library's types

The JSON forms of gates, nodes, operations, commands, grids and settings. None
of them checks more than the shape: a grid that is read is a `GridRecord`, whose
nodes need not fill its dimensions.
-/

namespace CircuitGrid

open Json

/-! ## Gates and contents -/

/-- The tag of a gate. -/
def Gate.tag : Gate → String
  | .pauliX => "PauliX"
  | .pauliY => "PauliY"
  | .pauliZ => "PauliZ"
  | .hadamard => "Hadamard"
  | .s => "S"
  | .sDagger => "SDagger"
  | .t => "T"
  | .tDagger => "TDagger"
  | .identity => "Identity"
  | .swap => "Swap"

instance : JsonForm Gate where
  encode gate := .ofString gate.tag
  decode? := select? (Gate.all.map fun gate => (gate.tag, gate))

instance : JsonForm Content where
  encode
    | .empty => .ofString "Empty"
    | .gate g => .tagged "Gate" (JsonForm.encode g)
    | .trace => .ofString "Trace"
  decode? value :=
    (select? [("Empty", .empty), ("Trace", .trace)] value).or
      ((payload? "Gate" value).bind fun g => (JsonForm.decode? g).map .gate)

instance : JsonForm CellKind where
  encode
    | .empty => .ofString "Empty"
    | .gate g => .tagged "Gate" (JsonForm.encode g)
    | .trace => .ofString "Trace"
    | .control => .ofString "Control"
    | .swapPartner => .ofString "SwapPartner"
  decode? value :=
    (select? [("Empty", .empty), ("Trace", .trace), ("Control", .control),
        ("SwapPartner", .swapPartner)] value).or
      ((payload? "Gate" value).bind fun g => (JsonForm.decode? g).map .gate)

/-! ## Nodes -/

variable {α : Type} [JsonForm α]

instance : JsonForm (Node α) where
  encode node :=
    .ofFields ([("kind", JsonForm.encode node.content), ("rotation", JsonForm.encode node.rotation)]
      ++ presentField "control_a" (node.controlA.map .ofNat)
      ++ presentField "control_b" (node.controlB.map .ofNat)
      ++ presentField "swap_partner" (node.partner.map .ofNat))
  decode? value :=
    match parts? ["kind", "rotation", "control_a", "control_b", "swap_partner"] false value with
    | some [kind, rotation, controlA, controlB, partner] => do
      return {
        content := ← kind.bind JsonForm.decode?
        rotation := ← rotation.bind JsonForm.decode?
        controlA := ← optional? (natural? maxWord64) controlA
        controlB := ← optional? (natural? maxWord64) controlB
        partner := ← optional? (natural? maxWord64) partner }
    | _ => none

/-! ## Operations -/

instance : JsonForm Wire where
  encode wire := .ofNat wire.index
  decode? value := (natural? maxWord32 value).bind Wire.ofNat?

/-- The tags of the primitive gates without angle. -/
def Primitive.plainTags : List (String × Primitive α) :=
  [("I", .id), ("X", .x), ("Y", .y), ("Z", .z), ("H", .h), ("S", .s), ("Sdg", .sdg), ("T", .t),
    ("Tdg", .tdg), ("CX", .cx), ("CY", .cy), ("CZ", .cz), ("CH", .ch), ("CCX", .ccx),
    ("Swap", .swap), ("CSwap", .cswap)]

instance : JsonForm (Primitive α) where
  encode
    | .id => .ofString "I"
    | .x => .ofString "X"
    | .y => .ofString "Y"
    | .z => .ofString "Z"
    | .h => .ofString "H"
    | .s => .ofString "S"
    | .sdg => .ofString "Sdg"
    | .t => .ofString "T"
    | .tdg => .ofString "Tdg"
    | .rx angle => .tagged "Rx" (JsonForm.encode angle)
    | .ry angle => .tagged "Ry" (JsonForm.encode angle)
    | .rz angle => .tagged "Rz" (JsonForm.encode angle)
    | .cx => .ofString "CX"
    | .cy => .ofString "CY"
    | .cz => .ofString "CZ"
    | .ch => .ofString "CH"
    | .crz angle => .tagged "CRz" (JsonForm.encode angle)
    | .ccx => .ofString "CCX"
    | .swap => .ofString "Swap"
    | .cswap => .ofString "CSwap"
  decode? value :=
    (select? Primitive.plainTags value)
      <|> ((payload? "Rx" value >>= JsonForm.decode?).map .rx)
      <|> ((payload? "Ry" value >>= JsonForm.decode?).map .ry)
      <|> ((payload? "Rz" value >>= JsonForm.decode?).map .rz)
      <|> ((payload? "CRz" value >>= JsonForm.decode?).map .crz)

/-- The values of an array, each in its form. -/
def decodeArray? {τ : Type} [JsonForm τ] : Json → Option (List τ)
  | .array items => items.mapM JsonForm.decode?
  | _ => none

instance : JsonForm (Operation α) where
  encode op :=
    .ofFields ([("gate", JsonForm.encode op.gate), ("target", JsonForm.encode op.target),
        ("controls", .array (op.controls.map JsonForm.encode))]
      ++ presentField "partner" (op.partner.map JsonForm.encode))
  decode? value :=
    match parts? ["gate", "target", "controls", "partner"] false value with
    | some [gate, target, controls, partner] => do
      return {
        gate := ← gate.bind JsonForm.decode?
        target := ← target.bind JsonForm.decode?
        controls := ← controls.bind decodeArray?
        partner := ← optional? JsonForm.decode? partner }
    | _ => none

/-! ## Commands -/

/-- The tags of the commands without angle. -/
def Command.plainTags : List (String × Command α) :=
  [("NavigateLeft", .navigateLeft), ("NavigateRight", .navigateRight),
    ("NavigateUp", .navigateUp), ("NavigateDown", .navigateDown), ("PlaceX", .placeX),
    ("PlaceY", .placeY), ("PlaceZ", .placeZ), ("PlaceH", .placeH), ("Delete", .delete),
    ("ToggleControl", .toggleControl), ("MoveControlUp", .moveControlUp),
    ("MoveControlDown", .moveControlDown)]

instance : JsonForm (Command α) where
  encode
    | .navigateLeft => .ofString "NavigateLeft"
    | .navigateRight => .ofString "NavigateRight"
    | .navigateUp => .ofString "NavigateUp"
    | .navigateDown => .ofString "NavigateDown"
    | .placeX => .ofString "PlaceX"
    | .placeY => .ofString "PlaceY"
    | .placeZ => .ofString "PlaceZ"
    | .placeH => .ofString "PlaceH"
    | .delete => .ofString "Delete"
    | .toggleControl => .ofString "ToggleControl"
    | .moveControlUp => .ofString "MoveControlUp"
    | .moveControlDown => .ofString "MoveControlDown"
    | .rotateBy angle => .tagged "RotateBy" (JsonForm.encode angle)
  decode? value :=
    (select? Command.plainTags value)
      <|> ((payload? "RotateBy" value >>= JsonForm.decode?).map .rotateBy)

/-! ## Grids -/

/-- The content of a grid as it is stored outside the library: nothing says that
the nodes fill the dimensions, or that the dimensions are within the limits. -/
structure GridRecord (α : Type) where
  dimensions : Dimensions
  /-- The nodes column by column. -/
  nodes : List (Node α)
  deriving DecidableEq, Repr

/-- What is stored of a grid. -/
def Grid.toRecord {wires columns : Nat} (grid : Grid α wires columns) : GridRecord α :=
  ⟨⟨wires, columns⟩, grid.nodes⟩

instance : JsonForm (GridRecord α) where
  encode grid :=
    .ofFields [("wires", .ofNat grid.dimensions.wires), ("columns", .ofNat grid.dimensions.columns),
      ("nodes", .array (grid.nodes.map JsonForm.encode))]
  decode? value :=
    match parts? ["wires", "columns", "nodes"] false value with
    | some [wires, columns, nodes] => do
      return {
        dimensions := ⟨← wires.bind (natural? maxWord64), ← columns.bind (natural? maxWord64)⟩
        nodes := ← nodes.bind decodeArray? }
    | _ => none

/-! ## Settings -/

instance : JsonForm Dimensions where
  encode grid := .ofFields [("wires", .ofNat grid.wires), ("columns", .ofNat grid.columns)]
  decode? value :=
    match parts? ["wires", "columns"] true value with
    | some [wires, columns] => do
      return ⟨← withDefault? Dimensions.default.wires (natural? maxWord64) wires,
        ← withDefault? Dimensions.default.columns (natural? maxWord64) columns⟩
    | _ => none

/-- Settings read from JSON; what is missing is taken from the given ones. -/
def Settings.decodeOver? (defaults : Settings α) (value : Json) : Option (Settings α) :=
  match parts? ["grid", "rotation_step", "shots"] true value with
  | some [grid, rotationStep, shots] => do
    return {
      grid := ← withDefault? defaults.grid JsonForm.decode? grid
      rotationStep := ← withDefault? defaults.rotationStep JsonForm.decode? rotationStep
      shots := ← withDefault? defaults.shots (natural? maxWord32) shots }
  | _ => none

/-- Settings as JSON. -/
def Settings.encode (settings : Settings α) : Json :=
  .ofFields [("grid", JsonForm.encode settings.grid),
    ("rotation_step", JsonForm.encode settings.rotationStep), ("shots", .ofNat settings.shots)]

instance : JsonForm (Settings Float) where
  encode := Settings.encode
  decode? := Settings.decodeOver? Settings.default

end CircuitGrid
