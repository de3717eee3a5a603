import CircuitGrid.Gate
import CircuitGrid.Angle

/-!
# Nodes: the stored content of one cell

A node owns everything that can be said about a gate: its kind, its rotation
and the wires it is linked to. Control and swap-partner markers on other wires
are never stored; they are derived from these links (see
`CircuitGrid.Column`). Links are plain numbers, and nothing here asks whether
the wire they name exists.
-/

namespace CircuitGrid

/-- The content of one cell. -/
structure Node (α : Type) where
  /-- What the cell stores. -/
  content : Content
  /-- Rotation in radians; it matters for the Pauli gates only. -/
  rotation : α
  /-- First control wire. -/
  controlA : Option Nat := none
  /-- Second control wire, used by a doubly controlled X gate only. -/
  controlB : Option Nat := none
  /-- The other wire of a swap gate. -/
  partner : Option Nat := none
  deriving DecidableEq, Repr

namespace Node

variable {α : Type}

/-! ## Links -/

/-- The node with `wire` as its first control. -/
def withControl (node : Node α) (wire : Nat) : Node α := { node with controlA := some wire }

/-- The node with two control wires. -/
def withControls (node : Node α) (a b : Nat) : Node α :=
  { node with controlA := some a, controlB := some b }

/-- The node without its control wires. -/
def withoutControls (node : Node α) : Node α :=
  { node with controlA := none, controlB := none }

/-- The node with `wire` as its swap partner. -/
def withPartner (node : Node α) (wire : Nat) : Node α := { node with partner := some wire }

/-! ## Building nodes -/

section Building

variable [Angle α]

/-- The node of a free cell. -/
def empty : Node α := ⟨.empty, Angle.zero, none, none, none⟩

/-- A gate without rotation and without links. -/
def ofGate (g : Gate) : Node α := ⟨.gate g, Angle.zero, none, none, none⟩

/-- A trace marker. -/
def trace : Node α := ⟨.trace, Angle.zero, none, none, none⟩

/-- A swap gate whose other wire is `wire`. -/
def swapWith (wire : Nat) : Node α := (ofGate .swap).withPartner wire

/-- The node turned to the given angle, wrapped into one turn. -/
def withRotation (node : Node α) (angle : α) : Node α :=
  { node with rotation := Angle.normalize angle }

end Building

/-! ## Asking about nodes -/

/-- The gate the node owns, if any. -/
def gate? (node : Node α) : Option Gate := node.content.gate?

/-- Whether the node stores nothing. -/
def isEmpty (node : Node α) : Bool := node.content = .empty

/-- Whether the node carries a rotation other than zero. -/
def isRotated [Angle α] (node : Node α) : Bool := !Angle.isZero node.rotation

/-- Whether `wire` is one of the control wires of the node. -/
def isControlledBy (node : Node α) (wire : Nat) : Bool :=
  node.controlA = some wire || node.controlB = some wire

/-- The marker that the node puts on `wire`. A control link comes before a swap link. -/
def markerOn (node : Node α) (wire : Nat) : Option CellKind :=
  if node.isControlledBy wire then some .control
  else if node.partner = some wire then some .swapPartner
  else none

/-- Whether the node has a control wire. -/
def hasControls (node : Node α) : Bool :=
  node.controlA.isSome || node.controlB.isSome

/-- Whether the node owns a gate that accepts controls. -/
def isControllable (node : Node α) : Bool :=
  node.gate?.any Gate.isControllable

/-! ## Turning nodes -/

/-- The node turned further by `angle`; only a Pauli gate can be turned. -/
def rotateBy? [Angle α] (node : Node α) (angle : α) : Option (Node α) :=
  if node.gate?.any Gate.isRotatable then
    some (node.withRotation (Angle.add node.rotation angle))
  else none

/-! ## The node in words -/

/-- The node in words, given how an angle is written. -/
def text [Angle α] (writeAngle : α → String) (node : Node α) : String :=
  let link (label : String) : Option Nat → String
    | some wire => label ++ toString wire
    | none => ""
  "type: "
    ++ (match node.content with
      | .empty => "empty"
      | .trace => "trace"
      | .gate g => g.name)
    ++ (if node.isRotated then ", radians: " ++ writeAngle node.rotation else "")
    ++ link ", ctrl_a: " node.controlA
    ++ link ", ctrl_b: " node.controlB
    ++ link ", swap: " node.partner

end Node

end CircuitGrid
