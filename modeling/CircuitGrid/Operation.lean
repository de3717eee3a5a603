import CircuitGrid.Wire

/-!
# Compiled operations

A grid compiles to a list of operations. An operation is a primitive gate with
its wires: a target, the control wires in order, and for the two swaps the
second wire.
-/

namespace CircuitGrid

/-! ## Primitive gates -/

/-- The gates of compiled circuits; rotations carry their angle. -/
inductive Primitive (α : Type) where
  | id
  | x
  | y
  | z
  | h
  | s
  | sdg
  | t
  | tdg
  | rx (angle : α)
  | ry (angle : α)
  | rz (angle : α)
  | cx
  | cy
  | cz
  | ch
  | crz (angle : α)
  | ccx
  | swap
  | cswap
  deriving DecidableEq, Repr

namespace Primitive

variable {α : Type}

/-- The short name of the gate. -/
def name : Primitive α → String
  | .id => "id"
  | .x => "x"
  | .y => "y"
  | .z => "z"
  | .h => "h"
  | .s => "s"
  | .sdg => "sdg"
  | .t => "t"
  | .tdg => "tdg"
  | .rx _ => "rx"
  | .ry _ => "ry"
  | .rz _ => "rz"
  | .cx => "cx"
  | .cy => "cy"
  | .cz => "cz"
  | .ch => "ch"
  | .crz _ => "crz"
  | .ccx => "ccx"
  | .swap => "swap"
  | .cswap => "cswap"

/-- On how many wires the gate acts. -/
def arity : Primitive α → Nat
  | .id | .x | .y | .z | .h | .s | .sdg | .t | .tdg | .rx _ | .ry _ | .rz _ => 1
  | .cx | .cy | .cz | .ch | .crz _ | .swap => 2
  | .ccx | .cswap => 3

/-- The angle of a rotation. -/
def angle? : Primitive α → Option α
  | .rx angle | .ry angle | .rz angle | .crz angle => some angle
  | _ => none

/-- Whether the gate exchanges two wires. -/
def isSwap : Primitive α → Bool
  | .swap | .cswap => true
  | _ => false

end Primitive

/-! ## Operations -/

/-- A primitive gate with its wires. -/
structure Operation (α : Type) where
  gate : Primitive α
  target : Wire
  /-- Control wires in order. -/
  controls : List Wire
  /-- The second wire of a swap. -/
  partner : Option Wire := none
  deriving DecidableEq, Repr

namespace Operation

variable {α : Type}

/-- A gate on one wire. -/
def single (gate : Primitive α) (target : Wire) : Operation α :=
  ⟨gate, target, [], none⟩

/-- A gate on one wire under the given controls. -/
def controlled (gate : Primitive α) (controls : List Wire) (target : Wire) : Operation α :=
  ⟨gate, target, controls, none⟩

/-- The exchange of two wires. -/
def swap (target partner : Wire) : Operation α :=
  ⟨.swap, target, [], some partner⟩

/-- The exchange of two wires under a control. -/
def controlledSwap (control target partner : Wire) : Operation α :=
  ⟨.cswap, target, [control], some partner⟩

/-- Every wire in operand order: the controls, the target, then the partner. -/
def wires (op : Operation α) : List Wire :=
  op.controls ++ op.target :: op.partner.toList

/-- The operation in words, given how an angle is written. -/
def text (writeAngle : α → String) (op : Operation α) : String :=
  op.gate.name
    ++ (match op.gate.angle? with
      | some angle => "(" ++ writeAngle angle ++ ")"
      | none => "")
    ++ " " ++ ", ".intercalate (op.wires.map Wire.text)

end Operation

end CircuitGrid
