/-!
# Gates and what a cell holds

A cell stores a `Content`: a `Gate`, nothing, or the trace of a control link
that passes through. What it stands for is its `CellKind`, which depends on its
column as well, since a gate elsewhere in the column may name the wire as a
control or as a swap partner.
-/

namespace CircuitGrid

/-! ## Gates -/

/-- The gates a cell can own. -/
inductive Gate where
  | pauliX
  | pauliY
  | pauliZ
  | hadamard
  | s
  | sDagger
  | t
  | tDagger
  | identity
  | swap
  deriving DecidableEq, Repr

namespace Gate

/-- Every gate, once. -/
def all : List Gate :=
  [.pauliX, .pauliY, .pauliZ, .hadamard, .s, .sDagger, .t, .tDagger, .identity, .swap]

/-- The short name under which a gate is shown. -/
def name : Gate → String
  | .pauliX => "x"
  | .pauliY => "y"
  | .pauliZ => "z"
  | .hadamard => "h"
  | .s => "s"
  | .sDagger => "sdg"
  | .t => "t"
  | .tDagger => "tdg"
  | .identity => "id"
  | .swap => "swap"

/-- The Pauli gates carry a rotation angle. -/
def isRotatable : Gate → Bool
  | .pauliX | .pauliY | .pauliZ => true
  | _ => false

/-- The gates to which an edit may attach a control wire. -/
def isControllable : Gate → Bool
  | .pauliX | .pauliY | .pauliZ | .hadamard => true
  | _ => false

/-- Every gate but the swap occupies one wire of its own. -/
def isSingleWire : Gate → Bool
  | .swap => false
  | _ => true

/-- `all` misses no gate. -/
theorem mem_all (g : Gate) : g ∈ all := by
  cases g <;> decide

end Gate

/-! ## Stored content -/

/-- What a cell stores. -/
inductive Content where
  | empty
  | gate (g : Gate)
  | trace
  deriving DecidableEq, Repr

/-- The gate a cell owns, if it owns one. -/
def Content.gate? : Content → Option Gate
  | .gate g => some g
  | .empty | .trace => none

/-! ## Derived kinds -/

/-- What a cell stands for within its column. -/
inductive CellKind where
  | empty
  | gate (g : Gate)
  | trace
  /-- Another cell of the column names this wire as a control. -/
  | control
  /-- Another cell of the column names this wire as its swap partner. -/
  | swapPartner
  deriving DecidableEq, Repr

namespace CellKind

/-- A cell that no other cell refers to stands for what it stores. -/
def ofContent : Content → CellKind
  | .empty => .empty
  | .gate g => .gate g
  | .trace => .trace

/-- A control may be put on a free cell, and on a trace, which it replaces. -/
def acceptsControl : CellKind → Bool
  | .empty | .trace => true
  | _ => false

/-- The kind in words. -/
def text : CellKind → String
  | .empty => "empty"
  | .gate g => "gate " ++ g.name
  | .trace => "trace"
  | .control => "control"
  | .swapPartner => "swap partner"

end CellKind

end CircuitGrid
