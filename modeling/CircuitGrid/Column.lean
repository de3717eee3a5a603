import CircuitGrid.Node

/-!
# Columns

A column is one time step of a circuit: one node for every wire. Links never
leave their column, so whatever depends on links is decided here: what a cell
stands for, which gate a control marker belongs to, and on which side of its
gate the marker sits.
-/

namespace CircuitGrid

/-- The nodes of one column, ordered by wire. -/
abbrev Column (α : Type) (n : Nat) := Vector (Node α) n

/-- On which side of its gate a control marker sits. -/
inductive Side where
  /-- On a smaller wire than the gate. -/
  | above
  /-- On a larger wire than the gate. -/
  | below
  deriving DecidableEq, Repr

namespace Column

variable {α : Type} {n : Nat}

/-- The column with another node on `wire`. -/
def put (column : Column α n) (wire : Fin n) (node : Node α) : Column α n :=
  column.set wire.val node wire.isLt

/-- What the cell on `wire` stands for.

An occupied cell stands for its own content. A free one takes the marker of
the first other node of the column that is linked to it. -/
def kindAt (column : Column α n) (wire : Fin n) : CellKind :=
  match (column.get wire).content with
  | .gate g => .gate g
  | .trace => .trace
  | .empty =>
    ((List.finRange n).findSome? fun other =>
      if other = wire then none else (column.get other).markerOn wire).getD .empty

/-- The first other wire whose node names `wire` as a control. -/
def owner? (column : Column α n) (wire : Fin n) : Option (Fin n) :=
  (List.finRange n).find? fun other => other ≠ wire && (column.get other).isControlledBy wire

/-- The side of its gate on which the control marker on `wire` sits. -/
def side? (column : Column α n) (wire : Fin n) : Option Side :=
  (column.owner? wire).map fun owner => if wire < owner then .above else .below

/-- What every cell of the column stands for. -/
def kinds (column : Column α n) : List CellKind :=
  (List.finRange n).map column.kindAt

end Column

end CircuitGrid
