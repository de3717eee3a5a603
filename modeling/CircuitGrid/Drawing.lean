import CircuitGrid.Grid
import CircuitGrid.Decimal

/-!
# Drawing a grid as text

One line per wire: the wire's name in four characters, then five characters per
column with the cell's label centred on the wire.
-/

namespace CircuitGrid

/-! ## Labels -/

/-- The label of a cell: what it stands for, and for a gate how it is used.

A rotated Pauli gate is marked by a leading R, and an unrotated X gate with a
control by the usual circled plus. Both ends of a swap look alike. -/
def cellLabel {α : Type} [Angle α] (kind : CellKind) (node : Node α) : List Char :=
  match kind with
  | .empty => []
  | .trace => ['┼']
  | .control => ['●']
  | .swapPartner | .gate .swap => ['×']
  | .gate g =>
    if g = .pauliX && !node.isRotated && node.hasControls then ['⊕']
    else if g.isRotatable && node.isRotated then 'R' :: g.name.toList
    else g.name.toList.map Char.toUpper

/-- The label centred in five characters of wire; an odd space goes to the right. -/
def centreOnWire (label : List Char) : List Char :=
  let spare := 5 - label.length
  List.replicate (spare / 2) '─' ++ label ++ List.replicate (spare - spare / 2) '─'

/-- The name of a wire, filled up to four characters. -/
def wireHeader (wire : Nat) : List Char :=
  let name := 'q' :: decimalDigits wire
  name ++ List.replicate (4 - name.length) ' '

/-! ## Lines -/

namespace Grid

variable {α : Type} [Angle α] {wires columns : Nat}

/-- The five characters of a cell. -/
def drawCell (grid : Grid α wires columns) (wire : Fin wires) (column : Fin columns) :
    List Char :=
  let nodes := grid.columnAt column
  centreOnWire (cellLabel (nodes.kindAt wire) (nodes.get wire))

/-- The line of a wire, without its newline. -/
def drawWire (grid : Grid α wires columns) (wire : Fin wires) : List Char :=
  wireHeader wire ++ (List.finRange columns).flatMap (grid.drawCell wire)

/-- The characters of the drawing, each line ended by a newline. -/
def drawing (grid : Grid α wires columns) : List Char :=
  (List.finRange wires).flatMap fun wire => grid.drawWire wire ++ ['\n']

/-- The drawing as a string. -/
def text (grid : Grid α wires columns) : String := String.ofList grid.drawing

end Grid

end CircuitGrid
