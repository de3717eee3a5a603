import CircuitGrid.Proofs.Addressing
import CircuitGrid.Proofs.LinkExclusive
import CircuitGrid.Proofs.ReversibleMoves
import Mathlib.Data.Fin.Rev

/-!
# Up and down are mirror images

The mirror image of a grid has the wires of every column in reverse order and every link
renumbered accordingly. What a control does that moves down, it does in the mirror image when
it moves up. The two directions are not written alike: on the way up nothing lies before the
first wire, and on the way down a step past the last wire is taken and then refused. Seen
from the wire where the control lands, they agree.

The links need not make sense, so long as they name wires of the column. Of two nodes that
name the same wire, one as its control and one as its partner, the first decides on the
marker; that is the only thing in which the mirror image differs.
-/

namespace CircuitGrid

/-! ## Mirror images -/

/-- The wire as counted from the other end. -/
def mirrorWire (n wire : Nat) : Nat := n - 1 - wire

theorem val_rev_eq_mirrorWire {n : Nat} (wire : Fin n) : wire.rev.val = mirrorWire n wire := by
  rw [Fin.val_rev, mirrorWire]
  omega

namespace Node

variable {α : Type}

/-- The node with its links renumbered. -/
def mirror (n : Nat) (node : Node α) : Node α :=
  { node with
    controlA := node.controlA.map (mirrorWire n)
    controlB := node.controlB.map (mirrorWire n)
    partner := node.partner.map (mirrorWire n) }

theorem link?_mirror (n : Nat) (node : Node α) (slot : LinkSlot) :
    (node.mirror n).link? slot = (node.link? slot).map (mirrorWire n) := by
  cases slot <;> rfl

/-- A link within the column names a wire if the renumbered link names its mirror image. -/
theorem link?_mirror_eq_some_iff {n : Nat} {node : Node α} {slot : LinkSlot}
    (hinside : ∀ target, node.link? slot = some target → target < n) (wire : Fin n) :
    (node.mirror n).link? slot = some wire.rev.val ↔ node.link? slot = some wire.val := by
  rw [link?_mirror, val_rev_eq_mirrorWire]
  cases hlink : node.link? slot with
  | none => simp
  | some target =>
    have htarget := hinside target hlink
    have hwire := wire.isLt
    simp only [Option.map_some, Option.some.injEq, mirrorWire]
    omega

end Node

namespace Column

variable {α : Type} {n : Nat}

/-- The column in reverse order. -/
def mirror (column : Column α n) : Column α n :=
  column.mapFinIdx fun wire _ h => (column.get (Fin.rev ⟨wire, h⟩)).mirror n

theorem get_mirror (column : Column α n) (wire : Fin n) :
    column.mirror.get wire = (column.get wire.rev).mirror n :=
  Vector.getElem_mapFinIdx wire.isLt

theorem get_mirror_rev (column : Column α n) (wire : Fin n) :
    column.mirror.get wire.rev = (column.get wire).mirror n := by
  rw [get_mirror, Fin.rev_rev]

/-- Every link of the column names a wire of the column. -/
def LinksInside (column : Column α n) : Prop :=
  ∀ wire slot target, (column.get wire).link? slot = some target → target < n

instance (column : Column α n) : Decidable column.LinksInside :=
  decidable_of_iff (∀ wire slot, ∀ target ∈ (column.get wire).link? slot, target < n) Iff.rfl

/-! ## Cells -/

theorem kindAt_mirror_eq_trace_iff (column : Column α n) (wire : Fin n) :
    column.mirror.kindAt wire.rev = .trace ↔ column.kindAt wire = .trace := by
  rw [kindAt_eq_trace_iff, kindAt_eq_trace_iff, get_mirror_rev]
  rfl

theorem kindAt_mirror_eq_gate_iff (column : Column α n) (wire : Fin n) (gate : Gate) :
    column.mirror.kindAt wire.rev = .gate gate ↔ column.kindAt wire = .gate gate := by
  rw [kindAt_eq_gate_iff, kindAt_eq_gate_iff, get_mirror_rev]
  rfl

namespace LinksInside

variable {column : Column α n}

theorem kindAt_mirror_eq_empty_iff (h : column.LinksInside) (wire : Fin n) :
    column.mirror.kindAt wire.rev = .empty ↔ column.kindAt wire = .empty := by
  have hlinks : ∀ other slot, (column.mirror.get (Fin.rev other)).link? slot ≠ some wire.rev.val ↔
      (column.get other).link? slot ≠ some wire.val := by
    intro other slot
    rw [get_mirror_rev, ne_eq, Node.link?_mirror_eq_some_iff (h other slot)]
  rw [kindAt_eq_empty_iff, kindAt_eq_empty_iff, get_mirror_rev, Fin.rev_surjective.forall]
  simp only [hlinks, ne_eq, Fin.rev_inj]
  rfl

theorem acceptsControl_kindAt_mirror (h : column.LinksInside) (wire : Fin n) :
    (column.mirror.kindAt wire.rev).acceptsControl = (column.kindAt wire).acceptsControl := by
  rw [Bool.eq_iff_iff, CellKind.acceptsControl_iff, CellKind.acceptsControl_iff,
    h.kindAt_mirror_eq_empty_iff, kindAt_mirror_eq_trace_iff]

end LinksInside

/-! ## Moves -/

variable [Angle α]

theorem landing?_mirror (gate control : Fin n) (direction : Direction) :
    landing? gate.rev control.rev direction.opposite =
      (landing? gate control direction).map Fin.rev := by
  apply Option.ext
  intro candidate
  obtain ⟨candidate, rfl⟩ := Fin.rev_surjective candidate
  rw [landing?_eq_some_iff, Option.map_eq_some_iff]
  simp only [Fin.rev_inj, exists_eq_right, landing?_eq_some_iff]
  have hgate := gate.isLt
  have hcontrol := control.isLt
  have hcandidate := candidate.isLt
  cases direction with
  | left | right => simp only [Direction.opposite, controlStep?, reduceCtorEq]
  | up | down =>
    rw [Direction.opposite, controlStep?_up_iff, controlStep?_down_iff]
    simp only [Fin.val_rev]
    omega

theorem wireBehind?_mirror (gate candidate : Fin n) (direction : Direction) :
    wireBehind? gate.rev candidate.rev direction.opposite =
      (wireBehind? gate candidate direction).map (mirrorWire n) := by
  have hgate := gate.isLt
  have hcandidate := candidate.isLt
  cases direction with
  | left | right => rfl
  | up =>
    simp only [Direction.opposite, wireBehind?, Fin.val_rev]
    by_cases hside : candidate.val < gate.val
    · rw [if_pos (by omega), if_pos hside, Option.map_some, mirrorWire]
      exact congrArg some (by omega)
    · rw [if_neg (by omega), if_neg hside, Option.map_none]
  | down =>
    simp only [Direction.opposite, wireBehind?, Fin.val_rev]
    by_cases hside : gate.val < candidate.val
    · rw [if_pos (by omega), if_pos hside, Option.map_some, mirrorWire]
      exact congrArg some (by omega)
    · rw [if_neg (by omega), if_neg hside, Option.map_none]

theorem link_mirror (column : Column α n) (gate control : Fin n) :
    column.mirror.link gate.rev control.rev = (column.link gate control).mirror := by
  apply ext_get
  intro wire
  obtain ⟨wire, rfl⟩ := Fin.rev_surjective wire
  rw [get_mirror_rev, get_link, get_link]
  simp only [Fin.rev_inj, get_mirror_rev]
  split
  · rfl
  · split
    · rw [Node.withControl, val_rev_eq_mirrorWire]
      rfl
    · rfl

namespace LinksInside

variable {column : Column α n}

/-- A moved control stays inside the column. -/
theorem link (h : column.LinksInside) (gate control : Fin n) :
    (column.link gate control).LinksInside := by
  intro wire slot target hlink
  rw [get_link] at hlink
  split at hlink
  · cases slot <;> cases hlink
  · split at hlink
    · cases slot with
      | controlA =>
        cases hlink
        exact control.isLt
      | controlB => exact h gate .controlB target hlink
      | partner => exact h gate .partner target hlink
    · exact h wire slot target hlink

theorem markTrace (h : column.LinksInside) (left : Nat) : (column.markTrace left).LinksInside := by
  intro wire slot target hlink
  rw [get_markTrace] at hlink
  split at hlink
  · cases slot <;> cases hlink
  · exact h wire slot target hlink

theorem moveControl (h : column.LinksInside) {wire : Fin n} {direction : Direction}
    {nodes : Column α n} (hchange : column.moveControl wire direction = .changed nodes) :
    nodes.LinksInside := by
  obtain ⟨-, control, candidate, placed, -, -, -, hplaced, rfl⟩ := moveControl_eq_changed hchange
  obtain ⟨landed, -, -, rfl⟩ := placeControl_eq_placed hplaced
  cases wireBehind? wire candidate direction with
  | none => exact h.link wire landed
  | some left => exact (h.link wire landed).markTrace left

theorem markTrace_mirror (h : column.LinksInside) (wire : Fin n) :
    column.mirror.markTrace (mirrorWire n wire) = (column.markTrace wire).mirror := by
  apply ext_get
  intro other
  obtain ⟨other, rfl⟩ := Fin.rev_surjective other
  rw [get_mirror_rev, get_markTrace, get_markTrace, get_mirror_rev, ← val_rev_eq_mirrorWire]
  simp only [Fin.val_inj, Fin.rev_inj, h.kindAt_mirror_eq_empty_iff]
  split <;> rfl

theorem moved_mirror (h : column.LinksInside) (gate candidate : Fin n) (direction : Direction) :
    column.mirror.moved gate.rev candidate.rev direction.opposite =
      (column.moved gate candidate direction).mirror := by
  unfold moved
  rw [wireBehind?_mirror, link_mirror]
  cases hbehind : wireBehind? gate candidate direction with
  | none => rfl
  | some left =>
    exact (h.link gate candidate).markTrace_mirror ⟨left, wireBehind?_lt hbehind⟩

end LinksInside

/-- An edit of a column and one of its mirror image come to the same. What is in the way is the
same gate, or no gate in either. -/
inductive Mirrored : ColumnEdit α n → ColumnEdit α n → Prop
  | changed (nodes : Column α n) : Mirrored (.changed nodes) (.changed nodes.mirror)
  | unchanged : Mirrored .unchanged .unchanged
  | blocked (wire : Fin n) {found found' : CellKind}
      (hgate : ∀ gate, found' = .gate gate ↔ found = .gate gate) :
      Mirrored (.blocked wire found) (.blocked wire.rev found')

/-- Without a gate that takes controls, or without a control, there is nothing to move. -/
theorem moveControl_eq_unchanged {column : Column α n} {wire : Fin n} (direction : Direction)
    (h : (column.get wire).isControllable = false ∨ (column.get wire).controlA = none) :
    column.moveControl wire direction = .unchanged := by
  unfold moveControl
  rcases h with h | h
  · simp only [h]
    rfl
  · simp only [h]
    split <;> rfl

theorem LinksInside.moveControl_mirror {column : Column α n} (h : column.LinksInside)
    (wire : Fin n) (direction : Direction) :
    Mirrored (column.moveControl wire direction)
      (column.mirror.moveControl wire.rev direction.opposite) := by
  have hnode := get_mirror_rev column wire
  cases hcontrollable : (column.get wire).isControllable with
  | false =>
    rw [moveControl_eq_unchanged _ (Or.inl hcontrollable),
      moveControl_eq_unchanged _ (Or.inl (by rw [hnode]; exact hcontrollable))]
    exact .unchanged
  | true =>
    cases hcontrol : (column.get wire).controlA with
    | none =>
      rw [moveControl_eq_unchanged _ (Or.inr hcontrol),
        moveControl_eq_unchanged _ (Or.inr (by rw [hnode, Node.mirror, hcontrol]; rfl))]
      exact .unchanged
    | some target =>
      obtain ⟨control, rfl⟩ : ∃ control : Fin n, target = control :=
        ⟨⟨target, h wire .controlA target hcontrol⟩, rfl⟩
      have hmirrored : (column.mirror.get wire.rev).controlA = some control.rev.val := by
        rw [hnode]
        exact (Node.link?_mirror_eq_some_iff (h wire .controlA) control).mpr hcontrol
      rw [moveControl_eq direction hcontrollable hcontrol,
        moveControl_eq direction.opposite (by rw [hnode]; exact hcontrollable) hmirrored,
        landing?_mirror]
      cases landing? wire control direction with
      | none => exact .unchanged
      | some candidate =>
        simp only [Option.map_some, Option.elim_some, h.acceptsControl_kindAt_mirror,
          h.moved_mirror]
        split
        · exact .changed _
        · exact .blocked candidate (kindAt_mirror_eq_gate_iff column candidate)

end Column

/-! ## Editors -/

/-- The grid with its wires in reverse order. -/
def Grid.mirror {α : Type} {wires columns : Nat} (grid : Grid α wires columns) :
    Grid α wires columns :=
  { grid with cells := grid.cells.mapFinIdx fun _ nodes _ => Column.mirror nodes }

@[simp] theorem Grid.columnAt_mirror {α : Type} {wires columns : Nat}
    (grid : Grid α wires columns) (column : Fin columns) :
    grid.mirror.columnAt column = (grid.columnAt column).mirror :=
  Vector.getElem_mapFinIdx column.isLt

theorem Grid.mirror_setColumn {α : Type} {wires columns : Nat} (grid : Grid α wires columns)
    (column : Fin columns) (nodes : Column α wires) :
    (grid.setColumn column nodes).mirror = grid.mirror.setColumn column nodes.mirror := by
  apply ext_columnAt
  intro other
  rw [columnAt_mirror]
  by_cases hother : other = column
  · rw [hother, columnAt_setColumn_self, columnAt_setColumn_self]
  · rw [columnAt_setColumn_of_ne _ _ hother, columnAt_setColumn_of_ne _ _ hother, columnAt_mirror]

namespace Editor

variable {α : Type} {wires columns : Nat}

/-- The editor of the mirror image, with the cursor on the same cell. -/
def mirror (editor : Editor α wires columns) : Editor α wires columns :=
  ⟨editor.grid.mirror, ⟨mirrorWire wires editor.cursor.wire, editor.cursor.column⟩⟩

/-- An action and one in the mirror image end alike: both report the same, or both are rejected
for the same cell, where the same gate is found, or no gate by either. -/
inductive EndsMirrored (wires : Nat) : Except EditError Outcome → Except EditError Outcome → Prop
  | done (outcome : Outcome) : EndsMirrored wires (.ok outcome) (.ok outcome)
  | rejected {wire column : Nat} {found found' : CellKind} (hwire : wire < wires)
      (hgate : ∀ gate, found' = .gate gate ↔ found = .gate gate) :
      EndsMirrored wires (.error (.invalidPlacement wire column found))
        (.error (.invalidPlacement (mirrorWire wires wire) column found'))

variable [Angle α]

/-- A control that moves up in the mirror image does what it does when it moves down, and the
other way round. -/
theorem perform_moveControl_mirror {editor : Editor α wires columns}
    (hinside : editor.CursorInside) (hlinks : editor.grid.Each Column.LinksInside)
    (direction : Direction) :
    EndsMirrored wires (editor.perform (.edit (.moveControl direction))).1
      (editor.mirror.perform (.edit (.moveControl direction.opposite))).1 ∧
    (editor.mirror.perform (.edit (.moveControl direction.opposite))).2 =
      (editor.perform (.edit (.moveControl direction))).2.mirror := by
  obtain ⟨wire, column, hcursor⟩ := hinside.exists_fin
  have hmirror : editor.mirror.cursor = ⟨wire.rev, column⟩ := by
    rw [mirror, hcursor, val_rev_eq_mirrorWire]
  have hmove := (hlinks column).moveControl_mirror wire direction
  show EndsMirrored wires (editor.edit _).1 (editor.mirror.edit _).1 ∧
    (editor.mirror.edit _).2 = (editor.edit _).2.mirror
  rw [edit_fin hcursor, edit_fin hmirror]
  simp only [Edit.onColumn]
  have hcolumn : editor.mirror.grid.columnAt column = (editor.grid.columnAt column).mirror :=
    Grid.columnAt_mirror _ _
  rw [hcolumn]
  generalize (editor.grid.columnAt column).moveControl wire direction = result at hmove ⊢
  generalize (editor.grid.columnAt column).mirror.moveControl wire.rev direction.opposite =
    result' at hmove ⊢
  cases hmove with
  | changed nodes =>
    refine ⟨.done .changed, ?_⟩
    simp only [mirror, Grid.mirror_setColumn]
  | unchanged => exact ⟨.done .unchanged, rfl⟩
  | blocked other hgate =>
    refine ⟨?_, rfl⟩
    rw [val_rev_eq_mirrorWire]
    exact .rejected other.isLt hgate

/-- The wire below is named by the gate on the first wire as its control and by the swap as its
partner. Upside down, the swap comes first. -/
theorem perform_moveControl_mirror_of_shared_link :
    ∃ editor : Editor Float 4 1, editor.CursorInside ∧ editor.grid.Each Column.LinksInside ∧
      (editor.perform (.edit (.moveControl .down))).1 =
        .error (.invalidPlacement 3 0 .control) ∧
      (editor.mirror.perform (.edit (.moveControl .up))).1 =
        .error (.invalidPlacement 0 0 .swapPartner) ∧
      (editor.mirror.perform (.edit (.moveControl .up))).2 =
        (editor.perform (.edit (.moveControl .down))).2.mirror := by
  let editor : Editor Float 4 1 := ⟨.ofColumn #v[(Node.ofGate .pauliX).withControl 3,
    (Node.ofGate .pauliX).withControl 2, .swapWith 3, .empty] (by decide), ⟨1, 0⟩⟩
  have hinside : editor.CursorInside := ⟨by decide, by decide⟩
  have hlinks : editor.grid.Each Column.LinksInside := by decide
  exact ⟨editor, hinside, hlinks, by rfl, by rfl,
    (perform_moveControl_mirror hinside hlinks .down).2⟩

/-- Any number of moves, mirrored, leads to the mirror image. -/
theorem run_moves_mirror {editor : Editor α wires columns} (hinside : editor.CursorInside)
    (hlinks : editor.grid.Each Column.LinksInside) (moves : List Direction) :
    editor.mirror.run (moves.map fun direction => .edit (.moveControl direction.opposite)) =
      (editor.run (moves.map fun direction => .edit (.moveControl direction))).mirror := by
  induction moves generalizing editor with
  | nil => rfl
  | cons direction moves ih =>
    have hafter : (editor.perform (.edit (.moveControl direction))).2.grid.Each
        Column.LinksInside := by
      obtain ⟨wire, column, hcursor⟩ := hinside.exists_fin
      rw [perform_edit hcursor]
      exact hlinks.setColumn (Column.after_of_changed (hlinks column)
        (fun nodes hchange => (hlinks column).moveControl hchange))
    show (editor.mirror.perform (.edit (.moveControl direction.opposite))).2.run _ = _
    rw [(perform_moveControl_mirror hinside hlinks direction).2]
    exact ih (hinside.perform _) hafter

end Editor

end CircuitGrid
