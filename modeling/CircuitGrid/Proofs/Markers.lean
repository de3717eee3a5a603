import CircuitGrid.Proofs.LinkExclusive
import Mathlib.Data.Fin.Tuple.Basic

/-!
# Control markers and the sides of their gates

A column is searched twice for links to a wire. What the cell stands for is decided by what it
stores, and for a free cell by the first other node with a link of any kind to it. The owner
of a marker, and with it the side on which the marker sits, is found by the first other node
with a control link, whatever the cell stores. The two searches agree on every cell but an
*overshadowed* one: one that has an owner, but stores something itself, or is named as a
partner by a node before the owner. A link-exclusive column has no such cell.
-/

namespace CircuitGrid

/-- A node marks no wire that it has neither as a control nor as its partner. -/
theorem Node.markerOn_eq_none_iff_unlinked {α : Type} (node : Node α) (wire : Nat) :
    node.markerOn wire = none ↔ node.isControlledBy wire = false ∧ node.partner ≠ some wire := by
  unfold markerOn
  split <;> simp_all

namespace Column

variable {α : Type} {n : Nat}

/-- `owner` is the first wire, apart from `wire` itself, whose node has `wire` as a control. -/
structure FirstOwner (column : Column α n) (wire owner : Fin n) : Prop where
  ne : owner ≠ wire
  controlled : (column.get owner).isControlledBy wire = true
  first : ∀ earlier, earlier < owner → earlier ≠ wire →
    (column.get earlier).isControlledBy wire = false

/-- The cell on `wire` has an owner, but stores something, or is a partner of a node before
the owner. -/
def Overshadowed (column : Column α n) (wire : Fin n) : Prop :=
  ∃ owner, column.FirstOwner wire owner ∧ ((column.get wire).content ≠ .empty ∨
    ∃ earlier, earlier < owner ∧ earlier ≠ wire ∧ (column.get earlier).partner = some wire.val)

variable {column : Column α n} {wire : Fin n}

/-! ## The two searches -/

theorem owner?_eq_some_iff {owner : Fin n} :
    column.owner? wire = some owner ↔ column.FirstOwner wire owner := by
  unfold owner?
  rw [← Fin.find?_eq_find?_finRange, Fin.find?_eq_some_iff]
  simp only [Bool.and_eq_true, Bool.and_eq_false_iff, decide_eq_true_eq, decide_eq_false_iff_not,
    not_not]
  constructor
  · rintro ⟨⟨hne, hcontrolled⟩, hearlier⟩
    exact ⟨hne, hcontrolled, fun earlier hlt hwire => (hearlier earlier hlt).resolve_left hwire⟩
  · intro h
    refine ⟨⟨h.ne, h.controlled⟩, fun earlier hlt => ?_⟩
    by_cases hwire : earlier = wire
    · exact Or.inl hwire
    · exact Or.inr (h.first earlier hlt hwire)

theorem FirstOwner.unique {owner other : Fin n} (h : column.FirstOwner wire owner)
    (hother : column.FirstOwner wire other) : owner = other := by
  rw [← owner?_eq_some_iff] at h hother
  exact Option.some.inj (h.symm.trans hother)

/-- The first node that marks a free cell decides what it stands for. -/
theorem kindAt_eq_control_iff_marked (hcontent : (column.get wire).content = .empty) :
    column.kindAt wire = .control ↔ ∃ owner, owner ≠ wire ∧
      (column.get owner).isControlledBy wire = true ∧
      ∀ earlier, earlier < owner → earlier ≠ wire →
        (column.get earlier).markerOn wire = none := by
  have hsearch : column.kindAt wire = .control ↔ ∃ owner,
      (if owner = wire then none else (column.get owner).markerOn wire) = some .control ∧
        ∀ earlier, earlier < owner →
          (if earlier = wire then none else (column.get earlier).markerOn wire) = none := by
    unfold kindAt
    rw [hcontent, ← Fin.findSome?_eq_findSome?_finRange, ← Fin.findSome?_eq_some_iff]
    cases Fin.findSome? fun other =>
      if other = wire then none else (column.get other).markerOn wire <;> simp
  rw [hsearch]
  refine exists_congr fun owner => ?_
  by_cases howner : owner = wire
  · simp [howner]
  · simp [howner, Node.markerOn_eq_control_iff]

/-- A cell stands for a control if it stores nothing and the first node that is linked to it
has it as a control. -/
theorem kindAt_eq_control_iff_first : column.kindAt wire = .control ↔
    (column.get wire).content = .empty ∧ ∃ owner, column.FirstOwner wire owner ∧
      ∀ earlier, earlier < owner → earlier ≠ wire →
        (column.get earlier).partner ≠ some wire.val := by
  cases hcontent : (column.get wire).content with
  | gate g => simp [kindAt, hcontent]
  | trace => simp [kindAt, hcontent]
  | empty =>
    rw [kindAt_eq_control_iff_marked hcontent]
    simp only [Node.markerOn_eq_none_iff_unlinked, true_and]
    refine exists_congr fun owner => ⟨?_, ?_⟩
    · rintro ⟨hne, hcontrolled, hunlinked⟩
      exact ⟨⟨hne, hcontrolled, fun earlier hlt hwire => (hunlinked earlier hlt hwire).1⟩,
        fun earlier hlt hwire => (hunlinked earlier hlt hwire).2⟩
    · rintro ⟨howner, hpartner⟩
      exact ⟨howner.ne, howner.controlled, fun earlier hlt hwire =>
        ⟨howner.first earlier hlt hwire, hpartner earlier hlt hwire⟩⟩

/-- What stands for a control has an owner and is not overshadowed, and nothing else does. -/
theorem kindAt_eq_control_iff_owned : column.kindAt wire = .control ↔
    (∃ owner, column.FirstOwner wire owner) ∧ ¬ column.Overshadowed wire := by
  rw [kindAt_eq_control_iff_first]
  constructor
  · rintro ⟨hcontent, owner, howner, hpartner⟩
    refine ⟨⟨owner, howner⟩, ?_⟩
    rintro ⟨other, hother, hstores | ⟨earlier, hlt, hwire, hlinked⟩⟩
    · exact hstores hcontent
    · rw [hother.unique howner] at hlt
      exact hpartner earlier hlt hwire hlinked
  · rintro ⟨⟨owner, howner⟩, hclear⟩
    refine ⟨?_, owner, howner, fun earlier hlt hwire hlinked => ?_⟩
    · by_contra hstores
      exact hclear ⟨owner, howner, Or.inl hstores⟩
    · exact hclear ⟨owner, howner, Or.inr ⟨earlier, hlt, hwire, hlinked⟩⟩

/-- A marker sits on a side if the cell has an owner, and on the side that the wires tell. -/
theorem side?_eq_some_iff {side : Side} : column.side? wire = some side ↔
    ∃ owner, column.FirstOwner wire owner ∧
      (side = .above ∧ wire < owner ∨ side = .below ∧ owner < wire) := by
  unfold side?
  rw [Option.map_eq_some_iff]
  simp only [owner?_eq_some_iff]
  refine exists_congr fun owner => and_congr_right fun howner => ?_
  rcases lt_or_gt_of_ne howner.ne with hbelow | habove
  · simp [hbelow, hbelow.not_gt, eq_comm]
  · simp [habove, habove.not_gt, eq_comm]

theorem side?_isSome_iff_owned :
    (column.side? wire).isSome = true ↔ ∃ owner, column.FirstOwner wire owner := by
  unfold side?
  rw [Option.isSome_map, Option.isSome_iff_exists]
  exact exists_congr fun owner => owner?_eq_some_iff

/-! ## Agreement -/

/-- In a link-exclusive column no marker is overshadowed. -/
theorem LinkExclusive.not_overshadowed (h : column.LinkExclusive) (wire : Fin n) :
    ¬ column.Overshadowed wire := by
  rintro ⟨owner, howner, hover⟩
  obtain ⟨slot, hslot, hlink⟩ : ∃ slot, slot ≠ .partner ∧
      (column.get owner).link? slot = some wire.val := by
    rcases (Node.isControlledBy_iff _ _).mp howner.controlled with ha | hb
    · exact ⟨.controlA, nofun, ha⟩
    · exact ⟨.controlB, nofun, hb⟩
  rcases hover with hstores | ⟨earlier, -, -, hpartner⟩
  · exact h.unnamed_of_content hstores owner slot hlink
  · exact hslot (h.target_unique owner slot earlier .partner wire hlink hpartner).2

theorem LinkExclusive.side?_isSome_iff (h : column.LinkExclusive) (wire : Fin n) :
    (column.side? wire).isSome = true ↔ column.kindAt wire = .control := by
  rw [kindAt_eq_control_iff_owned, side?_isSome_iff_owned]
  exact (and_iff_left (h.not_overshadowed wire)).symm

end Column

/-! ## Grids -/

namespace Grid

variable {α : Type} {wires columns : Nat}

/-- The side of a cell and what the cell stands for, on any grid. Where the cell is not
overshadowed it has a side exactly if it stands for a control; an overshadowed cell has one as
well, though it stands for something else. The side tells whether the wire of the cell is
smaller or larger than that of the owner. -/
theorem side?_of_kindAt (grid : Grid α wires columns) (wire : Fin wires) (column : Fin columns) :
    ∃ kind side, grid.kindAt wire column = .ok kind ∧ grid.side? wire column = .ok side ∧
      (¬ (grid.columnAt column).Overshadowed wire → (side.isSome = true ↔ kind = .control)) ∧
      ((grid.columnAt column).Overshadowed wire → side.isSome = true ∧ kind ≠ .control) ∧
      ∀ found, side = some found ↔ ∃ owner, (grid.columnAt column).FirstOwner wire owner ∧
        grid.owner? wire column = .ok (some owner) ∧
        (found = .above ∧ wire < owner ∨ found = .below ∧ owner < wire) := by
  refine ⟨_, _, grid.kindAt_fin wire column, grid.side?_fin wire column, ?_, ?_, ?_⟩
  · intro hclear
    rw [Column.kindAt_eq_control_iff_owned, Column.side?_isSome_iff_owned]
    exact (and_iff_left hclear).symm
  · intro hover
    rw [Ne, Column.kindAt_eq_control_iff_owned, Column.side?_isSome_iff_owned]
    exact ⟨hover.imp fun _ => And.left, fun hkind => hkind.2 hover⟩
  · intro found
    rw [Column.side?_eq_some_iff, grid.owner?_fin]
    simp only [Except.ok.injEq, Column.owner?_eq_some_iff, and_self_left]

/-- The two ways to be overshadowed: a gate on a wire that another gate names, and a wire that
is the partner of a swap before it is a control. Neither cell is a control, and both have a
side. -/
theorem side?_of_overshadowed :
    let occupied : Grid Float 2 1 :=
      .ofColumn #v[.ofGate .hadamard, (Node.ofGate .pauliX).withControl 0] (by decide)
    let shared : Grid Float 3 1 :=
      .ofColumn #v[.empty, .swapWith 0, (Node.ofGate .pauliX).withControl 0] (by decide)
    (occupied.kindAt 0 0 = .ok (.gate .hadamard) ∧ occupied.side? 0 0 = .ok (some .above)) ∧
      (shared.kindAt 0 0 = .ok .swapPartner ∧ shared.side? 0 0 = .ok (some .above)) := by
  intro occupied shared
  exact ⟨⟨rfl, rfl⟩, ⟨rfl, rfl⟩⟩

end Grid

end CircuitGrid
