import CircuitGrid.Angle.Radians
import CircuitGrid.Proofs.Addressing
import CircuitGrid.Proofs.GateEdits
import Mathlib.Data.Fintype.Card

/-!
# Deletion comes to an end

A gate that is deleted may leave a control marker behind, since the gates that name its wire
stay as they are, and a marker may have any number of owners. Each deletion on a marker takes
the controls of one owner, so the nodes that name the wire become fewer every time, and once
the cell is no marker nothing happens any more. A gate under the cursor names no wire once it is
deleted, which is why no more deletions than wires are needed in all.
-/

namespace CircuitGrid

/-- Deletion leaves a cell of this kind alone: it is free, holds a trace or is a swap partner. -/
def CellKind.Settled (kind : CellKind) : Prop :=
  kind = .empty ∨ kind = .trace ∨ kind = .swapPartner

namespace Column

variable {α : Type} {n : Nat}

/-- The wires whose nodes have `wire` as a control. -/
def controllers (column : Column α n) (wire : Nat) : Finset (Fin n) :=
  {other | (column.get other).isControlledBy wire = true}

theorem mem_controllers {column : Column α n} {wire : Nat} {other : Fin n} :
    other ∈ column.controllers wire ↔ (column.get other).isControlledBy wire = true := by
  simp [controllers]

variable [Angle α] {column nodes : Column α n} {wire owner : Fin n}

/-! ## One deletion -/

theorem delete_of_settled (h : (column.kindAt wire).Settled) :
    Edit.delete.onColumn column wire = .unchanged := by
  show column.delete wire = .unchanged
  unfold delete
  rcases h with h | h | h <;> rw [h]

/-- Away from the owner, removing its controls empties cells or leaves them as they are. -/
theorem get_removeControls?_of_ne (h : column.removeControls? owner = some nodes) {place : Fin n}
    (hne : place ≠ owner) : nodes.get place = column.get place ∨
      (column.get place).content = .trace ∧ nodes.get place = Node.empty := by
  obtain ⟨-, cleared, hcleared, rfl⟩ := removeControls?_eq_some h
  rw [get_put_of_ne _ _ hne]
  rcases hcleared with rfl | ⟨control, -, rfl⟩
  · exact Or.inl rfl
  · rw [get_clearTraces]
    split
    · next htrace => exact Or.inr ⟨htrace.2.2, rfl⟩
    · exact Or.inl rfl

/-- The owner of a marker names the wire no more once its controls are removed, and no other node
begins to. -/
theorem controllers_ssubset_of_removeControls? (h : column.removeControls? owner = some nodes)
    (howner : (column.get owner).isControlledBy wire = true) :
    nodes.controllers wire ⊂ column.controllers wire := by
  have hgone : owner ∉ nodes.controllers wire := by
    rw [mem_controllers, get_removeControls?_self h]
    exact nofun
  have hsubset : nodes.controllers wire ⊆ column.controllers wire := by
    intro place hplace
    have hne : place ≠ owner := fun heq => hgone (heq ▸ hplace)
    rw [mem_controllers] at hplace ⊢
    rcases get_removeControls?_of_ne h hne with hsame | ⟨-, hempty⟩
    · rwa [hsame] at hplace
    · rw [hempty] at hplace
      cases hplace
  exact ⟨hsubset, fun h => hgone (h (mem_controllers.mpr howner))⟩

/-- A deletion on a marker is made, fewer nodes name the wire afterwards, and the cell is kept. -/
theorem exists_delete_of_marker (h : column.kindAt wire = .control) :
    ∃ nodes, Edit.delete.onColumn column wire = .changed nodes ∧
      (nodes.controllers wire).card < (column.controllers wire).card ∧
      nodes.get wire = column.get wire := by
  obtain ⟨owner, nodes, howner, hcontrolled, hremoved, hchange⟩ := exists_removed_of_control h
  refine ⟨nodes, hchange,
    Finset.card_lt_card (controllers_ssubset_of_removeControls? hremoved hcontrolled), ?_⟩
  -- a marker stores nothing, not even a trace
  have hempty := (exists_control_of_kindAt h).1
  rcases get_removeControls?_of_ne hremoved (ne_of_owner? howner).symm with hsame | ⟨htrace, -⟩
  · exact hsame
  · rw [hempty] at htrace
    cases htrace

/-- A gate that is deleted leaves an empty node, which names no wire. -/
theorem exists_delete_of_owned {gate : Gate} (h : column.kindAt wire = .gate gate) :
    ∃ nodes, Edit.delete.onColumn column wire = .changed nodes ∧ (nodes.controllers wire).card < n ∧
      (nodes.get wire).content = .empty := by
  refine ⟨_, delete_of_gate h, ?_, ?_⟩
  · have hgone : wire ∉ (((column.removeControls? wire).getD column).put wire
        Node.empty).controllers wire := by
      rw [mem_controllers, get_put_self]
      exact nofun
    simpa using Finset.card_lt_univ_of_notMem hgone
  · rw [get_put_self]
    rfl

/-! ## Deletions in a row -/

/-- The first `k` deletions in a row are made, and the cell is settled after them. -/
inductive ClearedAfter (wire : Fin n) : Column α n → Nat → Prop
  | settled {column : Column α n} (h : (column.kindAt wire).Settled) : ClearedAfter wire column 0
  | deleted {column nodes : Column α n} {k : Nat}
      (h : Edit.delete.onColumn column wire = .changed nodes)
      (hrest : ClearedAfter wire nodes k) : ClearedAfter wire column (k + 1)

/-- On a cell that stores nothing, there are no more deletions than nodes that name the wire. -/
theorem exists_clearedAfter_of_empty (hempty : (column.get wire).content = .empty) :
    ∃ k ≤ (column.controllers wire).card, ClearedAfter wire column k := by
  induction hcount : (column.controllers wire).card using Nat.strong_induction_on
    generalizing column with
  | _ count ih =>
    rcases kindAt_cases_of_content_empty hempty with hkind | hkind | hkind
    · exact ⟨0, Nat.zero_le _, .settled (Or.inl hkind)⟩
    · obtain ⟨nodes, hdelete, hfewer, hsame⟩ := exists_delete_of_marker hkind
      obtain ⟨k, hk, hrest⟩ := ih _ (hcount ▸ hfewer) (hsame ▸ hempty) rfl
      exact ⟨k + 1, by omega, .deleted hdelete hrest⟩
    · exact ⟨0, Nat.zero_le _, .settled (Or.inr (Or.inr hkind))⟩

/-- There are never more deletions than wires. -/
theorem exists_clearedAfter (column : Column α n) (wire : Fin n) :
    ∃ k ≤ n, ClearedAfter wire column k := by
  cases hcontent : (column.get wire).content with
  | empty =>
    obtain ⟨k, hk, hcleared⟩ := exists_clearedAfter_of_empty hcontent
    exact ⟨k, hk.trans (card_finset_fin_le _), hcleared⟩
  | trace =>
    exact ⟨0, Nat.zero_le n, .settled (Or.inr (Or.inl ((kindAt_eq_trace_iff _ _).mpr hcontent)))⟩
  | gate gate =>
    -- the gate itself, and then those that name the wire, which it does not do any more
    obtain ⟨nodes, hdelete, hfewer, hempty⟩ :=
      exists_delete_of_owned ((kindAt_eq_gate_iff _ _ gate).mpr hcontent)
    obtain ⟨k, hk, hrest⟩ := exists_clearedAfter_of_empty hempty
    exact ⟨k + 1, by omega, .deleted hdelete hrest⟩

namespace ClearedAfter

variable {k : Nat}

/-- Every one of the first `k` deletions is made. -/
theorem exists_delete (h : ClearedAfter wire column k) {j : Nat} (hj : j < k) :
    ∃ nodes, Edit.delete.onColumn (column.afterAll wire (List.replicate j .delete)) wire =
      .changed nodes := by
  induction h generalizing j with
  | settled => omega
  | @deleted column nodes k hdelete hrest ih =>
    cases j with
    | zero => exact ⟨nodes, hdelete⟩
    | succ j =>
      rw [List.replicate_succ, afterAll, after_eq_of_changed hdelete]
      exact ih (by omega)

theorem settled_afterAll (h : ClearedAfter wire column k) :
    ((column.afterAll wire (List.replicate k .delete)).kindAt wire).Settled := by
  induction h with
  | settled h => exact h
  | deleted hdelete hrest ih =>
    rw [List.replicate_succ, afterAll, after_eq_of_changed hdelete]
    exact ih

end ClearedAfter

end Column

/-! ## Editors -/

namespace Editor

variable {α : Type} [Angle α] {wires columns : Nat}

/-- The editor after `k` deletions in a row. -/
def deleted (editor : Editor α wires columns) (k : Nat) : Editor α wires columns :=
  editor.run (List.replicate k (.edit .delete))

/-- Deletions in a row keep the cursor and rewrite its column. -/
theorem columnAt_deleted {editor : Editor α wires columns} {wire : Fin wires}
    {column : Fin columns} (hcursor : editor.cursor = ⟨wire, column⟩) (k : Nat) :
    (editor.deleted k).cursor = ⟨wire, column⟩ ∧ (editor.deleted k).grid.columnAt column =
      (editor.grid.columnAt column).afterAll wire (List.replicate k .delete) := by
  have hrun := run_edits hcursor (List.replicate k .delete)
  rw [List.map_replicate] at hrun
  unfold deleted
  rw [hrun]
  exact ⟨hcursor, Grid.columnAt_setColumn_self _ _ _⟩

/-- Deletions in a row, and others after them. -/
theorem deleted_add (editor : Editor α wires columns) (k j : Nat) :
    editor.deleted (k + j) = (editor.deleted k).deleted j := by
  unfold deleted
  rw [List.replicate_add, run_append]

/-- An editor on which a deletion does nothing stays as it is. -/
theorem deleted_of_idle {editor : Editor α wires columns}
    (h : (editor.perform (.edit .delete)).2 = editor) (k : Nat) : editor.deleted k = editor := by
  induction k with
  | zero => rfl
  | succ k ih =>
    show (editor.perform (.edit .delete)).2.deleted k = editor
    rw [h, ih]

/-- A deletion on a gate or on a control marker is always made, and on a marker it leaves fewer
nodes that name the wire. With the cursor kept in place, no more deletions than wires are made
in a row. After them the cell is free, holds a trace or is a swap partner, and no further
deletion changes anything. The links of the grid may be any. -/
theorem deletions_settle {editor : Editor α wires columns} {wire : Fin wires}
    {column : Fin columns} (hcursor : editor.cursor = ⟨wire, column⟩) :
    (∀ kind, editor.selectedKind = .ok kind → (kind = .control ∨ ∃ gate, kind = .gate gate) →
      (editor.perform (.edit .delete)).1 = .ok .changed) ∧
    (editor.selectedKind = .ok .control →
      (((editor.perform (.edit .delete)).2.grid.columnAt column).controllers wire).card <
        ((editor.grid.columnAt column).controllers wire).card) ∧
    ∃ k ≤ wires,
      (∀ j < k, ((editor.deleted j).perform (.edit .delete)).1 = .ok .changed) ∧
      (∃ kind, (editor.deleted k).selectedKind = .ok kind ∧ kind.Settled) ∧
      ∀ j, (editor.deleted (k + j)).perform (.edit .delete) =
        (.ok .unchanged, editor.deleted k) := by
  refine ⟨?_, ?_, ?_⟩
  · intro kind hkind hmade
    rw [selectedKind_fin hcursor, Except.ok.injEq] at hkind
    subst hkind
    rcases hmade with hkind | ⟨gate, hkind⟩
    · obtain ⟨nodes, hchange, -⟩ := Column.exists_delete_of_marker hkind
      exact congrArg Prod.fst (perform_edit_of_changed hcursor hchange)
    · obtain ⟨nodes, hchange, -⟩ := Column.exists_delete_of_owned hkind
      exact congrArg Prod.fst (perform_edit_of_changed hcursor hchange)
  · intro hkind
    rw [selectedKind_fin hcursor, Except.ok.injEq] at hkind
    obtain ⟨nodes, hchange, hfewer, -⟩ := Column.exists_delete_of_marker hkind
    rwa [perform_edit hcursor, Grid.columnAt_setColumn_self, Column.after_eq_of_changed hchange]
  · obtain ⟨k, hk, hcleared⟩ := Column.exists_clearedAfter (editor.grid.columnAt column) wire
    have hsettled := hcleared.settled_afterAll
    obtain ⟨hfinal, hcolumn⟩ := columnAt_deleted hcursor k
    rw [← hcolumn] at hsettled
    have hidle := perform_edit_of_unchanged hfinal (Column.delete_of_settled hsettled)
    refine ⟨k, hk, ?_, ⟨_, selectedKind_fin hfinal, hsettled⟩, ?_⟩
    · intro j hj
      obtain ⟨hstill, hcolumn⟩ := columnAt_deleted hcursor j
      obtain ⟨nodes, hchange⟩ := hcleared.exists_delete hj
      rw [← hcolumn] at hchange
      exact congrArg Prod.fst (perform_edit_of_changed hstill hchange)
    · intro j
      have hstill : ((editor.deleted k).perform (.edit .delete)).2 = editor.deleted k := by
        rw [hidle]
      rw [deleted_add, deleted_of_idle hstill, hidle]

end Editor

/-- A gate on a wire that all the others name, one of them twice and one together with a wire
that does not exist. -/
def Grid.namedByAll : Grid Float 4 1 :=
  .ofColumn #v[.ofGate .hadamard, (Node.ofGate .pauliX).withControls 0 0,
    (Node.ofGate .pauliZ).withControl 0, (Node.ofGate .pauliX).withControls 9 0] (by decide)

/-- On the first wire, as many deletions are made as there are wires, and no more. -/
theorem Editor.deletions_settle_namedByAll :
    (start Grid.namedByAll).cursor = ⟨(0 : Fin 4), (0 : Fin 1)⟩ ∧
      (start Grid.namedByAll).selectedKind = .ok (.gate .hadamard) ∧
      ((start Grid.namedByAll).perform (.edit .delete)).1 = .ok .changed ∧
      (((start Grid.namedByAll).deleted 3).perform (.edit .delete)).1 = .ok .changed ∧
      (((start Grid.namedByAll).deleted 4).perform (.edit .delete)).1 = .ok .unchanged := by
  have hcursor : (start Grid.namedByAll).cursor = ⟨(0 : Fin 4), (0 : Fin 1)⟩ := rfl
  have hkind : (start Grid.namedByAll).selectedKind = .ok (.gate .hadamard) := by rfl
  obtain ⟨hmade, -, k, hk, -, -, hidle⟩ := deletions_settle hcursor
  refine ⟨hcursor, hkind, hmade _ hkind (Or.inr ⟨.hadamard, rfl⟩), by rfl, ?_⟩
  have hlast := hidle (4 - k)
  rw [Nat.add_sub_cancel' hk] at hlast
  rw [hlast]

end CircuitGrid
