import CircuitGrid.Json.Form
import CircuitGrid.Proofs.JsonText

/-!
# Indented JSON text reads back

The indented text of a value is a text of it too, at every level. Sorting the keys of a value
keeps what can be looked up in it, and the fields of an object that are sorted already.
-/

namespace CircuitGrid.Json

/-! ## Indented text -/

theorem isWhitespace_space : IsWhitespace [' '] := List.forall_mem_singleton.mpr rfl

theorem isWhitespace_newLine (level : Nat) : IsWhitespace (newLine level) := by
  intro c hc
  rcases List.mem_cons.mp hc with rfl | hc
  · decide
  · rw [List.eq_of_mem_replicate hc]
    decide

theorem Proper.isText_pretty {value : Json} (h : value.Proper) (level : Nat) :
    IsText (value.pretty level) value := by
  induction h generalizing level with
  | null => exact .null
  | bool b => exact .bool b
  | number h => exact .number h
  | string text => exact .string text
  | @array items _ ih =>
    cases items with
    | nil => exact .noItems isWhitespace_nil
    | cons item items =>
      exact .items (isItems_of_layout (isWhitespace_newLine (level + 1))
        (isWhitespace_newLine level) (fun _ => by simp [prettyItems])
        (fun _ _ _ => by simp [prettyItems]) (List.cons_ne_nil item items)
        fun i hi => ih i hi (level + 1))
  | @object fields hkeys _ ih =>
    cases fields with
    | nil => exact .noFields isWhitespace_nil
    | cons field fields =>
      exact .fields (isFields_of_layout (isWhitespace_newLine (level + 1)) isWhitespace_space
        (isWhitespace_newLine level) (fun _ _ => by simp [prettyFields])
        (fun _ _ _ _ => by simp [prettyFields]) (List.cons_ne_nil field fields) hkeys
        fun f hf => ih f hf (level + 1))

/-- A value is what its indented text is read as, at any level and with whitespace behind it. -/
theorem read?_pretty {value : Json} (h : value.Proper) (level : Nat) {ws : List Char}
    (hws : IsWhitespace ws) : read? (value.pretty level ++ ws) = some value :=
  read?_of_isElement (.padded isWhitespace_nil (h.isText_pretty level) hws)

/-! ## Sorted keys -/

theorem insertField_perm (field : JsonText × Json) (fields : List (JsonText × Json)) :
    (insertField field fields).Perm (field :: fields) := by
  induction fields with
  | nil => exact .refl _
  | cons other fields ih =>
    unfold insertField
    split
    · exact .refl _
    · exact (ih.cons other).trans (.swap field other fields)

theorem sortKeysOfItems_eq_map (items : List Json) :
    sortKeysOfItems items = items.map sortKeys := by
  induction items with
  | nil => rfl
  | cons item items ih => rw [sortKeysOfItems, ih, List.map_cons]

/-- Sorting rearranges the fields of an object, and sorts inside their values. -/
theorem sortKeysOfFields_perm (fields : List (JsonText × Json)) :
    (sortKeysOfFields fields).Perm (fields.map fun field => (field.1, field.2.sortKeys)) := by
  induction fields with
  | nil => exact .refl _
  | cons field fields ih =>
    rw [sortKeysOfFields]
    exact (insertField_perm _ _).trans (ih.cons _)

/-- Fields that are sorted already stay in their order. -/
theorem sortKeysOfFields_of_sorted {fields : List (JsonText × Json)}
    (h : fields.Pairwise fun field other => field.1.getD [] < other.1.getD []) :
    sortKeysOfFields fields = fields.map fun field => (field.1, field.2.sortKeys) := by
  induction h with
  | nil => rfl
  | @cons field fields hfirst _ ih =>
    rw [sortKeysOfFields, ih]
    cases fields with
    | nil => rfl
    | cons other fields => exact if_pos (hfirst other List.mem_cons_self)

theorem Proper.sortKeys {value : Json} (h : value.Proper) : value.sortKeys.Proper := by
  induction h with
  | null => exact .null
  | bool b => exact .bool b
  | number h => exact .number h
  | string text => exact .string text
  | @array items _ ih =>
    rw [Json.sortKeys, sortKeysOfItems_eq_map]
    exact .array (List.forall_mem_map.mpr ih)
  | @object fields hkeys _ ih =>
    have hmem : ∀ {field}, field ∈ sortKeysOfFields fields →
        ∃ other ∈ fields, (other.1, other.2.sortKeys) = field := fun hfield =>
      List.mem_map.mp ((sortKeysOfFields_perm fields).mem_iff.mp hfield)
    rw [Json.sortKeys]
    refine .object ?_ ?_
    · intro field hfield
      obtain ⟨other, hother, rfl⟩ := hmem hfield
      exact hkeys other hother
    · intro field hfield
      obtain ⟨other, hother, rfl⟩ := hmem hfield
      exact ih other hother

/-- Looking a field up does not depend on the order of the fields. -/
theorem field?_perm {fields others : List (JsonText × Json)} (h : fields.Perm others)
    (key : String) : field? fields key = field? others key := by
  have hfound := h.filter fun field => field.1 == some key.toList
  unfold field?
  generalize fields.filter (fun field => field.1 == some key.toList) = found at hfound ⊢
  generalize others.filter (fun field => field.1 == some key.toList) = found' at hfound ⊢
  rcases found with _ | ⟨field, _ | ⟨next, rest⟩⟩
  · rw [← hfound.nil_eq]
  · rw [List.singleton_perm.mp hfound]
  · -- as many are found in either order
    have hlength := hfound.length_eq
    rcases found' with _ | ⟨field', _ | ⟨next', rest'⟩⟩
    · cases hlength
    · simp at hlength
    · rfl

end CircuitGrid.Json
