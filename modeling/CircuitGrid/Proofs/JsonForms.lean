import CircuitGrid.Proofs.JsonNumbers
import CircuitGrid.Serialized

/-!
# Forms that lose nothing

A value is `Faithful` if it is decoded from its own form, which a text stands for;
then the text it is written as is read as the value again. A form is built from the
forms of its parts in three ways, as a record, a variant or an array, and each of them
passes faithfulness on from the parts to the whole.
-/

namespace CircuitGrid

open Json

variable {τ : Type}

/-! ## Faithful values -/

section Faithful

variable [JsonForm τ]

/-- A value that is decoded from its form, where the form is one that a text stands for. -/
structure Faithful (value : τ) : Prop where
  proper : (JsonForm.encode value).Proper
  decode : JsonForm.decode? (JsonForm.encode value) = some value

/-- The text of a faithful value is read as the value. -/
theorem Faithful.parse?_render {value : τ} (h : Faithful value) :
    parse? (render value) = some value := by
  unfold parse? render
  rw [read?_compact h.proper]
  exact h.decode

/-- A number is faithful if its text is read as the number. -/
theorem faithful_of_parse?_render {x : Float} (hread : parse? (render x) = some x) :
    Faithful x := by
  have hproper : (JsonForm.encode x).Proper := proper_ofFloat x
  refine ⟨hproper, ?_⟩
  unfold parse? render at hread
  rw [read?_compact hproper] at hread
  exact hread

end Faithful

namespace Json

/-! ## Records -/

theorem proper_ofFields {fields : List (String × Json)} (h : ∀ field ∈ fields, field.2.Proper) :
    (ofFields fields).Proper := by
  refine .object ?_ ?_
  · intro field hfield
    obtain ⟨entry, -, rfl⟩ := List.mem_map.mp hfield
    rfl
  · intro field hfield
    obtain ⟨entry, hentry, rfl⟩ := List.mem_map.mp hfield
    exact h entry hentry

/-- An entry as it stands in an object. -/
def ofEntry (entry : String × Json) : JsonText × Json := (some entry.1.toList, entry.2)

theorem filter_ofEntry {fields : List (String × Json)} (h : (fields.map Prod.fst).Nodup)
    (key : String) :
    (fields.map ofEntry).filter (·.1 == some key.toList) =
      (fields.lookup key).toList.map fun value => ofEntry (key, value) := by
  induction fields with
  | nil => rfl
  | cons field fields ih =>
    obtain ⟨found, value⟩ := field
    obtain ⟨hnotMem, hnodup⟩ := List.nodup_cons.mp h
    rw [List.map_cons, List.filter_cons, ih hnodup]
    by_cases hkey : found = key
    · subst hkey
      have hnone : fields.lookup found = none := by
        rw [List.lookup_eq_none_iff]
        intro entry hentry
        have hne : found ≠ entry.1 := by
          rintro rfl
          exact hnotMem (List.mem_map.mpr ⟨entry, hentry, rfl⟩)
        simpa using hne
      simp [ofEntry, hnone]
    · have hne : (key == found) = false := by simpa using Ne.symm hkey
      simp [ofEntry, String.toList_inj, List.lookup_cons, hkey, hne]

theorem proper_presentField {key : String} {value : Option Json} (h : ∀ json ∈ value, json.Proper) :
    ∀ field ∈ presentField key value, field.2.Proper := by
  cases value with
  | none => exact List.forall_mem_nil _
  | some json => simpa [presentField] using h json rfl

/-- A field that comes once at most is looked up. -/
theorem field?_eq_lookup {fields : List (String × Json)} (h : (fields.map Prod.fst).Nodup)
    (key : String) : field? (fields.map ofEntry) key = some (fields.lookup key) := by
  unfold field?
  rw [filter_ofEntry h]
  cases fields.lookup key <;> rfl

/-- The parts of a record are found whatever fields are left out. -/
theorem parts?_ofFields {keys : List String} {fields : List (String × Json)} (short : Bool)
    (hkeys : (fields.map Prod.fst).Sublist keys) (hnodup : keys.Nodup) :
    parts? keys short (ofFields fields) = some (keys.map fun key => fields.lookup key) := by
  have hproper : (fields.map ofEntry).all (·.1.isSome) = true := by simp [ofEntry]
  show (if (fields.map ofEntry).all (·.1.isSome) = true
    then keys.mapM (field? (fields.map ofEntry)) else none) = _
  rw [if_pos hproper]
  have hfound : field? (fields.map ofEntry) = fun key => some (fields.lookup key) :=
    funext (field?_eq_lookup (hnodup.sublist hkeys))
  rw [hfound]
  exact List.mapM_pure

theorem keys_presentField (key : String) (value : Option Json) :
    ((presentField key value).map Prod.fst).Sublist [key] := by
  cases value with
  | none => exact List.nil_sublist _
  | some value => exact List.Sublist.refl _

theorem lookup_presentField (key key' : String) (value : Option Json) :
    (presentField key' value).lookup key = if key = key' then value else none := by
  cases value with
  | none => simp [presentField]
  | some value =>
    by_cases h : key = key'
    · simp [presentField, h]
    · have hkey : (key == key') = false := by simpa using h
      simp [presentField, List.lookup_cons, h, hkey]

theorem optional?_map {encode : τ → Json} {decode? : Json → Option τ} {value : Option τ}
    (h : ∀ x ∈ value, decode? (encode x) = some x ∧ encode x ≠ .null) :
    optional? decode? (value.map encode) = some value := by
  cases value with
  | none => rfl
  | some x =>
    obtain ⟨hdecode, hnull⟩ := h x rfl
    simp [optional?, hdecode]

/-- A part that is there was decoded from what stands for it. -/
theorem exists_of_optional? {decode? : Json → Option τ} {part : Option Json} {value : Option τ}
    (h : optional? decode? part = some value) : ∀ x ∈ value, ∃ json, decode? json = some x := by
  intro x hx
  obtain rfl : value = some x := hx
  unfold optional? at h
  split at h
  · cases h
  · cases h
  next json _ =>
    obtain ⟨y, hy, hsome⟩ := Option.map_eq_some_iff.mp h
    exact ⟨json, hy.trans hsome⟩

theorem exists_of_withDefault? {default : τ} {decode? : Json → Option τ} {part : Option Json}
    {value : τ} (h : withDefault? default decode? part = some value) :
    value = default ∨ ∃ json, decode? json = some value := by
  cases part with
  | none => exact .inl (Option.some.inj h).symm
  | some json => exact .inr ⟨json, h⟩

theorem le_of_natural? {limit n : Nat} {json : Json} (h : natural? limit json = some n) :
    n ≤ limit := by
  cases json with
  | number literal => simpa using (Option.filter_eq_some_iff.mp h).2
  | _ => cases h

/-! ## Variants -/

theorem proper_tagged {tag : String} {value : Json} (h : value.Proper) :
    (tagged tag value).Proper :=
  proper_ofFields (by simpa using h)

/-- A tag that is in no table selects nothing, with or without a payload. -/
theorem select?_tagged {table : List (String × τ)} {tag : String}
    (h : ∀ entry ∈ table, entry.1 ≠ tag) (value : Json) :
    select? table (tagged tag value) = none := by
  have hfind : (table.find? fun entry => entry.1.toList == tag.toList) = none := by
    rw [List.find?_eq_none]
    intro entry hentry heq
    exact h entry hentry (String.toList_inj.mp (eq_of_beq heq))
  cases value <;> simp [select?, plainVariant?, variant?, tagged, ofFields, hfind]

/-- A tag selects the first entry of the table that carries it. -/
theorem select?_ofString (table : List (String × τ)) (tag : String) :
    select? table (ofString tag) = (table.find? fun entry => entry.1 == tag).map Prod.snd := by
  have hsame : (fun entry : String × τ => entry.1.toList == tag.toList) =
      fun entry => entry.1 == tag := by
    funext entry
    rw [Bool.eq_iff_iff, beq_iff_eq, beq_iff_eq, String.toList_inj]
  show ((table.find? fun entry => entry.1.toList == tag.toList).map Prod.snd) = _
  rw [hsame]

theorem mem_of_select? {table : List (String × τ)} {json : Json} {value : τ}
    (h : select? table json = some value) : value ∈ table.map Prod.snd := by
  obtain ⟨tag, -, h⟩ := Option.bind_eq_some_iff.mp h
  obtain ⟨entry, hentry, rfl⟩ := Option.map_eq_some_iff.mp h
  exact List.mem_map_of_mem (List.mem_of_find?_eq_some hentry)

theorem payload?_tagged (tag tag' : String) (value : Json) :
    payload? tag (tagged tag' value) = if tag' = tag then some value else none := by
  simp [payload?, tagged, ofFields, variant?, String.toList_inj]

/-- A variant with a payload, beside a table of variants without, is decoded from its payload. -/
theorem select?_or_payload?_tagged {table : List (String × τ)} {tag : String}
    (h : ∀ entry ∈ table, entry.1 ≠ tag) (value : Json) (decode? : Json → Option τ) :
    (select? table (tagged tag value)).or ((payload? tag (tagged tag value)).bind decode?) =
      decode? value := by
  rw [select?_tagged h, payload?_tagged, if_pos rfl, Option.none_or, Option.bind_some]

end Json

/-! ## Arrays -/

theorem decodeArray?_map [JsonForm τ] {values : List τ} (h : ∀ value ∈ values, Faithful value) :
    decodeArray? (.array (values.map JsonForm.encode)) = some values := by
  show (values.map JsonForm.encode).mapM JsonForm.decode? = some values
  induction values with
  | nil => rfl
  | cons value values ih =>
    have hrest := ih fun other hother => h other (List.mem_cons_of_mem _ hother)
    rw [List.map_cons, List.mapM_cons, (h value List.mem_cons_self).decode, hrest]
    rfl

theorem proper_array [JsonForm τ] {values : List τ} (h : ∀ value ∈ values, Faithful value) :
    (Json.array (values.map JsonForm.encode)).Proper := by
  refine .array fun item hitem => ?_
  obtain ⟨value, hvalue, rfl⟩ := List.mem_map.mp hitem
  exact (h value hvalue).proper

/-- Every value of an array was decoded from one of its items. -/
theorem exists_of_decodeArray? [JsonForm τ] {json : Json} {values : List τ}
    (h : decodeArray? json = some values) :
    ∀ value ∈ values, ∃ item, JsonForm.decode? item = some value := by
  cases json with
  | array items =>
    replace h : items.mapM JsonForm.decode? = some values := h
    induction items generalizing values with
    | nil =>
      obtain rfl : [] = values := Option.some.inj h
      exact List.forall_mem_nil _
    | cons item items ih =>
      rw [List.mapM_cons] at h
      obtain ⟨first, hfirst, h⟩ := Option.bind_eq_some_iff.mp h
      obtain ⟨rest, hrest, h⟩ := Option.bind_eq_some_iff.mp h
      obtain rfl : first :: rest = values := Option.some.inj h
      intro value hvalue
      obtain rfl | hvalue := List.mem_cons.mp hvalue
      · exact ⟨item, hfirst⟩
      · exact ih hrest value hvalue
  | _ => cases h

end CircuitGrid
