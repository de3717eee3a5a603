import CircuitGrid.Proofs.JsonForms

/-!
# Serialized values read back

What is written of a value is read as the value again, and what is read from any text
is written as a text that is read as the same value. Both follow for each type from two
facts about its form (`Lossless`): the form of a value is decoded to the value, and
nothing is decoded that no form stands for, such as a word that is too large.

Numbers are the one part that a text may lose. A reader that collects the digits of a
number in a word and scales it afterwards rounds twice, so that there are finite numbers
which are read back as their neighbours. Hence the assumption is made of the numbers of
the value at hand (`ReadsBack`), and of no others.
-/

namespace CircuitGrid

open Json

/-! ## Lossless forms -/

/-- A form that loses nothing: a value is decoded from its form if its numbers are,
provided that it is within the bounds that everything decoded is within. -/
structure Lossless {α : Type} (τ : Type) [JsonForm α] [JsonForm τ] (Fits : τ → Prop)
    (numbers : τ → List α) : Prop where
  faithful : ∀ value, Fits value → (∀ x ∈ numbers value, Faithful x) → Faithful value
  decoded : ∀ json value, JsonForm.decode? json = some value →
    Fits value ∧ ∀ x ∈ numbers value, ∃ part, JsonForm.decode? part = some x

variable {α : Type} [JsonForm α]

/-! ## Gates, contents and kinds -/

theorem faithful_gate (gate : Gate) : Faithful gate where
  proper := .string _
  decode := by cases gate <;> rfl

theorem faithful_content (content : Content) : Faithful content := by
  cases content with
  | gate gate =>
    refine ⟨proper_tagged (faithful_gate gate).proper, ?_⟩
    refine (select?_or_payload?_tagged (by decide) _ _).trans ?_
    rw [(faithful_gate gate).decode, Option.map_some]
  | _ => exact ⟨.string _, rfl⟩

theorem faithful_kind (kind : CellKind) : Faithful kind := by
  cases kind with
  | gate gate =>
    refine ⟨proper_tagged (faithful_gate gate).proper, ?_⟩
    refine (select?_or_payload?_tagged (by decide) _ _).trans ?_
    rw [(faithful_gate gate).decode, Option.map_some]
  | _ => exact ⟨.string _, rfl⟩

/-! ## Nodes -/

/-- The links of a node fit into words. -/
structure Node.Fits {α : Type} (node : Node α) : Prop where
  controlA : ∀ wire ∈ node.controlA, wire ≤ maxWord64
  controlB : ∀ wire ∈ node.controlB, wire ≤ maxWord64
  partner : ∀ wire ∈ node.partner, wire ≤ maxWord64

/-- The fields that are written of a node. -/
def Node.entries (node : Node α) : List (String × Json) :=
  [("kind", JsonForm.encode node.content), ("rotation", JsonForm.encode node.rotation)]
    ++ presentField "control_a" (node.controlA.map .ofNat)
    ++ presentField "control_b" (node.controlB.map .ofNat)
    ++ presentField "swap_partner" (node.partner.map .ofNat)

theorem Node.keys_entries (node : Node α) : (node.entries.map Prod.fst).Sublist
    ["kind", "rotation", "control_a", "control_b", "swap_partner"] := by
  simp only [Node.entries, List.map_append]
  exact (((List.Sublist.refl ["kind", "rotation"]).append (keys_presentField _ _)).append
    (keys_presentField _ _)).append (keys_presentField _ _)

theorem parts?_node (node : Node α) :
    parts? ["kind", "rotation", "control_a", "control_b", "swap_partner"] false
        (JsonForm.encode node) =
      some [some (JsonForm.encode node.content), some (JsonForm.encode node.rotation),
        node.controlA.map .ofNat, node.controlB.map .ofNat, node.partner.map .ofNat] := by
  refine (parts?_ofFields false node.keys_entries (by decide)).trans ?_
  simp [Node.entries, List.lookup_append, lookup_presentField, List.lookup_cons]

/-- A value stands for a node if its parts stand for those of the node. -/
theorem decode?_node_iff {json : Json} {node : Node α} :
    JsonForm.decode? json = some node ↔ ∃ kind rotation controlA controlB partner,
      parts? ["kind", "rotation", "control_a", "control_b", "swap_partner"] false json =
        some [some kind, some rotation, controlA, controlB, partner] ∧
      JsonForm.decode? kind = some node.content ∧
      JsonForm.decode? rotation = some node.rotation ∧
      optional? (natural? maxWord64) controlA = some node.controlA ∧
      optional? (natural? maxWord64) controlB = some node.controlB ∧
      optional? (natural? maxWord64) partner = some node.partner := by
  unfold instJsonFormNode
  dsimp only
  constructor
  · intro h
    split at h
    next kind rotation controlA controlB partner hparts =>
      simp only [bind, pure, Option.bind_eq_some_iff, Option.some.injEq] at h
      obtain ⟨_, ⟨kind, rfl, hkind⟩, _, ⟨rotation, rfl, hrotation⟩, _, hA, _, hB, _, hpartner,
        rfl⟩ := h
      exact ⟨_, _, _, _, _, hparts, hkind, hrotation, hA, hB, hpartner⟩
    · cases h
  · rintro ⟨kind, rotation, controlA, controlB, partner, hparts, hkind, hrotation, hA, hB, hpartner⟩
    rw [hparts]
    simp [hkind, hrotation, hA, hB, hpartner]

theorem lossless_node : Lossless (Node α) Node.Fits fun node => [node.rotation] where
  faithful node hfits hnumbers := by
    have hrotation : Faithful node.rotation := hnumbers _ List.mem_cons_self
    have hcontent := faithful_content node.content
    have hlink : ∀ link : Option Nat, (∀ wire ∈ link, wire ≤ maxWord64) →
        optional? (natural? maxWord64) (link.map .ofNat) = some link :=
      fun link h => optional?_map fun wire hwire => ⟨natural?_ofNat (h wire hwire), nofun⟩
    have hproper : ∀ key, ∀ link : Option Nat,
        ∀ field ∈ presentField key (link.map .ofNat), field.2.Proper := by
      intro key link
      refine proper_presentField fun json hjson => ?_
      obtain ⟨wire, -, rfl⟩ := Option.map_eq_some_iff.mp hjson
      exact proper_ofNat wire
    constructor
    · refine proper_ofFields ?_
      simp only [List.forall_mem_append, List.forall_mem_cons]
      exact ⟨⟨⟨⟨hcontent.proper, hrotation.proper, List.forall_mem_nil _⟩, hproper _ _⟩,
        hproper _ _⟩, hproper _ _⟩
    · exact decode?_node_iff.mpr ⟨_, _, _, _, _, parts?_node node, hcontent.decode,
        hrotation.decode, hlink _ hfits.controlA, hlink _ hfits.controlB, hlink _ hfits.partner⟩
  decoded json node h := by
    obtain ⟨_, rotation, _, _, _, _, _, hrotation, hA, hB, hpartner⟩ := decode?_node_iff.mp h
    have hword : ∀ {part : Option Json} {link : Option Nat},
        optional? (natural? maxWord64) part = some link → ∀ wire ∈ link, wire ≤ maxWord64 := by
      intro part link hlink wire hwire
      obtain ⟨json, hjson⟩ := exists_of_optional? hlink wire hwire
      exact le_of_natural? hjson
    refine ⟨⟨hword hA, hword hB, hword hpartner⟩, fun x hx => ?_⟩
    obtain rfl := List.mem_singleton.mp hx
    exact ⟨rotation, hrotation⟩

/-! ## Operations -/

theorem faithful_wire (wire : Wire) : Faithful wire where
  proper := proper_ofNat wire.index
  decode := by
    have hle : wire.index ≤ maxWord32 := Nat.le_of_lt_succ wire.index_lt
    show (natural? maxWord32 (.ofNat wire.index)).bind Wire.ofNat? = some wire
    rw [natural?_ofNat hle]
    exact dif_pos wire.index_lt

/-- A text stands for a gate if one stands for its angle. -/
theorem proper_primitive {gate : Primitive α}
    (h : ∀ angle ∈ gate.angle?, (JsonForm.encode angle).Proper) :
    (JsonForm.encode gate).Proper := by
  cases gate with
  | rx angle | ry angle | rz angle | crz angle => exact proper_tagged (h angle rfl)
  | _ => exact .string _

theorem faithful_primitive {gate : Primitive α} (h : ∀ angle ∈ gate.angle?, Faithful angle) :
    Faithful gate := by
  refine ⟨proper_primitive fun angle hangle => (h angle hangle).proper, ?_⟩
  cases gate with
  | rx angle | ry angle | rz angle | crz angle =>
    unfold instJsonFormPrimitive
    dsimp only
    rw [select?_tagged (by simp [Primitive.plainTags])]
    simp [payload?_tagged, (h angle rfl).decode]
  | _ =>
    unfold instJsonFormPrimitive
    dsimp only
    simp [select?_ofString, Primitive.plainTags]

/-- The angle of a gate was decoded from the payload of its tag. -/
theorem exists_of_decode?_primitive {json : Json} {gate : Primitive α}
    (h : JsonForm.decode? json = some gate) :
    ∀ angle ∈ gate.angle?, ∃ part : Json, JsonForm.decode? part = some angle := by
  have hplain : ∀ gate ∈ (@Primitive.plainTags α).map Prod.snd, gate.angle? = none := by
    simp [Primitive.plainTags, Primitive.angle?]
  unfold instJsonFormPrimitive at h
  dsimp only at h
  simp only [Option.orElse_eq_orElse, Option.orElse_eq_or, Option.or_eq_some_iff,
    Option.map_eq_some_iff, Option.bind_eq_bind, Option.bind_eq_some_iff] at h
  intro angle hangle
  rcases h with h | ⟨-, ⟨_, ⟨part, -, hpart⟩, rfl⟩ | ⟨-, ⟨_, ⟨part, -, hpart⟩, rfl⟩ |
    ⟨-, ⟨_, ⟨part, -, hpart⟩, rfl⟩ | ⟨-, _, ⟨part, -, hpart⟩, rfl⟩⟩⟩⟩
  · rw [hplain gate (mem_of_select? h)] at hangle
    cases hangle
  all_goals
    obtain rfl := Option.some.inj hangle
    exact ⟨part, hpart⟩

/-- The fields that are written of an operation. -/
def Operation.entries (op : Operation α) : List (String × Json) :=
  [("gate", JsonForm.encode op.gate), ("target", JsonForm.encode op.target),
      ("controls", .array (op.controls.map JsonForm.encode))]
    ++ presentField "partner" (op.partner.map JsonForm.encode)

theorem parts?_operation (op : Operation α) :
    parts? ["gate", "target", "controls", "partner"] false (JsonForm.encode op) =
      some [some (JsonForm.encode op.gate), some (JsonForm.encode op.target),
        some (.array (op.controls.map JsonForm.encode)), op.partner.map JsonForm.encode] := by
  have hkeys : (op.entries.map Prod.fst).Sublist ["gate", "target", "controls", "partner"] := by
    simp only [Operation.entries, List.map_append]
    exact (List.Sublist.refl ["gate", "target", "controls"]).append (keys_presentField _ _)
  refine (parts?_ofFields false hkeys (by decide)).trans ?_
  simp [Operation.entries, lookup_presentField, List.lookup_cons]

/-- A value stands for an operation if its parts stand for those of the operation. -/
theorem decode?_operation_iff {json : Json} {op : Operation α} :
    JsonForm.decode? json = some op ↔ ∃ gate target controls partner,
      parts? ["gate", "target", "controls", "partner"] false json =
        some [some gate, some target, some controls, partner] ∧
      JsonForm.decode? gate = some op.gate ∧ JsonForm.decode? target = some op.target ∧
      decodeArray? controls = some op.controls ∧
      optional? JsonForm.decode? partner = some op.partner := by
  unfold instJsonFormOperation
  dsimp only
  constructor
  · intro h
    split at h
    next hparts =>
      simp only [bind, pure, Option.bind_eq_some_iff, Option.some.injEq] at h
      obtain ⟨_, ⟨gate, rfl, hgate⟩, _, ⟨target, rfl, htarget⟩, _, ⟨controls, rfl, hcontrols⟩, _,
        hpartner, rfl⟩ := h
      exact ⟨_, _, _, _, hparts, hgate, htarget, hcontrols, hpartner⟩
    · cases h
  · rintro ⟨gate, target, controls, partner, hparts, hgate, htarget, hcontrols, hpartner⟩
    rw [hparts]
    simp [hgate, htarget, hcontrols, hpartner]

/-- A text stands for an operation if one stands for the angle of its gate. -/
theorem proper_operation {op : Operation α}
    (h : ∀ angle ∈ op.gate.angle?, (JsonForm.encode angle).Proper) :
    (JsonForm.encode op).Proper := by
  have hcontrols : ∀ wire ∈ op.controls, Faithful wire := fun wire _ => faithful_wire wire
  refine proper_ofFields ?_
  simp only [List.forall_mem_append, List.forall_mem_cons]
  refine ⟨⟨proper_primitive h, (faithful_wire op.target).proper, proper_array hcontrols,
    List.forall_mem_nil _⟩, proper_presentField fun json hjson => ?_⟩
  obtain ⟨wire, -, rfl⟩ := Option.map_eq_some_iff.mp hjson
  exact (faithful_wire wire).proper

theorem lossless_operation :
    Lossless (Operation α) (fun _ => True) fun op => op.gate.angle?.toList where
  faithful op _ hnumbers := by
    have hangle : ∀ angle ∈ op.gate.angle?, Faithful angle := by simpa using hnumbers
    have hcontrols : ∀ wire ∈ op.controls, Faithful wire := fun wire _ => faithful_wire wire
    refine ⟨proper_operation fun angle hmem => (hangle angle hmem).proper, ?_⟩
    exact decode?_operation_iff.mpr ⟨_, _, _, _, parts?_operation op,
      (faithful_primitive hangle).decode, (faithful_wire op.target).decode,
      decodeArray?_map hcontrols,
      optional?_map fun wire _ => ⟨(faithful_wire wire).decode, nofun⟩⟩
  decoded json op h := by
    obtain ⟨gate, _, _, _, _, hgate, _⟩ := decode?_operation_iff.mp h
    exact ⟨trivial, by simpa using exists_of_decode?_primitive hgate⟩

/-! ## Commands -/

/-- The angle of a rotation. -/
def Command.angle? {α : Type} : Command α → Option α
  | .rotateBy angle => some angle
  | _ => none

theorem lossless_command :
    Lossless (Command α) (fun _ => True) fun command => command.angle?.toList where
  faithful command _ hnumbers := by
    cases command with
    | rotateBy angle =>
      have hangle : Faithful angle := hnumbers _ List.mem_cons_self
      refine ⟨proper_tagged hangle.proper, ?_⟩
      unfold instJsonFormCommand
      dsimp only
      rw [select?_tagged (by simp [Command.plainTags])]
      simp [payload?_tagged, hangle.decode]
    | _ =>
      refine ⟨.string _, ?_⟩
      unfold instJsonFormCommand
      dsimp only
      simp [select?_ofString, Command.plainTags]
  decoded json command h := by
    have hplain : ∀ command ∈ (@Command.plainTags α).map Prod.snd,
        command.angle? = none := by
      simp [Command.plainTags, Command.angle?]
    unfold instJsonFormCommand at h
    dsimp only at h
    simp only [Option.orElse_eq_orElse, Option.orElse_eq_or, Option.or_eq_some_iff,
      Option.map_eq_some_iff, Option.bind_eq_bind, Option.bind_eq_some_iff] at h
    refine ⟨trivial, fun angle hangle => ?_⟩
    rcases h with h | ⟨-, _, ⟨part, -, hpart⟩, rfl⟩
    · simp [hplain command (mem_of_select? h)] at hangle
    · obtain rfl := List.mem_singleton.mp hangle
      exact ⟨part, hpart⟩

/-! ## Dimensions and settings -/

/-- Both dimensions fit into words. -/
structure Dimensions.Fits (dimensions : Dimensions) : Prop where
  wires : dimensions.wires ≤ maxWord64
  columns : dimensions.columns ≤ maxWord64

theorem decode?_dimensions_iff {json : Json} {dimensions : Dimensions} :
    JsonForm.decode? json = some dimensions ↔ ∃ wires columns,
      parts? ["wires", "columns"] true json = some [wires, columns] ∧
      withDefault? Dimensions.default.wires (natural? maxWord64) wires = some dimensions.wires ∧
      withDefault? Dimensions.default.columns (natural? maxWord64) columns =
        some dimensions.columns := by
  unfold instJsonFormDimensions
  dsimp only
  constructor
  · intro h
    split at h
    next hparts =>
      simp only [bind, pure, Option.bind_eq_some_iff, Option.some.injEq] at h
      obtain ⟨_, hwires, _, hcolumns, rfl⟩ := h
      exact ⟨_, _, hparts, hwires, hcolumns⟩
    · cases h
  · rintro ⟨wires, columns, hparts, hwires, hcolumns⟩
    rw [hparts]
    simp [hwires, hcolumns]

theorem le_of_withDefault? {default limit n : Nat} {part : Option Json} (hdefault : default ≤ limit)
    (h : withDefault? default (natural? limit) part = some n) : n ≤ limit := by
  rcases exists_of_withDefault? h with rfl | ⟨json, hjson⟩
  · exact hdefault
  · exact le_of_natural? hjson

theorem faithful_dimensions {dimensions : Dimensions} (h : dimensions.Fits) :
    Faithful dimensions := by
  constructor
  · refine proper_ofFields ?_
    simp only [List.forall_mem_cons]
    exact ⟨proper_ofNat _, proper_ofNat _, List.forall_mem_nil _⟩
  · exact decode?_dimensions_iff.mpr ⟨_, _, parts?_ofFields true (List.Sublist.refl _) (by decide),
      natural?_ofNat h.wires, natural?_ofNat h.columns⟩

theorem fits_of_decode?_dimensions {json : Json} {dimensions : Dimensions}
    (h : JsonForm.decode? json = some dimensions) : dimensions.Fits := by
  obtain ⟨_, _, _, hwires, hcolumns⟩ := decode?_dimensions_iff.mp h
  exact ⟨le_of_withDefault? (by decide) hwires, le_of_withDefault? (by decide) hcolumns⟩

theorem lossless_dimensions :
    Lossless Dimensions Dimensions.Fits fun _ => ([] : List α) where
  faithful _ hfits _ := faithful_dimensions hfits
  decoded _ _ h := ⟨fits_of_decode?_dimensions h, List.forall_mem_nil _⟩

/-- The dimensions fit into words, the number of shots into half a word. -/
structure Settings.Fits {α : Type} (settings : Settings α) : Prop where
  grid : settings.grid.Fits
  shots : settings.shots ≤ maxWord32

theorem decode?_settings_iff {json : Json} {settings : Settings Float} :
    JsonForm.decode? json = some settings ↔ ∃ grid rotationStep shots,
      parts? ["grid", "rotation_step", "shots"] true json = some [grid, rotationStep, shots] ∧
      withDefault? Dimensions.default JsonForm.decode? grid = some settings.grid ∧
      withDefault? Radians.defaultStep JsonForm.decode? rotationStep =
        some settings.rotationStep ∧
      withDefault? 1 (natural? maxWord32) shots = some settings.shots := by
  show Settings.decodeOver? Settings.default json = some settings ↔ _
  unfold Settings.decodeOver?
  constructor
  · intro h
    split at h
    next hparts =>
      simp only [bind, pure, Option.bind_eq_some_iff, Option.some.injEq] at h
      obtain ⟨_, hgrid, _, hstep, _, hshots, rfl⟩ := h
      exact ⟨_, _, _, hparts, hgrid, hstep, hshots⟩
    · cases h
  · rintro ⟨grid, rotationStep, shots, hparts, hgrid, hstep, hshots⟩
    rw [hparts]
    simp [Settings.default, hgrid, hstep, hshots]

/-- The default rotation step could be read from a text, too. -/
theorem exists_defaultStep : ∃ part : Json, JsonForm.decode? part = some Radians.defaultStep :=
  ⟨.number "0.39269908169872414".toList, by decide +kernel⟩

theorem lossless_settings :
    Lossless (Settings Float) Settings.Fits fun settings => [settings.rotationStep] where
  faithful settings hfits hnumbers := by
    have hgrid := faithful_dimensions hfits.grid
    have hstep : Faithful settings.rotationStep := hnumbers _ List.mem_cons_self
    constructor
    · refine proper_ofFields ?_
      simp only [List.forall_mem_cons]
      exact ⟨hgrid.proper, hstep.proper, proper_ofNat _, List.forall_mem_nil _⟩
    · exact decode?_settings_iff.mpr ⟨_, _, _,
        parts?_ofFields true (List.Sublist.refl _) (by decide), hgrid.decode, hstep.decode,
        natural?_ofNat hfits.shots⟩
  decoded json settings h := by
    obtain ⟨_, _, _, _, hgrid, hstep, hshots⟩ := decode?_settings_iff.mp h
    refine ⟨⟨?_, le_of_withDefault? (by decide) hshots⟩, fun x hx => ?_⟩
    · rcases exists_of_withDefault? hgrid with hdefault | ⟨part, hpart⟩
      · rw [hdefault]
        exact ⟨by decide, by decide⟩
      · exact fits_of_decode?_dimensions hpart
    · obtain rfl := List.mem_singleton.mp hx
      rcases exists_of_withDefault? hstep with hdefault | hpart
      · rw [hdefault]
        exact exists_defaultStep
      · exact hpart

/-! ## Grids -/

/-- The dimensions of a stored grid and the links of all its nodes fit into words. -/
structure GridRecord.Fits {α : Type} (grid : GridRecord α) : Prop where
  dimensions : grid.dimensions.Fits
  nodes : ∀ node ∈ grid.nodes, node.Fits

theorem decode?_grid_iff {json : Json} {grid : GridRecord α} :
    JsonForm.decode? json = some grid ↔ ∃ wires columns nodes,
      parts? ["wires", "columns", "nodes"] false json =
        some [some wires, some columns, some nodes] ∧
      natural? maxWord64 wires = some grid.dimensions.wires ∧
      natural? maxWord64 columns = some grid.dimensions.columns ∧
      decodeArray? nodes = some grid.nodes := by
  unfold instJsonFormGridRecord
  dsimp only
  constructor
  · intro h
    split at h
    next hparts =>
      simp only [bind, pure, Option.bind_eq_some_iff, Option.some.injEq] at h
      obtain ⟨_, ⟨wires, rfl, hwires⟩, _, ⟨columns, rfl, hcolumns⟩, _, ⟨nodes, rfl, hnodes⟩,
        rfl⟩ := h
      exact ⟨_, _, _, hparts, hwires, hcolumns, hnodes⟩
    · cases h
  · rintro ⟨wires, columns, nodes, hparts, hwires, hcolumns, hnodes⟩
    rw [hparts]
    simp [hwires, hcolumns, hnodes]

theorem lossless_grid :
    Lossless (GridRecord α) GridRecord.Fits fun grid => grid.nodes.map Node.rotation where
  faithful grid hfits hnumbers := by
    have hnodes : ∀ node ∈ grid.nodes, Faithful node := by
      intro node hnode
      refine lossless_node.faithful node (hfits.nodes node hnode) fun x hx => ?_
      obtain rfl := List.mem_singleton.mp hx
      exact hnumbers _ (List.mem_map_of_mem hnode)
    constructor
    · refine proper_ofFields ?_
      simp only [List.forall_mem_cons]
      exact ⟨proper_ofNat _, proper_ofNat _, proper_array hnodes, List.forall_mem_nil _⟩
    · exact decode?_grid_iff.mpr ⟨_, _, _, parts?_ofFields false (List.Sublist.refl _) (by decide),
        natural?_ofNat hfits.dimensions.wires, natural?_ofNat hfits.dimensions.columns,
        decodeArray?_map hnodes⟩
  decoded json grid h := by
    obtain ⟨_, _, _, _, hwires, hcolumns, hnodes⟩ := decode?_grid_iff.mp h
    have hdecoded : ∀ node ∈ grid.nodes, node.Fits ∧ ∃ part : Json,
        JsonForm.decode? part = some node.rotation := by
      intro node hnode
      obtain ⟨item, hitem⟩ := exists_of_decodeArray? hnodes node hnode
      have hnode := lossless_node.decoded item node hitem
      exact ⟨hnode.1, hnode.2 _ List.mem_cons_self⟩
    refine ⟨⟨⟨le_of_natural? hwires, le_of_natural? hcolumns⟩, fun node hnode =>
      (hdecoded node hnode).1⟩, fun x hx => ?_⟩
    obtain ⟨node, hnode, rfl⟩ := List.mem_map.mp hx
    exact (hdecoded node hnode).2

/-! ## Round trips -/

/-- The text written for a number, if it is finite, is read as the number. -/
def ReadsBack (x : Float) : Prop := x.isFinite = true → parse? (render x) = some x

instance (x : Float) : Decidable (ReadsBack x) := inferInstanceAs (Decidable (_ → _))

-- Seventeen digits do not fit into the significand, so that both roundings take effect.
example : ¬ReadsBack 0.014285714285714287 := by decide +kernel

/-- The values of a type survive being written and read, those whose numbers do. -/
structure RoundTrips (τ : Type) [JsonForm τ] (Fits : τ → Prop) (numbers : τ → List Float) :
    Prop where
  /-- A value within the bounds of its words, with finite numbers, is read from its text. -/
  written : ∀ value, Fits value → (∀ x ∈ numbers value, x.isFinite = true) →
    (∀ x ∈ numbers value, ReadsBack x) → parse? (render value) = some value
  /-- What any text is read as is such a value. -/
  bounded : ∀ text value, parse? text = some value →
    Fits value ∧ ∀ x ∈ numbers value, x.isFinite = true
  /-- Writing what was read settles both: the value is read again, and written as before. -/
  settled : ∀ text value, parse? text = some value → (∀ x ∈ numbers value, ReadsBack x) →
    parse? (render value) = some value ∧
    (parse? (render value) : Option τ).map render = some (render value)

/-- Values round-trip through their texts if they do through their forms: a form is read from
its text, and a number that is read is finite. -/
theorem Lossless.roundTrips {τ : Type} [JsonForm τ] {Fits : τ → Prop} {numbers : τ → List Float}
    (h : Lossless τ Fits numbers) : RoundTrips τ Fits numbers := by
  have hwritten : ∀ value, Fits value → (∀ x ∈ numbers value, x.isFinite = true) →
      (∀ x ∈ numbers value, ReadsBack x) → parse? (render value) = some value := by
    intro value hfits hfinite hreads
    refine (h.faithful value hfits fun x hx => ?_).parse?_render
    exact faithful_of_parse?_render (hreads x hx (hfinite x hx))
  have hbounded : ∀ text value, parse? text = some value →
      Fits value ∧ ∀ x ∈ numbers value, x.isFinite = true := by
    intro text value hparse
    obtain ⟨json, -, hdecode⟩ := Option.bind_eq_some_iff.mp hparse
    obtain ⟨hfits, hnumbers⟩ := h.decoded json value hdecode
    refine ⟨hfits, fun x hx => ?_⟩
    obtain ⟨part, hpart⟩ := hnumbers x hx
    exact isFinite_of_float? hpart
  refine ⟨hwritten, hbounded, fun text value hparse hreads => ?_⟩
  obtain ⟨hfits, hfinite⟩ := hbounded text value hparse
  have hagain := hwritten value hfits hfinite hreads
  exact ⟨hagain, congrArg (Option.map render) hagain⟩

/-- Values without numbers and words. -/
theorem Lossless.of_faithful {τ : Type} [JsonForm τ] (h : ∀ value : τ, Faithful value) :
    Lossless τ (fun _ => True) fun _ => ([] : List α) where
  faithful value _ _ := h value
  decoded _ _ _ := ⟨trivial, List.forall_mem_nil _⟩

/-- The values of all nine serialized types round-trip: nodes with any links, operations and
commands with or without an angle, grids of any number of nodes, dimensions, settings, and the
kinds of cells, contents and gates. -/
theorem serialized_roundTrips :
    RoundTrips (Node Float) Node.Fits (fun node => [node.rotation]) ∧
    RoundTrips (Operation Float) (fun _ => True) (fun op => op.gate.angle?.toList) ∧
    RoundTrips (Command Float) (fun _ => True) (fun command => command.angle?.toList) ∧
    RoundTrips (GridRecord Float) GridRecord.Fits (fun grid => grid.nodes.map Node.rotation) ∧
    RoundTrips Dimensions Dimensions.Fits (fun _ => []) ∧
    RoundTrips (Settings Float) Settings.Fits (fun settings => [settings.rotationStep]) ∧
    RoundTrips CellKind (fun _ => True) (fun _ => []) ∧
    RoundTrips Content (fun _ => True) (fun _ => []) ∧
    RoundTrips Gate (fun _ => True) (fun _ => []) :=
  ⟨lossless_node.roundTrips, lossless_operation.roundTrips, lossless_command.roundTrips,
    lossless_grid.roundTrips, lossless_dimensions.roundTrips, lossless_settings.roundTrips,
    (Lossless.of_faithful faithful_kind).roundTrips,
    (Lossless.of_faithful faithful_content).roundTrips,
    (Lossless.of_faithful faithful_gate).roundTrips⟩

/-- A stored grid of two nodes, one of them linked and turned. -/
def GridRecord.linkedPair : GridRecord Float :=
  ⟨⟨2, 1⟩, [⟨.gate .pauliX, 0.5, some 1, none, none⟩, ⟨.empty, 0.0, none, none, none⟩]⟩

theorem serialized_roundTrips_linkedPair :
    GridRecord.linkedPair.Fits ∧
      (∀ x ∈ GridRecord.linkedPair.nodes.map Node.rotation, x.isFinite = true) ∧
      (∀ x ∈ GridRecord.linkedPair.nodes.map Node.rotation, ReadsBack x) ∧
      parse? (render GridRecord.linkedPair) = some GridRecord.linkedPair := by
  have hfits : GridRecord.linkedPair.Fits := by
    refine ⟨⟨by decide, by decide⟩, ?_⟩
    simp only [GridRecord.linkedPair, List.forall_mem_cons]
    exact ⟨⟨by decide, by decide, by decide⟩, ⟨by decide, by decide, by decide⟩,
      List.forall_mem_nil _⟩
  have hfinite : ∀ x ∈ GridRecord.linkedPair.nodes.map Node.rotation, x.isFinite = true := by
    decide +kernel
  have hreads : ∀ x ∈ GridRecord.linkedPair.nodes.map Node.rotation, ReadsBack x := by
    decide +kernel
  exact ⟨hfits, hfinite, hreads,
    serialized_roundTrips.2.2.2.1.written GridRecord.linkedPair hfits hfinite hreads⟩

end CircuitGrid
