import CircuitGrid.Angle.Radians
import CircuitGrid.Proofs.Cells
import CircuitGrid.Proofs.Run
import Mathlib.Logic.ExistsUnique

/-!
# Link exclusivity

In a *link-exclusive* column the links of the gates name free wires, and no wire
is named twice. Stray traces, double controls and swaps are all allowed. Every
marker of such a column belongs to exactly one gate.
-/

namespace CircuitGrid

namespace Column

variable {α : Type} {n : Nat}

/-- The links of a column belong to gates, name free wires and share none. -/
structure LinkExclusive (column : Column α n) : Prop where
  /-- Only gates carry links. -/
  gate_of_link : ∀ wire slot target, (column.get wire).link? slot = some target →
    (column.get wire).gate?.isSome = true
  /-- Every swap has a partner. -/
  swap_partner : ∀ wire, (column.get wire).gate? = some .swap →
    (column.get wire).partner.isSome = true
  /-- A link names another wire of the column, which stores nothing. -/
  target_free : ∀ wire slot target, (column.get wire).link? slot = some target →
    ∃ place : Fin n, place.val = target ∧ place ≠ wire ∧ (column.get place).content = .empty
  /-- Two links that name the same wire are the same link. -/
  target_unique : ∀ wire slot other slot' target, (column.get wire).link? slot = some target →
    (column.get other).link? slot' = some target → wire = other ∧ slot = slot'

instance (p : LinkSlot → Prop) [DecidablePred p] : Decidable (∀ slot, p slot) :=
  decidable_of_iff (p .controlA ∧ p .controlB ∧ p .partner) (by
    constructor
    · rintro ⟨ha, hb, hp⟩ slot
      cases slot <;> assumption
    · intro h
      exact ⟨h _, h _, h _⟩)

instance (column : Column α n) : Decidable column.LinkExclusive :=
  decidable_of_iff
    ((∀ wire slot, ∀ target ∈ (column.get wire).link? slot,
        (column.get wire).gate?.isSome = true) ∧
      (∀ wire, (column.get wire).gate? = some .swap → (column.get wire).partner.isSome = true) ∧
      (∀ wire slot, ∀ target ∈ (column.get wire).link? slot,
        ∃ place : Fin n, place.val = target ∧ place ≠ wire ∧
          (column.get place).content = .empty) ∧
      ∀ wire slot other slot', ∀ target ∈ (column.get wire).link? slot,
        (column.get other).link? slot' = some target → wire = other ∧ slot = slot')
    ⟨fun h => ⟨h.1, h.2.1, h.2.2.1, h.2.2.2⟩,
      fun h => ⟨h.gate_of_link, h.swap_partner, h.target_free, h.target_unique⟩⟩

/-- No link of the column names the wire. -/
def Unnamed (column : Column α n) (wire : Nat) : Prop :=
  ∀ place slot, (column.get place).link? slot ≠ some wire

namespace LinkExclusive

variable {column : Column α n}

/-! ## Which wires are named -/

theorem link?_of_gate?_eq_none (h : column.LinkExclusive) {wire : Fin n}
    (hnone : (column.get wire).gate? = none) (slot : LinkSlot) :
    (column.get wire).link? slot = none := by
  cases hlink : (column.get wire).link? slot with
  | none => rfl
  | some target =>
    have hsome := h.gate_of_link wire slot target hlink
    rw [hnone] at hsome
    cases hsome

theorem unnamed_of_content (h : column.LinkExclusive) {wire : Fin n}
    (hcontent : (column.get wire).content ≠ .empty) : column.Unnamed wire := by
  intro place slot hlink
  obtain ⟨target, htarget, _, hempty⟩ := h.target_free place slot wire hlink
  rw [Fin.ext htarget] at hempty
  exact hcontent hempty

theorem unnamed_of_kindAt (h : column.LinkExclusive) {wire : Fin n}
    (hkind : column.kindAt wire = .empty) : column.Unnamed wire := by
  obtain ⟨hcontent, hunlinked⟩ := (kindAt_eq_empty_iff column wire).mp hkind
  intro place slot
  by_cases hplace : place = wire
  · subst hplace
    rw [h.link?_of_gate?_eq_none ((Node.gate?_eq_none_iff _).mpr (Or.inl hcontent))]
    exact nofun
  · exact hunlinked place hplace slot

/-- A wire that takes a control is not named: a trace never is, though its kind
says nothing about links. -/
theorem unnamed_of_acceptsControl (h : column.LinkExclusive) {wire : Fin n}
    (haccepts : (column.kindAt wire).acceptsControl = true) : column.Unnamed wire := by
  rcases kindAt_of_acceptsControl haccepts with hkind | hkind
  · exact h.unnamed_of_kindAt hkind
  · apply h.unnamed_of_content
    rw [(kindAt_eq_trace_iff column wire).mp hkind]
    exact nofun

/-! ## Markers -/

/-- A wire stands for a control exactly when one gate has it as a control. -/
theorem kindAt_eq_control_iff (h : column.LinkExclusive) (wire : Fin n) :
    column.kindAt wire = .control ↔ ∃! gate, (column.get gate).gate?.isSome = true ∧
      (column.get gate).isControlledBy wire = true := by
  have hslot : ∀ gate, (column.get gate).isControlledBy wire = true →
      ∃ slot, slot ≠ .partner ∧ (column.get gate).link? slot = some wire.val := by
    intro gate hgate
    rcases (Node.isControlledBy_iff _ _).mp hgate with ha | hb
    · exact ⟨.controlA, nofun, ha⟩
    · exact ⟨.controlB, nofun, hb⟩
  constructor
  · intro hkind
    obtain ⟨_, gate, _, hgate⟩ := exists_control_of_kindAt hkind
    obtain ⟨slot, _, hlink⟩ := hslot gate hgate
    refine ⟨gate, ⟨h.gate_of_link gate slot wire hlink, hgate⟩, ?_⟩
    rintro other ⟨_, hother⟩
    obtain ⟨slot', _, hlink'⟩ := hslot other hother
    exact (h.target_unique other slot' gate slot wire hlink' hlink).1
  · rintro ⟨gate, ⟨_, hgate⟩, _⟩
    obtain ⟨slot, hpartner, hlink⟩ := hslot gate hgate
    obtain ⟨place, hplace, hne, hcontent⟩ := h.target_free gate slot wire hlink
    have hplace := Fin.ext hplace
    subst hplace
    -- the kind comes from the first link found, which can be no other than this one
    rcases kindAt_cases_of_content_empty hcontent with hkind | hkind | hkind
    · exact absurd hlink (((kindAt_eq_empty_iff column place).mp hkind).2 gate hne.symm slot)
    · exact hkind
    · obtain ⟨_, other, _, hother⟩ := exists_partner_of_kindAt hkind
      exact absurd (h.target_unique gate slot other .partner place hlink hother).2 hpartner

/-- A wire stands for a swap partner exactly when one gate has it as its partner. -/
theorem kindAt_eq_swapPartner_iff (h : column.LinkExclusive) (wire : Fin n) :
    column.kindAt wire = .swapPartner ↔ ∃! gate, (column.get gate).gate?.isSome = true ∧
      (column.get gate).partner = some wire.val := by
  constructor
  · intro hkind
    obtain ⟨_, gate, _, hgate⟩ := exists_partner_of_kindAt hkind
    refine ⟨gate, ⟨h.gate_of_link gate .partner wire hgate, hgate⟩, ?_⟩
    rintro other ⟨_, hother⟩
    exact (h.target_unique other .partner gate .partner wire hother hgate).1
  · rintro ⟨gate, ⟨_, hgate⟩, _⟩
    obtain ⟨place, hplace, hne, hcontent⟩ := h.target_free gate .partner wire hgate
    have hplace := Fin.ext hplace
    subst hplace
    rcases kindAt_cases_of_content_empty hcontent with hkind | hkind | hkind
    · exact absurd hgate (((kindAt_eq_empty_iff column place).mp hkind).2 gate hne.symm .partner)
    · obtain ⟨_, other, _, hother⟩ := exists_control_of_kindAt hkind
      rcases (Node.isControlledBy_iff _ _).mp hother with hlink | hlink
      · exact absurd (h.target_unique other .controlA gate .partner place hlink hgate).2 nofun
      · exact absurd (h.target_unique other .controlB gate .partner place hlink hgate).2 nofun
    · exact hkind

/-! ## Writes -/

section Writes

variable {wire : Fin n} {node : Node α}

/-- A column with fewer links is link-exclusive if every link it keeps still
belongs to a gate and names a wire that stores nothing. -/
theorem of_fewer {other : Column α n} (h : column.LinkExclusive)
    (hlinks : ∀ wire slot target, (other.get wire).link? slot = some target →
      (column.get wire).link? slot = some target)
    (hgates : ∀ wire slot target, (other.get wire).link? slot = some target →
      (other.get wire).gate?.isSome = true)
    (hswaps : ∀ wire, (other.get wire).gate? = some .swap →
      (other.get wire).partner.isSome = true)
    (hfree : ∀ wire : Fin n, (column.get wire).content = .empty →
      (other.get wire).content = .empty ∨ other.Unnamed wire) :
    other.LinkExclusive := by
  refine ⟨hgates, hswaps, ?_, ?_⟩
  · -- target_free
    intro wire slot target hlink
    obtain ⟨place, rfl, hne, hcontent⟩ := h.target_free wire slot target (hlinks _ _ _ hlink)
    rcases hfree place hcontent with hempty | hunnamed
    · exact ⟨place, rfl, hne, hempty⟩
    · exact absurd hlink (hunnamed wire slot)
  · -- target_unique
    intro wire slot place slot' target hlink hlink'
    exact h.target_unique wire slot place slot' target (hlinks _ _ _ hlink) (hlinks _ _ _ hlink')

/-- A node without links may be written on a wire, if it stores nothing or no
link names the wire. -/
theorem put_unlinked (h : column.LinkExclusive) (hnode : ∀ slot, node.link? slot = none)
    (hswap : node.gate? ≠ some .swap) (hwire : node.content = .empty ∨ column.Unnamed wire) :
    (column.put wire node).LinkExclusive := by
  have hold : ∀ place slot target, ((column.put wire node).get place).link? slot = some target →
      place ≠ wire ∧ (column.get place).link? slot = some target := by
    intro place slot target hlink
    rw [get_put] at hlink
    split at hlink
    · rw [hnode] at hlink
      cases hlink
    · next hne => exact ⟨hne, hlink⟩
  apply h.of_fewer
  · intro place slot target hlink
    exact (hold place slot target hlink).2
  · intro place slot target hlink
    obtain ⟨hne, hlink⟩ := hold place slot target hlink
    rw [get_put_of_ne column node hne]
    exact h.gate_of_link place slot target hlink
  · intro place hgate
    by_cases hplace : place = wire
    · rw [hplace, get_put_self] at hgate
      exact absurd hgate hswap
    · rw [get_put_of_ne column node hplace] at hgate ⊢
      exact h.swap_partner place hgate
  · intro place hcontent
    by_cases hplace : place = wire
    · subst hplace
      rw [get_put_self]
      exact hwire.imp id (fun hunnamed other slot hlink =>
        hunnamed other slot (hold other slot place hlink).2)
    · rw [get_put_of_ne column node hplace]
      exact Or.inl hcontent

/-- A node may lose controls and change its angle. -/
theorem put_fewer (h : column.LinkExclusive) (hcontent : node.content = (column.get wire).content)
    (hpartner : node.partner = (column.get wire).partner)
    (hlinks : ∀ slot target, node.link? slot = some target →
      (column.get wire).link? slot = some target) :
    (column.put wire node).LinkExclusive := by
  have hgate : node.gate? = (column.get wire).gate? := congrArg Content.gate? hcontent
  have hold : ∀ place slot target, ((column.put wire node).get place).link? slot = some target →
      (column.get place).link? slot = some target := by
    intro place slot target hlink
    rw [get_put] at hlink
    split at hlink
    · next heq =>
      rw [heq]
      exact hlinks slot target hlink
    · exact hlink
  have hsame : ∀ place, ((column.put wire node).get place).gate? = (column.get place).gate? := by
    intro place
    rw [get_put]
    split
    · next heq => rw [heq, hgate]
    · rfl
  apply h.of_fewer hold
  · intro place slot target hlink
    rw [hsame]
    exact h.gate_of_link place slot target (hold place slot target hlink)
  · intro place hswap
    rw [hsame] at hswap
    have hsome := h.swap_partner place hswap
    rw [get_put]
    split
    · next heq => rwa [hpartner, ← heq]
    · exact hsome
  · intro place hempty
    left
    rw [get_put]
    split
    · next heq => rw [hcontent, ← heq, hempty]
    · exact hempty

/-- A gate may take a free wire that no link names as its first control. -/
theorem put_control (h : column.LinkExclusive) {control : Fin n} (hne : control ≠ wire)
    (hgate : (column.get wire).gate?.isSome = true)
    (hcontent : (column.get control).content = .empty) (hunnamed : column.Unnamed control) :
    (column.put wire ((column.get wire).withControl control)).LinkExclusive := by
  -- every link but the new one was there before
  have hold : ∀ place slot target,
      ((column.put wire ((column.get wire).withControl control)).get place).link? slot =
        some target →
      (column.get place).link? slot = some target ∨
        (place = wire ∧ slot = .controlA ∧ target = control) := by
    intro place slot target hlink
    rw [get_put] at hlink
    split at hlink
    · next heq =>
      cases slot with
      | controlA => exact Or.inr ⟨heq, rfl, (Option.some.inj hlink).symm⟩
      | controlB => exact Or.inl (heq ▸ hlink)
      | partner => exact Or.inl (heq ▸ hlink)
    · exact Or.inl hlink
  have hcells : ∀ place,
      ((column.put wire ((column.get wire).withControl control)).get place).content =
        (column.get place).content := by
    intro place
    rw [get_put]
    split
    · next heq => rw [heq]; rfl
    · rfl
  refine ⟨?_, ?_, ?_, ?_⟩
  · -- gate_of_link
    intro place slot target hlink
    have hsome : (column.get place).gate?.isSome = true := by
      rcases hold place slot target hlink with hlink | ⟨rfl, _, _⟩
      · exact h.gate_of_link place slot target hlink
      · exact hgate
    unfold Node.gate? at hsome ⊢
    rwa [hcells]
  · -- swap_partner
    intro place hswap
    have hswap : (column.get place).gate? = some .swap := by
      unfold Node.gate? at hswap ⊢
      rwa [hcells] at hswap
    have hsome := h.swap_partner place hswap
    rw [get_put]
    split
    · next heq => rw [heq] at hsome; exact hsome
    · exact hsome
  · -- target_free
    intro place slot target hlink
    rcases hold place slot target hlink with hlink | ⟨rfl, _, rfl⟩
    · obtain ⟨place', htarget, hne', hempty⟩ := h.target_free place slot target hlink
      exact ⟨place', htarget, hne', by rw [hcells, hempty]⟩
    · exact ⟨control, rfl, hne, by rw [hcells, hcontent]⟩
  · -- target_unique: nothing else names the new control
    intro first slot second slot' target hfirst hsecond
    rcases hold first slot target hfirst with hfirst | ⟨rfl, rfl, rfl⟩
    · rcases hold second slot' target hsecond with hsecond | ⟨_, _, rfl⟩
      · exact h.target_unique first slot second slot' target hfirst hsecond
      · exact absurd hfirst (hunnamed first slot)
    · rcases hold second slot' control hsecond with hsecond | ⟨rfl, rfl, _⟩
      · exact absurd hsecond (hunnamed second slot')
      · exact ⟨rfl, rfl⟩

end Writes

end LinkExclusive

end Column

/-- A Toffoli gate, one of whose links runs over a stray trace, and a controlled
swap: a link-exclusive grid that no session from an empty grid arrives at. -/
def Grid.toffoliAndSwap : Grid Float 7 1 :=
  .ofColumn #v[.empty, .trace, (Node.ofGate .pauliX).withControls 0 3, .empty, .empty,
    (Node.swapWith 6).withControl 4, .empty] (by decide)

end CircuitGrid
