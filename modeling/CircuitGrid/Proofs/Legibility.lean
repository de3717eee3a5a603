import CircuitGrid.Drawing
import Mathlib.Data.List.Nodup

/-!
# The drawing of a grid can be read

A drawing has one line for every wire, and all of them are of the same length. A cell shows one
of a few symbols, whose labels are all different and contain no piece of wire, so that a symbol
is what is left of the five characters of a cell once the wire is taken away. Hence two grids
of the same size have the same drawing exactly if their cells look alike: they stand for the
same thing, where the two ends of a swap count as one, their Pauli gates are turned or not,
and their X gates that are not turned have a control or have none.
-/

namespace CircuitGrid

/-! ## What a cell looks like -/

/-- The kind as far as it is drawn: both ends of a swap look the same. -/
def CellKind.drawn : CellKind → CellKind
  | .swapPartner => .gate .swap
  | kind => kind

/-- Two cells, each given by what it stands for and what it stores, that look the same. -/
structure LooksAlike {α : Type} [Angle α] (kind kind' : CellKind) (node node' : Node α) :
    Prop where
  /-- Both stand for the same, or for an end of a swap. -/
  drawn : kind.drawn = kind'.drawn
  /-- A Pauli gate is turned in both cells or in neither. -/
  turned : ∀ gate ∈ [Gate.pauliX, .pauliY, .pauliZ], kind = .gate gate →
    node.isRotated = node'.isRotated
  /-- An X gate that is not turned has a control in both cells or in neither. -/
  controlled : kind = .gate .pauliX → node.isRotated = false →
    node.hasControls = node'.hasControls

/-! ## Symbols -/

/-- What is drawn in a cell. -/
inductive Symbol where
  | blank
  | trace
  | control
  | swap
  /-- An X gate with a control, that is not turned. -/
  | target
  /-- A Pauli gate that is turned. -/
  | turned (gate : Gate)
  /-- Any other gate. -/
  | plain (gate : Gate)
  deriving DecidableEq

/-- The gates whose turning is drawn. -/
theorem Gate.isRotatable_iff_mem (gate : Gate) :
    gate.isRotatable = true ↔ gate ∈ [Gate.pauliX, .pauliY, .pauliZ] := by
  cases gate <;> decide

namespace Symbol

/-- The characters of a symbol. -/
def label : Symbol → List Char
  | blank => []
  | trace => ['┼']
  | control => ['●']
  | swap => ['×']
  | target => ['⊕']
  | turned gate => 'R' :: gate.name.toList
  | plain gate => gate.name.toList.map Char.toUpper

/-- Every symbol, once. -/
def all : List Symbol :=
  [blank, trace, control, swap, target] ++ Gate.all.map turned ++ Gate.all.map plain

theorem mem_all (symbol : Symbol) : symbol ∈ all := by
  cases symbol with
  | turned gate => simp [all, gate.mem_all]
  | plain gate => simp [all, gate.mem_all]
  | _ => simp [all]

theorem label_injective : Function.Injective label := by
  have hnodup : (all.map label).Nodup := by decide
  intro symbol other h
  exact List.inj_on_of_nodup_map hnodup symbol.mem_all other.mem_all h

/-- A label fits into a cell, and has neither a piece of wire nor a newline in it. -/
theorem label_fits (symbol : Symbol) :
    symbol.label.length ≤ 5 ∧ '─' ∉ symbol.label ∧ '\n' ∉ symbol.label := by
  have hall : ∀ symbol ∈ all,
      symbol.label.length ≤ 5 ∧ '─' ∉ symbol.label ∧ '\n' ∉ symbol.label := by decide
  exact hall symbol symbol.mem_all

/-- The symbol of a cell. -/
def ofCell {α : Type} [Angle α] (kind : CellKind) (node : Node α) : Symbol :=
  match kind with
  | .empty => blank
  | .trace => trace
  | .control => control
  | .swapPartner | .gate .swap => swap
  | .gate gate =>
    if gate = .pauliX && !node.isRotated && node.hasControls then target
    else if gate.isRotatable && node.isRotated then turned gate
    else plain gate

variable {α : Type} [Angle α]

theorem ofCell_drawn (kind : CellKind) (node : Node α) :
    ofCell kind.drawn node = ofCell kind node := by
  cases kind <;> rfl

theorem ofCell_gate (node : Node α) {gate : Gate} (hswap : gate ≠ .swap) :
    ofCell (.gate gate) node =
      if gate = .pauliX && !node.isRotated && node.hasControls then target
      else if gate.isRotatable && node.isRotated then turned gate
      else plain gate := by
  cases gate with
  | swap => exact absurd rfl hswap
  | _ => rfl

theorem label_ofCell (kind : CellKind) (node : Node α) :
    (ofCell kind node).label = cellLabel kind node := by
  cases kind with
  | gate gate =>
    by_cases hswap : gate = .swap
    · subst hswap
      rfl
    · rw [ofCell_gate node hswap]
      simp only [cellLabel]
      split
      · rfl
      · split <;> rfl
  | _ => rfl

/-! ## Reading a symbol -/

/-- What a cell with this symbol stands for, as far as it is drawn. -/
def kind : Symbol → CellKind
  | blank => .empty
  | trace => .trace
  | control => .control
  | swap => .gate .swap
  | target => .gate .pauliX
  | turned gate | plain gate => .gate gate

/-- Whether the symbol shows a turned gate. -/
def isTurned : Symbol → Bool
  | turned _ => true
  | _ => false

theorem kind_ofCell (kind : CellKind) (node : Node α) : (ofCell kind node).kind = kind.drawn := by
  cases kind with
  | gate gate =>
    by_cases hswap : gate = .swap
    · subst hswap
      rfl
    · rw [ofCell_gate node hswap]
      split
      · simp_all [Symbol.kind, CellKind.drawn]
      · split <;> rfl
  | _ => rfl

theorem isTurned_ofCell (node : Node α) {gate : Gate} (hpauli : gate.isRotatable = true) :
    (ofCell (.gate gate) node).isTurned = node.isRotated := by
  have hswap : gate ≠ .swap := by
    rintro rfl
    cases hpauli
  rw [ofCell_gate node hswap, hpauli]
  cases hturned : node.isRotated with
  | true => simp [isTurned]
  | false => simp only [Bool.and_false]; split <;> rfl

theorem ofCell_eq_target_iff {node : Node α} (hturned : node.isRotated = false) :
    ofCell (.gate .pauliX) node = target ↔ node.hasControls = true := by
  rw [ofCell_gate node (by decide), hturned]
  simp

theorem eq_gate_of_drawn_eq {kind : CellKind} {gate : Gate} (h : kind.drawn = .gate gate)
    (hswap : gate ≠ .swap) : kind = .gate gate := by
  cases kind with
  | swapPartner => exact absurd (CellKind.gate.inj h).symm hswap
  | _ => exact h

/-- The symbols of two cells are the same exactly if the cells look alike. -/
theorem ofCell_eq_iff {kind kind' : CellKind} {node node' : Node α} :
    ofCell kind node = ofCell kind' node' ↔ LooksAlike kind kind' node node' := by
  constructor
  · intro h
    have hdrawn : kind.drawn = kind'.drawn := by
      rw [← kind_ofCell kind node, h, kind_ofCell]
    have hturned (gate : Gate) (hpauli : gate ∈ [Gate.pauliX, .pauliY, .pauliZ])
        (hkind : kind = .gate gate) : kind' = .gate gate ∧ node.isRotated = node'.isRotated := by
      have hrotatable := gate.isRotatable_iff_mem.2 hpauli
      have hkind' : kind' = .gate gate := by
        refine eq_gate_of_drawn_eq (by rw [← hdrawn, hkind]; cases gate <;> rfl) ?_
        rintro rfl
        cases hrotatable
      refine ⟨hkind', ?_⟩
      rw [← isTurned_ofCell node hrotatable, ← hkind, h, hkind', isTurned_ofCell node' hrotatable]
    refine ⟨hdrawn, fun gate hpauli hkind => (hturned gate hpauli hkind).2,
      fun hkind hunturned => ?_⟩
    obtain ⟨hkind', hsame⟩ := hturned .pauliX (by decide) hkind
    rw [Bool.eq_iff_iff, ← ofCell_eq_target_iff hunturned,
      ← ofCell_eq_target_iff (hsame ▸ hunturned), ← hkind, h, hkind', hkind]
  · rintro ⟨hdrawn, hturned, hcontrolled⟩
    rw [← ofCell_drawn kind, hdrawn, ← ofCell_drawn kind']
    cases hkind' : kind'.drawn with
    | gate gate =>
      by_cases hswap : gate = .swap
      · subst hswap
        rfl
      have hkind := eq_gate_of_drawn_eq (hdrawn.trans hkind') hswap
      rw [ofCell_gate node hswap, ofCell_gate node' hswap]
      -- The turning counts for a Pauli gate only, and the controls for one of them only.
      by_cases hpauli : gate ∈ [Gate.pauliX, .pauliY, .pauliZ]
      · have hsame := hturned gate hpauli hkind
        rw [hsame]
        by_cases hopen : gate = .pauliX ∧ node.isRotated = false
        · rw [hcontrolled (hopen.1 ▸ hkind) hopen.2]
        · have hclosed : (gate = .pauliX && !node'.isRotated) = false := by
            rw [← hsame]
            simpa using hopen
          simp [hclosed]
      · have hrotatable : gate.isRotatable = false := by
          rw [← Bool.not_eq_true, gate.isRotatable_iff_mem]
          exact hpauli
        have hplain : gate ≠ .pauliX := by
          rintro rfl
          cases hrotatable
        simp [hrotatable, hplain]
    | _ => rfl

end Symbol

/-! ## Cells -/

/-- A label that fits into a cell is filled up to five characters. -/
theorem length_centreOnWire {label : List Char} (h : label.length ≤ 5) :
    (centreOnWire label).length = 5 := by
  simp only [centreOnWire, List.length_append, List.length_replicate]
  omega

/-- Away from the wire there is only the label. -/
theorem filter_centreOnWire {label : List Char} (h : '─' ∉ label) :
    (centreOnWire label).filter (· ≠ '─') = label := by
  have hlabel : ∀ c ∈ label, c ≠ '─' := fun c hc => ne_of_mem_of_not_mem hc h
  simpa [centreOnWire] using hlabel

namespace Grid

variable {α : Type} [Angle α] {wires columns : Nat}

/-- What is drawn in a cell of the grid. -/
def symbolAt (grid : Grid α wires columns) (wire : Fin wires) (column : Fin columns) : Symbol :=
  .ofCell ((grid.columnAt column).kindAt wire) ((grid.columnAt column).get wire)

variable (grid other : Grid α wires columns) (wire : Fin wires) (column : Fin columns)

theorem drawCell_eq :
    grid.drawCell wire column = centreOnWire (grid.symbolAt wire column).label := by
  rw [symbolAt, Symbol.label_ofCell]
  rfl

theorem length_drawCell : (grid.drawCell wire column).length = 5 := by
  rw [drawCell_eq, length_centreOnWire (Symbol.label_fits _).1]

theorem newline_not_mem_drawCell : '\n' ∉ grid.drawCell wire column := by
  have hlabel := (grid.symbolAt wire column).label_fits.2.2
  simp [drawCell_eq, centreOnWire, hlabel]

theorem drawCell_eq_iff :
    grid.drawCell wire column = other.drawCell wire column ↔
      grid.symbolAt wire column = other.symbolAt wire column := by
  constructor
  · intro h
    rw [drawCell_eq, drawCell_eq] at h
    refine Symbol.label_injective ?_
    rw [← filter_centreOnWire (grid.symbolAt wire column).label_fits.2.1, h,
      filter_centreOnWire (other.symbolAt wire column).label_fits.2.1]
  · intro h
    rw [drawCell_eq, drawCell_eq, h]

end Grid

/-! ## Lines -/

/-- The line of a wire in a drawing of the given width: its name in decimal and a blank, and
whatever follows. -/
structure IsWireLine (wire width : Nat) (line : List Char) : Prop where
  length : line.length = width
  unbroken : '\n' ∉ line
  headed : ∃ rest, line = 'q' :: Nat.toDigits 10 wire ++ ' ' :: rest

/-- A wire's number has at most two digits, so that a blank follows it. -/
theorem wireHeader_eq {wire : Nat} (h : wire < maxWires) : ∃ blanks,
    blanks.length + (decimalDigits wire).length = 2 ∧ '\n' ∉ blanks ∧
      wireHeader wire = 'q' :: decimalDigits wire ++ ' ' :: blanks := by
  have hlength : (decimalDigits wire).length ≤ 2 := by
    refine (Nat.length_toDigits_le_iff (by decide) (by decide)).2 ?_
    exact Nat.lt_trans h (by decide)
  refine ⟨List.replicate (2 - (decimalDigits wire).length) ' ', ?_, by simp, ?_⟩
  · rw [List.length_replicate]
    omega
  · have hspare : 4 - ('q' :: decimalDigits wire).length
        = 2 - (decimalDigits wire).length + 1 := by
      simp only [List.length_cons]
      omega
    simp only [wireHeader, hspare, List.replicate_succ]

theorem newline_not_mem_decimalDigits (n : Nat) : '\n' ∉ decimalDigits n := by
  intro h
  have hdigit : '\n'.isDigit = true := Nat.isDigit_of_mem_toDigits (by decide) (by decide) h
  cases hdigit

/-- Pieces of the same lengths can be told apart in what they make up together. -/
theorem flatMap_eq_flatMap_iff {ι β : Type} {indices : List ι} {f g : ι → List β}
    (hlength : ∀ i ∈ indices, (f i).length = (g i).length) :
    indices.flatMap f = indices.flatMap g ↔ ∀ i ∈ indices, f i = g i := by
  have hlengths : (indices.map f).map List.length = (indices.map g).map List.length := by
    simpa using hlength
  rw [← List.map_inj_left, List.eq_iff_flatten_eq]
  simp only [List.flatMap_def, hlengths, and_true]

namespace Grid

variable {α : Type} [Angle α] {wires columns : Nat}
variable (grid other : Grid α wires columns) (wire : Fin wires)

theorem isWireLine_drawWire : IsWireLine wire (4 + 5 * columns) (grid.drawWire wire) := by
  have hwire : wire.val < maxWires := Nat.lt_of_lt_of_le wire.isLt grid.wires_le
  obtain ⟨blanks, hlength, hblanks, hheader⟩ := wireHeader_eq hwire
  have hcells : ((List.finRange columns).flatMap (grid.drawCell wire)).length = 5 * columns := by
    simp [List.length_flatMap, length_drawCell, Nat.mul_comm]
  refine ⟨?_, ?_, blanks ++ (List.finRange columns).flatMap (grid.drawCell wire), ?_⟩
  · rw [drawWire, hheader, List.length_append, hcells]
    simp only [List.length_cons, List.length_append]
    omega
  · simp [drawWire, hheader, newline_not_mem_decimalDigits, newline_not_mem_drawCell, hblanks]
  · rw [drawWire, hheader, List.append_assoc, List.cons_append]
    rfl

theorem drawWire_eq_iff : grid.drawWire wire = other.drawWire wire ↔
    ∀ column, grid.symbolAt wire column = other.symbolAt wire column := by
  rw [drawWire, drawWire, List.append_cancel_left_eq, flatMap_eq_flatMap_iff]
  · simp [drawCell_eq_iff]
  · simp [length_drawCell]

theorem drawing_eq_iff : grid.drawing = other.drawing ↔
    ∀ wire column, grid.symbolAt wire column = other.symbolAt wire column := by
  rw [drawing, drawing, flatMap_eq_flatMap_iff]
  · simp [drawWire_eq_iff]
  · simp [(isWireLine_drawWire _ _).length]

/-- **The drawing is rectangular and faithful.** It has one line for every wire, all of the same
length, which begins with the name of the wire; and of two grids of the same size, the drawings
are the same exactly if each cell looks like the cell in its place in the other grid. -/
theorem text_legible :
    (∃ line : Fin wires → List Char,
      grid.text.toList = (List.finRange wires).flatMap (fun wire => line wire ++ ['\n']) ∧
      ∀ wire : Fin wires, IsWireLine wire (4 + 5 * columns) (line wire)) ∧
    ∀ other : Grid α wires columns, grid.text = other.text ↔ ∀ wire column,
      LooksAlike ((grid.columnAt column).kindAt wire) ((other.columnAt column).kindAt wire)
        ((grid.columnAt column).get wire) ((other.columnAt column).get wire) := by
  refine ⟨⟨grid.drawWire, ?_, grid.isWireLine_drawWire⟩, fun other => ?_⟩
  · rw [text, String.toList_ofList]
    rfl
  · rw [text, text, String.ofList_inj, drawing_eq_iff]
    simp only [symbolAt, Symbol.ofCell_eq_iff]

end Grid

end CircuitGrid
