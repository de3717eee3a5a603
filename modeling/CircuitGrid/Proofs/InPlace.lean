import CircuitGrid.Proofs.OperationUpdate

/-!
# Operations in place and all at once

An operation is applied by a loop that reads two entries of the state and overwrites both,
for one index after the other. `AppliedAtOnce` says what comes of it without a loop: each
entry is a combination of entries of the old state. `Operation.Refused` says which
operations are refused, and why.

A refused operation leaves no trace. `applyInPlace` is the operation as a program that
overwrites the state it works on, and all it checks it checks before the first write.
-/

namespace CircuitGrid

/-! ## Refused operations -/

namespace Operation

variable {α : Type}

/-- Why an operation is refused on `n` wires. Its wires are looked at in order: the
controls, the target, and for a swap the partner. -/
inductive Refused (op : Operation α) (n : Nat) : SimulationError → Prop
  | control {before after : List Wire} {wire : Wire} : op.controls = before ++ wire :: after →
      (∀ earlier ∈ before, earlier.index < n) → n ≤ wire.index →
      op.Refused n (.wireOutOfRange wire.index n)
  | target : (∀ wire ∈ op.controls, wire.index < n) → n ≤ op.target.index →
      op.Refused n (.wireOutOfRange op.target.index n)
  | noPartner : (∀ wire ∈ op.controls, wire.index < n) → op.target.index < n →
      op.gate.isSwap = true → op.partner = none → op.Refused n (.missingPartner op.target.index)
  | partner {wire : Wire} : (∀ wire ∈ op.controls, wire.index < n) → op.target.index < n →
      op.gate.isSwap = true → op.partner = some wire → n ≤ wire.index →
      op.Refused n (.wireOutOfRange wire.index n)

theorem applicable_iff (op : Operation α) {n : Nat} :
    op.Applicable n ↔ (∀ wire ∈ op.controls, wire.index < n) ∧ op.target.index < n ∧
      (op.gate.isSwap = true → ∃ wire, op.partner = some wire ∧ wire.index < n) := by
  constructor
  · intro h
    refine ⟨h.controls, h.target, fun hswap => ?_⟩
    obtain ⟨wire, hpartner⟩ := Option.isSome_iff_exists.mp (h.partner hswap)
    exact ⟨wire, hpartner, h.second wire (second?_eq_some_iff.mpr ⟨hswap, hpartner⟩)⟩
  · rintro ⟨hcontrols, htarget, hpartner⟩
    refine ⟨hcontrols, htarget, ?_, ?_⟩
    · intro wire hwire
      obtain ⟨hswap, hsecond⟩ := second?_eq_some_iff.mp hwire
      obtain ⟨partner, hpartner, hlt⟩ := hpartner hswap
      cases hsecond.symm.trans hpartner
      exact hlt
    · intro hswap
      obtain ⟨partner, hpartner, -⟩ := hpartner hswap
      exact Option.isSome_of_eq_some hpartner

end Operation

namespace StateVector

section Refusals

variable {α R : Type} {n : Nat}

theorem locateWire_of_le {wire : Wire} (h : n ≤ wire.index) :
    locateWire n wire = .error (.wireOutOfRange wire.index n) :=
  dif_neg (Nat.not_lt.mpr h)

theorem controlMask_of_lt {wires : List Wire} (h : ∀ wire ∈ wires, wire.index < n) :
    controlMask n wires = .ok (addBits 0 wires) :=
  controlMask_eq_ok_iff.mpr ⟨h, rfl⟩

/-- The first control that is no wire of the state decides the error. -/
theorem controlMask_of_le {before after : List Wire} {wire : Wire}
    (hbefore : ∀ earlier ∈ before, earlier.index < n) (h : n ≤ wire.index) :
    controlMask n (before ++ wire :: after) = .error (.wireOutOfRange wire.index n) := by
  have hfirst := controlMask_of_lt hbefore
  unfold controlMask at hfirst ⊢
  rw [List.foldlM_append, hfirst]
  show ((wire :: after).foldlM (fun mask wire => do
    return mask ||| wireBit (← locateWire n wire)) (addBits 0 before) :
      Except SimulationError Nat) = _
  rw [List.foldlM_cons, locateWire_of_le h]
  rfl

/-- What is not applicable is refused. -/
theorem exists_refused {op : Operation α} (h : ¬ op.Applicable n) :
    ∃ error, op.Refused n error := by
  cases hfound : op.controls.find? fun wire => n ≤ wire.index with
  | some wire =>
    obtain ⟨hwire, before, after, hcontrols, hbefore⟩ := List.find?_eq_some_iff_append.mp hfound
    refine ⟨_, .control hcontrols ?_ (by simpa using hwire)⟩
    intro earlier hmem
    simpa using hbefore earlier hmem
  | none =>
    have hcontrols : ∀ wire ∈ op.controls, wire.index < n := by
      simpa using List.find?_eq_none.mp hfound
    by_cases htarget : op.target.index < n
    · rw [op.applicable_iff, not_and, not_and] at h
      have hpartner := h hcontrols htarget
      rw [Classical.not_imp] at hpartner
      obtain ⟨hswap, hpartner⟩ := hpartner
      cases hsecond : op.partner with
      | none => exact ⟨_, .noPartner hcontrols htarget hswap hsecond⟩
      | some wire =>
        refine ⟨_, .partner hcontrols htarget hswap hsecond (Nat.le_of_not_lt ?_)⟩
        exact fun hlt => hpartner ⟨wire, hsecond, hlt⟩
    · exact ⟨_, .target hcontrols (Nat.le_of_not_lt htarget)⟩

variable [Add R] [Mul R] (matrixOf : Primitive α → Matrix R)

theorem apply_of_refused {op : Operation α} {error : SimulationError} (h : op.Refused n error)
    (state : StateVector R n) : apply matrixOf op state = .error error := by
  unfold apply
  cases h with
  | control hwires hbefore hwire =>
    rw [hwires, controlMask_of_le hbefore hwire]
    rfl
  | target hcontrols htarget =>
    rw [controlMask_of_lt hcontrols, locateWire_of_le htarget]
    rfl
  | noPartner hcontrols htarget hswap hpartner =>
    rw [controlMask_of_lt hcontrols, locateWire_of_lt htarget, hswap, hpartner]
    rfl
  | partner hcontrols htarget hswap hpartner hwire =>
    rw [controlMask_of_lt hcontrols, locateWire_of_lt htarget, hswap, hpartner]
    show (locateWire n _ >>= fun place => _) = _
    rw [locateWire_of_le hwire]
    rfl

theorem apply_eq_error_iff {op : Operation α} {state : StateVector R n}
    {error : SimulationError} : apply matrixOf op state = .error error ↔ op.Refused n error := by
  constructor
  · intro herror
    by_cases h : op.Applicable n
    · rw [apply_of_applicable matrixOf h] at herror
      cases herror
    · obtain ⟨found, hfound⟩ := exists_refused h
      obtain rfl : found = error :=
        Except.error.inj ((apply_of_refused matrixOf hfound state).symm.trans herror)
      exact hfound
  · exact fun h => apply_of_refused matrixOf h state

theorem exists_apply_eq_error_iff {op : Operation α} {state : StateVector R n} :
    (∃ error, apply matrixOf op state = .error error) ↔ ¬ op.Applicable n := by
  constructor
  · rintro ⟨error, herror⟩ h
    rw [apply_of_applicable matrixOf h] at herror
    cases herror
  · intro h
    obtain ⟨error, herror⟩ := exists_refused h
    exact ⟨error, apply_of_refused matrixOf herror state⟩

end Refusals

/-! ## All at once -/

section AtOnce

variable {α R : Type} [Add R] [Mul R] {n : Nat}

/-- The entries of `next` are what a matrix, applied to the target under the controls,
makes of the entries of `state`. -/
structure AppliedAtOnce (matrix : Matrix R) (controls : List Wire) (target : Fin n)
    (state next : StateVector R n) : Prop where
  /-- Where the controls are set and the target is clear, the first row is taken. -/
  clear : (∀ wire ∈ controls, wire.index ≠ target) → ∀ i : Fin (basisSize n),
    (∀ wire ∈ controls, i.val.testBit wire.index = true) → i.val.testBit target = false →
      next.get i = matrix.m00 * state.get i +
        matrix.m01 * state.get ⟨i ||| wireBit target, or_wireBit_lt i.isLt target⟩
  /-- Where the target is set as well, the second row is taken. Flipping the target clears it. -/
  set : (∀ wire ∈ controls, wire.index ≠ target) → ∀ i : Fin (basisSize n),
    (∀ wire ∈ controls, i.val.testBit wire.index = true) → i.val.testBit target = true →
      next.get i = matrix.m10 * state.get ⟨i ^^^ wireBit target, xor_wireBit_lt i.isLt target⟩ +
        matrix.m11 * state.get i
  /-- Where a control is clear, the entry stays. -/
  uncontrolled : ∀ i : Fin (basisSize n),
    (∃ wire ∈ controls, i.val.testBit wire.index = false) → next.get i = state.get i
  /-- A target among the controls is never clear where the controls are set. -/
  self_controlled : (∃ wire ∈ controls, wire.index = target) → next = state

variable {op : Operation α} (h : op.Applicable n) (matrixOf : Primitive α → Matrix R)

/-- An index has its target bit flipped in its mate, and the second row belongs to the mate
of a selected index. -/
theorem get_update_of_not_swap (hswap : op.gate.isSwap = false) (state : StateVector R n)
    (i : Fin (basisSize n)) :
    (op.update matrixOf h state).get i =
      let mate : Fin (basisSize n) :=
        ⟨i ^^^ wireBit op.target.index, xor_wireBit_lt i.isLt ⟨op.target.index, h.target⟩⟩
      if op.selects i then (matrixOf op.gate).firstRow (state.get i) (state.get mate)
      else if op.selects mate then (matrixOf op.gate).secondRow (state.get mate) (state.get i)
      else state.get i := by
  have hmate : (op.pairing h).mate i =
      ⟨i ^^^ wireBit op.target.index, xor_wireBit_lt i.isLt ⟨op.target.index, h.target⟩⟩ := by
    apply Fin.ext
    show i.val ^^^ op.flips = i.val ^^^ wireBit op.target.index
    simp [Operation.flips, Operation.second?, hswap]
  have hrows : op.selectedRow matrixOf = (matrixOf op.gate).firstRow ∧
      op.mateRow matrixOf = (matrixOf op.gate).secondRow := by
    simp [Operation.selectedRow, Operation.mateRow, hswap]
  rw [Operation.update, Pairing.get_update, hmate, hrows.1, hrows.2]
  rfl

/-- An operation other than a swap computes every entry from the old ones. -/
theorem update_at_once (hswap : op.gate.isSwap = false) (state : StateVector R n) :
    AppliedAtOnce (matrixOf op.gate) op.controls ⟨op.target.index, h.target⟩ state
      (op.update matrixOf h state) := by
  have hselects : ∀ i : Nat, op.selects i = true ↔
      (∀ wire ∈ op.controls, i.testBit wire.index = true) ∧
        i.testBit op.target.index = false := by
    intro i
    simp [Operation.selects_iff, Operation.second?, hswap]
  have hflip : ∀ i k : Nat, (i ^^^ wireBit op.target.index).testBit k =
      (i.testBit k ^^ decide (op.target.index = k)) := by
    intro i k
    rw [Nat.testBit_xor, testBit_wireBit]
  refine ⟨?_, ?_, ?_, ?_⟩
  · -- clear
    intro _ i hset hclear
    rw [get_update_of_not_swap h matrixOf hswap, if_pos ((hselects i).mpr ⟨hset, hclear⟩)]
    simp only [or_wireBit_of_clear hclear]
    rfl
  · -- set
    intro hne i hset htarget
    have hmate : op.selects (i ^^^ wireBit op.target.index) = true := by
      refine (hselects _).mpr ⟨fun wire hmem => ?_, ?_⟩
      · rw [hflip, hset wire hmem, decide_eq_false (hne wire hmem).symm, Bool.xor_false]
      · rw [hflip, htarget, decide_eq_true rfl, Bool.xor_self]
    rw [get_update_of_not_swap h matrixOf hswap, if_neg, if_pos hmate]
    · rfl
    · rw [hselects, not_and, Bool.not_eq_false]
      exact fun _ => htarget
  · -- uncontrolled
    rintro i ⟨wire, hmem, hclear⟩
    rw [get_update_of_not_swap h matrixOf hswap, if_neg, if_neg]
    · -- the mate has the control clear as well, unless this is the target, which it has set
      intro hselected
      obtain ⟨hset, htarget⟩ := (hselects _).mp hselected
      have hwire := hset wire hmem
      rw [hflip, hclear, Bool.false_xor, decide_eq_true_eq] at hwire
      rw [hflip, hwire, hclear, decide_eq_true rfl] at htarget
      cases htarget
    · intro hselected
      rw [((hselects i).mp hselected).1 wire hmem] at hclear
      cases hclear
  · -- self_controlled
    rintro ⟨wire, hmem, heq⟩
    refine (op.pairing h).update_of_none _ _ (fun i => Bool.eq_false_iff.mpr ?_) state
    intro hselected
    obtain ⟨hset, hclear⟩ := (hselects i).mp hselected
    have htarget : wire.index = op.target.index := heq
    rw [← htarget, hset wire hmem] at hclear
    cases hclear

/-- The loop of a matrix computes every entry from the old ones. -/
theorem applyMatrix_at_once (matrix : Matrix R) {controls : List Wire}
    (hcontrols : ∀ wire ∈ controls, wire.index < n) {target : Wire} (htarget : target.index < n)
    (state : StateVector R n) :
    AppliedAtOnce matrix controls ⟨target.index, htarget⟩ state
      (applyMatrix matrix (addBits 0 controls) ⟨target.index, htarget⟩ state) := by
  -- any gate without a partner will do, as the matrix is given
  let op : Operation Unit := .controlled .x controls target
  have happlicable : op.Applicable n := op.applicable_iff.mpr ⟨hcontrols, htarget, nofun⟩
  have hloop : applyMatrix matrix (addBits 0 controls) ⟨target.index, htarget⟩ state =
      op.update (fun _ => matrix) happlicable state :=
    applyMatrix_eq_update (fun _ => matrix) happlicable rfl state
  rw [hloop]
  exact update_at_once happlicable (fun _ => matrix) rfl state

end AtOnce

end StateVector

/-! ## In place -/

/-- A program that reads and overwrites the entries of a state. An error ends it and takes
back nothing that it has written. -/
abbrev EntryProgram (R : Type) (n : Nat) := ExceptT SimulationError (StateM (StateVector R n))

namespace EntryProgram

variable {R ι τ : Type} {n : Nat}

/-- What comes of a program, and the state that it leaves. -/
def execute (program : EntryProgram R n τ) (state : StateVector R n) :
    Except SimulationError τ × StateVector R n :=
  program.run state

/-- Go on with a result, or end with an error. -/
def check (result : Except SimulationError τ) : EntryProgram R n τ :=
  fun state => (result, state)

/-- The entry that stands at an index now. -/
def read (i : Fin (basisSize n)) : EntryProgram R n R :=
  fun state => (.ok (state.get i), state)

/-- Put an entry at an index. -/
def write (i : Fin (basisSize n)) (entry : R) : EntryProgram R n Unit :=
  fun state => (.ok (), state.set i entry i.isLt)

theorem execute_check_bind (result : Except SimulationError τ) (rest : τ → EntryProgram R n Unit)
    (state : StateVector R n) :
    (check result >>= rest).execute state =
      match result with
      | .ok value => (rest value).execute state
      | .error error => (.error error, state) := by
  cases result with
  | ok value => rfl
  | error error => rfl

theorem execute_bind_of_ok {program : EntryProgram R n Unit} {state next : StateVector R n}
    (h : program.execute state = (.ok (), next)) (rest : Unit → EntryProgram R n Unit) :
    (program >>= rest).execute state = (rest ()).execute next := by
  change program state = (.ok (), next) at h
  show ExceptT.bindCont rest (program state).1 (program state).2 = rest () next
  rw [h]
  rfl

/-- A loop whose steps do not fail passes the state on from step to step. -/
theorem execute_forM {step : ι → EntryProgram R n Unit}
    {effect : StateVector R n → ι → StateVector R n}
    (hstep : ∀ i state, (step i).execute state = (.ok (), effect state i)) (indices : List ι)
    (state : StateVector R n) :
    (indices.forM step).execute state = (.ok (), indices.foldl effect state) := by
  induction indices generalizing state with
  | nil => rfl
  | cons i indices ih =>
    show (step i >>= fun _ => indices.forM step).execute state = _
    rw [execute_bind_of_ok (hstep i state), ih, List.foldl_cons]

end EntryProgram

namespace StateVector

open EntryProgram

section InPlace

variable {α R : Type} {n : Nat}

/-- The loop of a matrix, entry by entry. -/
def replacePairs [Add R] [Mul R] (matrix : Matrix R) (controls : Nat) (target : Fin n) :
    EntryProgram R n Unit :=
  (List.finRange (basisSize n)).forM fun i => do
    if i.val &&& wireBit target = 0 ∧ i.val &&& controls = controls then
      let j : Fin (basisSize n) := ⟨i ||| wireBit target, or_wireBit_lt i.isLt target⟩
      let a ← read i
      let b ← read j
      write i (matrix.m00 * a + matrix.m01 * b)
      write j (matrix.m10 * a + matrix.m11 * b)

/-- The loop of a swap, entry by entry. -/
def exchangePairs (controls : Nat) (first second : Fin n) : EntryProgram R n Unit := do
  unless first = second do
    (List.finRange (basisSize n)).forM fun i => do
      if i.val &&& controls = controls ∧ i.val &&& wireBit first = wireBit first ∧
          i.val &&& wireBit second = 0 then
        let j : Fin (basisSize n) :=
          ⟨i ^^^ wireBit first ||| wireBit second,
            or_wireBit_lt (xor_wireBit_lt i.isLt first) second⟩
        let a ← read i
        let b ← read j
        write i b
        write j a

/-- An operation as a program: it looks up the controls, the target and for a swap the
partner, and then starts to write. -/
def applyInPlace [Add R] [Mul R] (matrixOf : Primitive α → Matrix R) (op : Operation α) :
    EntryProgram R n Unit := do
  let controls ← check (controlMask n op.controls)
  let target ← check (locateWire n op.target)
  if op.gate.isSwap then
    match op.partner with
    | none => check (.error (.missingPartner op.target.index))
    | some partner =>
      let partner ← check (locateWire n partner)
      exchangePairs controls target partner
  else replacePairs (matrixOf op.gate) controls target

theorem execute_replacePairs [Add R] [Mul R] (matrix : Matrix R) (controls : Nat)
    (target : Fin n) (state : StateVector R n) :
    (replacePairs matrix controls target).execute state =
      (.ok (), applyMatrix matrix controls target state) := by
  unfold replacePairs applyMatrix
  rw [Nat.fold_eq_finRange_foldl]
  refine execute_forM (fun ⟨i, i_lt⟩ current => ?_) _ state
  dsimp only
  split <;> rfl

theorem execute_exchangePairs (controls : Nat) (first second : Fin n)
    (state : StateVector R n) :
    (exchangePairs controls first second).execute state =
      (.ok (), applySwap controls first second state) := by
  unfold exchangePairs applySwap
  split
  · rfl
  · rw [Nat.fold_eq_finRange_foldl]
    refine execute_forM (fun ⟨i, i_lt⟩ current => ?_) _ state
    dsimp only
    split <;> rfl

/-- The program does what `apply` does, and leaves the state alone if that is an error. -/
theorem execute_applyInPlace [Add R] [Mul R] (matrixOf : Primitive α → Matrix R)
    (op : Operation α) (state : StateVector R n) :
    (applyInPlace matrixOf op).execute state =
      match apply matrixOf op state with
      | .ok next => (.ok (), next)
      | .error error => (.error error, state) := by
  unfold applyInPlace apply
  rw [execute_check_bind]
  cases controlMask n op.controls with
  | error error => rfl
  | ok controls =>
    simp only [execute_check_bind]
    cases locateWire n op.target with
    | error error => rfl
    | ok target =>
      cases op.gate.isSwap with
      | false => exact execute_replacePairs _ controls target state
      | true =>
        cases op.partner with
        | none => rfl
        | some partner =>
          show (check (locateWire n partner) >>= _).execute state =
            match (do return applySwap controls target (← locateWire n partner) state :
              Except SimulationError (StateVector R n)) with
            | .ok next => _
            | .error error => _
          rw [execute_check_bind]
          cases locateWire n partner with
          | error error => rfl
          | ok second => exact execute_exchangePairs controls target second state

end InPlace

/-! ## Both at once -/

/-- The loop of a matrix over an accepted choice of wires computes every entry from the old
ones. An operation is refused exactly if a wire that it needs is missing; the first one in
the order of `Operation.Refused` decides the error. The program that works in place then
has not changed the state, and otherwise comes to the same state. -/
theorem apply_at_once {α R : Type} [Add R] [Mul R] {n : Nat} (matrixOf : Primitive α → Matrix R)
    (state : StateVector R n) :
    (∀ (matrix : Matrix R) (controls : List Wire) (target : Wire) (target_lt : target.index < n),
      (∀ wire ∈ controls, wire.index < n) →
        ∃ mask, controlMask n controls = .ok mask ∧
          AppliedAtOnce matrix controls ⟨target.index, target_lt⟩ state
            (applyMatrix matrix mask ⟨target.index, target_lt⟩ state)) ∧
    ∀ op : Operation α,
      ((∃ error, apply matrixOf op state = .error error) ↔
        (∃ wire ∈ op.controls, n ≤ wire.index) ∨ n ≤ op.target.index ∨
          op.gate.isSwap = true ∧ ∀ wire, op.partner = some wire → n ≤ wire.index) ∧
      (∀ error, apply matrixOf op state = .error error ↔ op.Refused n error) ∧
      (∀ error, apply matrixOf op state = .error error →
        (applyInPlace matrixOf op).execute state = (.error error, state)) ∧
      ∀ next, apply matrixOf op state = .ok next →
        (applyInPlace matrixOf op).execute state = (.ok (), next) ∧
          (op.gate.isSwap = false → ∃ target_lt : op.target.index < n,
            AppliedAtOnce (matrixOf op.gate) op.controls ⟨op.target.index, target_lt⟩ state
              next) := by
  refine ⟨fun matrix controls target target_lt hcontrols => ?_, fun op => ⟨?_, ?_, ?_, ?_⟩⟩
  · exact ⟨_, controlMask_of_lt hcontrols, applyMatrix_at_once matrix hcontrols target_lt state⟩
  · rw [exists_apply_eq_error_iff, Operation.applicable_iff]
    grind
  · exact fun error => apply_eq_error_iff matrixOf
  · intro error herror
    rw [execute_applyInPlace, herror]
  · intro next hnext
    refine ⟨by rw [execute_applyInPlace, hnext], fun hswap => ?_⟩
    obtain ⟨happlicable, rfl⟩ := update_of_apply matrixOf hnext
    exact ⟨happlicable.target, update_at_once happlicable matrixOf hswap state⟩

end StateVector

end CircuitGrid
