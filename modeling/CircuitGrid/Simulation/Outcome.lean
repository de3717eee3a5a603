import CircuitGrid.Decimal
import CircuitGrid.Simulation.Scalar

/-!
# Outcomes of a measurement

Measuring every wire yields one basis state. This module draws a basis state
from a list of probabilities, finds the most likely one, and writes basis states
as bit strings.
-/

namespace CircuitGrid

variable {ρ : Type} [Scalar ρ]

/-! ## Drawing an outcome -/

/-- Walk up the running sum of the probabilities from position `i` until it
exceeds `r`. If it never does, the last possible outcome seen is taken. -/
@[specialize]
def drawFrom {m : Nat} (probabilities : Vector ρ m) (r : ρ) (i : Nat) (sum : ρ)
    (lastPossible : Nat) : Nat :=
  if h : i < m then
    let p := probabilities[i]
    let lastPossible := if Scalar.less Scalar.zero p then i else lastPossible
    let sum := Scalar.add sum p
    if Scalar.less r sum then i else drawFrom probabilities r (i + 1) sum lastPossible
  else lastPossible
termination_by m - i

/-- The outcome that a number `r` in `[0, 1)` selects: the first one at which the
running sum of the probabilities exceeds `r`. -/
@[inline]
def drawOutcome {m : Nat} (probabilities : Vector ρ m) (r : ρ) : Nat :=
  drawFrom probabilities r 0 Scalar.zero 0

/-! ## The most likely outcome -/

/-- The better of the best entry so far and the next one; the earlier one stays
unless the next is larger. -/
def betterEntry (best : Option (Nat × ρ)) (next : Nat × ρ) : Option (Nat × ρ) :=
  match best with
  | some (i, p) => if Scalar.atLeast p next.2 then some (i, p) else some next
  | none => some next

/-- The position of the largest probability, the first one if there are several. -/
def mostLikely (probabilities : List ρ) : Option Nat :=
  ((probabilities.zipIdx.map Prod.swap).foldl betterEntry none).map Prod.fst

/-! ## Labels -/

/-- A basis state as a bit string of at least `wires` characters, wire 0 on the right. -/
def basisLabel (state wires : Nat) : List Char :=
  let digits := Nat.toDigits 2 state
  List.replicate (wires - digits.length) '0' ++ digits

end CircuitGrid
