import CircuitGrid.Main
import CircuitGrid.Proofs.Footprint
import CircuitGrid.Proofs.Linearization
import CircuitGrid.Proofs.Program
import CircuitGrid.Proofs.Isolation
import CircuitGrid.Proofs.GateEdits
import CircuitGrid.Proofs.Recompilation
import CircuitGrid.Proofs.Pairing
import CircuitGrid.Proofs.OperationUpdate
import CircuitGrid.Proofs.Relabelling
import CircuitGrid.Proofs.Reordering
import CircuitGrid.Proofs.Scripts
import CircuitGrid.Proofs.Concatenation
import CircuitGrid.Proofs.Histogram
import CircuitGrid.Proofs.FiniteNumbers
import CircuitGrid.Proofs.JsonText
import CircuitGrid.Proofs.JsonNumbers
import CircuitGrid.Proofs.JsonForms
import CircuitGrid.Proofs.RoundTrip
import CircuitGrid.Proofs.LinkedTraces
import CircuitGrid.Proofs.SecondControl
import CircuitGrid.Proofs.Unitarity
import CircuitGrid.Proofs.TotalProbability
import CircuitGrid.Proofs.InPlace
import CircuitGrid.Proofs.ControlledSwap
import CircuitGrid.Proofs.Sampling
import CircuitGrid.Proofs.ReversibleMoves
import CircuitGrid.Proofs.Mirror
import CircuitGrid.Proofs.Confinement
import CircuitGrid.Proofs.Markers
import CircuitGrid.Proofs.Deletion
import CircuitGrid.Proofs.Legibility
import CircuitGrid.Proofs.FirstMaximum
import CircuitGrid.Proofs.FlatStorage
import CircuitGrid.Proofs.CellStore
import CircuitGrid.Proofs.ExactAngles
import CircuitGrid.Proofs.Rotations
import CircuitGrid.Proofs.BasisLabels
import CircuitGrid.Proofs.JsonIndented
import CircuitGrid.Proofs.CountsReport
