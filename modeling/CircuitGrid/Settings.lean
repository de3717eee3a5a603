import CircuitGrid.Angle.Radians

/-!
# Settings of a session

How large the grid of a session is, how far a rotation command turns a gate, and
how often a run is measured. Settings come from the defaults, a configuration
file, and overrides, in this order.
-/

namespace CircuitGrid

/-- The dimensions of a grid. Nothing says yet that such a grid exists. -/
structure Dimensions where
  wires : Nat
  columns : Nat
  deriving DecidableEq, Repr

/-- The dimensions of a grid unless others are asked for. -/
def Dimensions.default : Dimensions := ⟨3, 16⟩

/-- Settings of a session. -/
structure Settings (α : Type) where
  grid : Dimensions
  /-- The angle of the two rotation commands, in radians. -/
  rotationStep : α
  /-- How many measurements a run takes. -/
  shots : Nat
  deriving DecidableEq, Repr

/-- What is wrong with settings. -/
inductive SettingsError where
  | rotationNotFinite
  | noShots
  deriving DecidableEq, Repr

/-- The error in words. -/
def SettingsError.message : SettingsError → String
  | .rotationNotFinite => "Rotation step must be a finite number of radians"
  | .noShots => "Shots must be at least 1"

/-- Values that replace settings; what is absent leaves a setting alone. -/
structure Overrides (α : Type) where
  wires : Option Nat := none
  columns : Option Nat := none
  rotationStep : Option α := none
  shots : Option Nat := none

namespace Settings

/-- The settings without any configuration. -/
def default : Settings Float := ⟨.default, Radians.defaultStep, 1⟩

/-- The settings themselves if they can be used. The rotation step is checked first. -/
def validate (settings : Settings Float) : Except SettingsError (Settings Float) :=
  if !settings.rotationStep.isFinite then .error .rotationNotFinite
  else if settings.shots = 0 then .error .noShots
  else .ok settings

/-- The settings with some of them replaced. -/
def override {α : Type} (settings : Settings α) (overrides : Overrides α) : Settings α where
  grid :=
    ⟨overrides.wires.getD settings.grid.wires, overrides.columns.getD settings.grid.columns⟩
  rotationStep := overrides.rotationStep.getD settings.rotationStep
  shots := overrides.shots.getD settings.shots

end Settings

end CircuitGrid
