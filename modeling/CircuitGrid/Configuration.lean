import CircuitGrid.Settings
import CircuitGrid.Yaml.Reader

/-!
# Configuration files

A configuration file is a YAML mapping with the entries `grid` (with `wires` and
`columns`), `rotation_step` and `shots`. Entries that are missing leave a
setting at its default, and unknown ones are skipped. A file that is written in
more of YAML than `Yaml.read?` covers is malformed.
-/

namespace CircuitGrid

/-- What is wrong with a configuration. -/
inductive ConfigurationError where
  /-- The text is not a configuration. -/
  | malformed
  /-- The settings cannot be used. -/
  | unusable (error : SettingsError)
  deriving DecidableEq, Repr

/-- The error in words. -/
def ConfigurationError.message : ConfigurationError → String
  | .malformed => "Invalid configuration file"
  | .unusable error => error.message

/-- Dimensions from a configuration. -/
def Dimensions.ofYaml? (value : Yaml) : Option Dimensions := do
  let entries ← value.entries?
  return {
    wires := ← Yaml.entry? entries "wires" Dimensions.default.wires (Yaml.natural? maxWord64)
    columns := ←
      Yaml.entry? entries "columns" Dimensions.default.columns (Yaml.natural? maxWord64) }

namespace Settings

/-- Settings from a configuration, before they are checked. -/
def ofYaml? (value : Yaml) : Option (Settings Float) := do
  let entries ← value.entries?
  return {
    grid := ← Yaml.entry? entries "grid" Settings.default.grid Dimensions.ofYaml?
    rotationStep := ←
      Yaml.entry? entries "rotation_step" Settings.default.rotationStep Yaml.float?
    shots := ← Yaml.entry? entries "shots" Settings.default.shots (Yaml.natural? maxWord32) }

/-- The settings of a configuration file. -/
def ofConfiguration (text : List Char) : Except ConfigurationError (Settings Float) :=
  match Yaml.read? text >>= ofYaml? with
  | some settings => settings.validate.mapError .unusable
  | none => .error .malformed

end Settings

end CircuitGrid
