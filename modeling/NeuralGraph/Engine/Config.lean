import NeuralGraph.Backend.Registry
import NeuralGraph.Engine.Severity

/-! The configuration of the engine. Settings are texts that may be absent; what they say and
nobody knows is skipped. -/

namespace NeuralGraph

structure Config where
  /-- Backends in the order in which loading tries them. -/
  preference : List BackendId := [Backend.acceleratorId, Backend.referenceId]
  severity : Severity := .warning

namespace Config

/-- The backend that goes by a name, whatever its case. -/
def backend? (name : String) : Option BackendId :=
  match Text.lower name with
  | "ref" | "cpuref" | "cpu" => some Backend.referenceId
  | "accel" | "acc" => some Backend.acceleratorId
  | _ => none

/-- The backends named in a list with commas, each at its first mention. -/
def parsePreference (text : String) : List BackendId :=
  (((text.splitOn ",").map Text.trim).filterMap backend?).eraseDups

/-- Reads the settings; a preference without known names and an unknown severity leave the
defaults. -/
def ofSettings (backends severity : Option String) : Config :=
  let default : Config := {}
  { preference :=
      match backends.map parsePreference with
      | none | some [] => default.preference
      | some preference => preference
    severity :=
      match severity.map Severity.parse with
      | some (.ok severity) => severity
      | _ => default.severity }

/-- Orders a registry by the preference. -/
def apply (config : Config) (registry : Registry) : Registry :=
  registry.prefer config.preference

end Config

end NeuralGraph
