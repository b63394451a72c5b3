import NeuralGraph.Error
import NeuralGraph.Text.Blank

/-! Log severities, and the one sink that a process can install. -/

namespace NeuralGraph

/-- Thresholds, from the lowest to the highest. -/
inductive Severity where
  | trace
  | debug
  | info
  | warning
  | error
  | fatal
deriving DecidableEq, Inhabited

namespace Severity

def name : Severity → String
  | trace => "Trace"
  | debug => "Debug"
  | info => "Info"
  | warning => "Warning"
  | error => "Error"
  | fatal => "Fatal"

/-- The position among the thresholds. -/
def rank : Severity → Nat
  | trace => 0
  | debug => 1
  | info => 2
  | warning => 3
  | error => 4
  | fatal => 5

instance : Ord Severity := ⟨fun a b => compare a.rank b.rank⟩

/-- The level that sinks filter by; they know nothing above an error. -/
def filterName : Severity → String
  | trace => "trace"
  | debug => "debug"
  | info => "info"
  | warning => "warn"
  | error | fatal => "error"

/-- Reads a name, whatever its case and the blanks around it. -/
def parse (text : String) : Except Error Severity :=
  match Text.lower (Text.trim text) with
  | "trace" => .ok trace
  | "debug" => .ok debug
  | "info" => .ok info
  | "warn" | "warning" => .ok warning
  | "error" => .ok error
  | "fatal" => .ok fatal
  | other => .error (.invalidParameter (.severity other))

end Severity

/-- The sink that log messages go to, if one is installed. -/
structure LogSink where
  threshold : Option Severity := none

/-- Installs the sink; it can be done once. -/
def LogSink.install (sink : LogSink) (threshold : Severity) : Except Error LogSink :=
  match sink.threshold with
  | none => .ok { threshold := some threshold }
  | some _ => .error (.logging "a global subscriber is already installed")

end NeuralGraph
