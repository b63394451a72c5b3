import NeuralGraph.Graph.Basic

/-! The order in which layers run: producers first, and otherwise as inserted. -/

namespace NeuralGraph.Graph

/-- A layer is ready when everything it reads has been scheduled. -/
def isReady (scheduled : List LayerId) (layer : Layer) : Bool :=
  layer.producers.all scheduled.contains

/-- Schedules the waiting layers, always taking the earliest one that is ready; there is no
schedule when none is. -/
def scheduleFrom : Nat → List LayerId → List Layer → Option (List LayerId)
  | _, _, [] => some []
  | 0, _, _ :: _ => none
  | fuel + 1, scheduled, waiting =>
    match waiting.find? (isReady scheduled) with
    | none => none
    | some next =>
      (scheduleFrom fuel (next.id :: scheduled) (waiting.eraseP (·.id == next.id))).map
        (next.id :: ·)

/-- The topological order that keeps insertion order wherever the edges allow it. -/
def topologicalOrder (graph : Graph) : Except Error (List LayerId) :=
  match scheduleFrom graph.layers.length [] graph.layers with
  | some order => .ok order
  | none => .error (.structural .cyclic)

end NeuralGraph.Graph
