import NeuralGraph.Graph.Basic

/-! Which layers a layer feeds, directly or through others. -/

namespace NeuralGraph.Graph

/-- The layers that read an output of the given layer. -/
def successors (graph : Graph) (id : LayerId) : List LayerId :=
  match graph.find? id with
  | none => []
  | some layer => layer.consumers.map (·.layer)

/-- Adds every successor of the given layers that is not yet among them. -/
def grow (graph : Graph) (reached : List LayerId) : List LayerId :=
  (reached.flatMap graph.successors).foldl
    (fun known id => if known.contains id then known else known ++ [id]) reached

/-- The layers at the end of a path of at most the given length. -/
def reachedWithin (graph : Graph) : Nat → LayerId → List LayerId
  | 0, start => [start]
  | steps + 1, start => graph.grow (graph.reachedWithin steps start)

/-- Whether a path, possibly of length zero, leads from one layer to another. A path without
repetitions has at most as many edges as there are layers. -/
def reaches (graph : Graph) (start target : LayerId) : Bool :=
  (graph.reachedWithin graph.layers.length start).contains target

end NeuralGraph.Graph
