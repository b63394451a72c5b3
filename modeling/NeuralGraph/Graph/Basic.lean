import NeuralGraph.Layer.Kind

/-! Layers with their slots, and graphs as lists of layers in insertion order. A graph does not
run inference by itself: edits send layers back to the constructed state. -/

namespace NeuralGraph

/-- How far a layer has come since its last edit. -/
inductive LayerState where
  | constructed
  | shapeResolved
  | workloadBound
deriving DecidableEq

def LayerState.name : LayerState → String
  | constructed => "Constructed"
  | shapeResolved => "ShapeResolved"
  | workloadBound => "WorkloadBound"

structure Layer where
  id : LayerId
  name : String
  kind : LayerKind
  inputs : List InputSlot
  outputs : List OutputSlot
  state : LayerState := .constructed

namespace Layer

/-- An unconnected layer with the slots of its kind. -/
def new (id : LayerId) (kind : LayerKind) (name : String) : Layer where
  id := id
  name := name
  kind := kind
  inputs := List.replicate kind.inputCount {}
  outputs := List.replicate kind.outputCount {}

/-- Operation and name, as diagnostics show a layer. -/
def label (layer : Layer) : String := layer.kind.operation.name ++ ":" ++ layer.name

def isUnconnected (layer : Layer) : Bool :=
  layer.inputs.all (·.source.isNone) && layer.outputs.all (·.consumers.isEmpty)

/-- The source of an input slot, if the slot exists and is connected. -/
def source? (layer : Layer) (index : Nat) : Option OutputRef := do
  (← layer.inputs[index]?).source

/-- Every reader of this layer, slot by slot. -/
def consumers (layer : Layer) : List InputRef := layer.outputs.flatMap (·.consumers)

/-- Every layer that this layer reads, slot by slot. -/
def producers (layer : Layer) : List LayerId :=
  layer.inputs.filterMap fun slot => slot.source.map (·.layer)

/-- Gives the layer new parameters; it has to be validated again. -/
def withKind (layer : Layer) (kind : LayerKind) : Layer :=
  { layer with kind, state := .constructed }

/-- Connects or disconnects an input slot; the layer has to be validated again. -/
def withSource (layer : Layer) (index : Nat) (source : Option OutputRef) : Layer :=
  { layer with
    inputs := layer.inputs.modify index fun _ => { source }
    state := .constructed }

/-- Edits the readers of an output slot. -/
def mapConsumers (layer : Layer) (index : Nat) (f : List InputRef → List InputRef) : Layer :=
  { layer with
    outputs := layer.outputs.modify index fun slot => { slot with consumers := f slot.consumers } }

/-- Sets the descriptor of an output slot. -/
def withInfo (layer : Layer) (index : Nat) (info : Option TensorInfo) : Layer :=
  { layer with outputs := layer.outputs.modify index fun slot => { slot with info } }

end Layer

structure Graph where
  layers : List Layer := []
  nextId : LayerId := 0

namespace Graph

def empty : Graph := {}

/-- Layer ids in insertion order. -/
def ids (graph : Graph) : List LayerId := graph.layers.map (·.id)

def find? (graph : Graph) (id : LayerId) : Option Layer := graph.layers.find? (·.id == id)

def get (graph : Graph) (id : LayerId) : Except Error Layer :=
  match graph.find? id with
  | some layer => .ok layer
  | none => .error (.unknownLayer id)

/-- Edits the layer with the given id, if there is one. -/
def modify (graph : Graph) (id : LayerId) (f : Layer → Layer) : Graph :=
  { graph with layers := graph.layers.map fun layer => if layer.id = id then f layer else layer }

/-- Appends an unconnected layer under a fresh id. -/
def addLayer (graph : Graph) (kind : LayerKind) (name : String) : LayerId × Graph :=
  (graph.nextId,
   { layers := graph.layers ++ [.new graph.nextId kind name], nextId := graph.nextId + 1 })

def slotInfo? (graph : Graph) (slot : OutputRef) : Option TensorInfo := do
  let layer ← graph.find? slot.layer
  (← layer.outputs[slot.index]?).info

/-- Records an edge on both of its ends. -/
def link (graph : Graph) (source : OutputRef) (target : InputRef) : Graph :=
  (graph.modify source.layer (·.mapConsumers source.index (· ++ [target]))).modify target.layer
    (·.withSource target.index (some source))

/-- Takes an edge away from both of its ends. -/
def unlink (graph : Graph) (source : OutputRef) (target : InputRef) : Graph :=
  (graph.modify source.layer (·.mapConsumers source.index (·.filter (· ≠ target)))).modify
    target.layer (·.withSource target.index none)

end Graph

end NeuralGraph
