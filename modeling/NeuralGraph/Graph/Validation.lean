import NeuralGraph.Graph.Schedule

/-! Shapes across a graph. Validation compares what the slots declare with what inference says;
inference declares it. Both work through the layers in topological order and keep what they did
before an error. -/

namespace NeuralGraph

/-- The resolved descriptors around one layer. -/
structure WorkloadInfo where
  inputs : List TensorInfo
  outputs : List TensorInfo
deriving Inhabited

namespace Graph

/-- The descriptors that flow into the slots of a layer, counted from `index`. -/
def inputInfosFrom (graph : Graph) (label : String) :
    Nat → List InputSlot → Except Error (List TensorInfo)
  | _, [] => .ok []
  | index, slot :: slots =>
    match slot.source with
    | none => .error (.layerValidation label (.inputNotConnected index))
    | some source =>
      match graph.slotInfo? source with
      | none => .error (.layerValidation label (.inputWithoutInfo index source))
      | some info => do return info :: (← graph.inputInfosFrom label (index + 1) slots)

/-- The descriptors that flow into a layer, in slot order. -/
def layerInputInfos (graph : Graph) (layer : Layer) : Except Error (List TensorInfo) :=
  graph.inputInfosFrom layer.label 0 layer.inputs

def inputInfos (graph : Graph) (id : LayerId) : Except Error (List TensorInfo) := do
  graph.layerInputInfos (← graph.get id)

/-- The declared descriptors of output slots, counted from `index`; each slot needs one. -/
def declaredInfosFrom (label : String) : Nat → List OutputSlot → Except Error (List TensorInfo)
  | _, [] => .ok []
  | index, slot :: slots =>
    match slot.info with
    | none => .error (.layerValidation label (.outputWithoutInfo index))
    | some info => do return info :: (← declaredInfosFrom label (index + 1) slots)

def declaredShapes (layer : Layer) : Except Error (List Shape) := do
  return (← declaredInfosFrom layer.label 0 layer.outputs).map (·.shape)

/-- The first slot whose declared shape is not the inferred one, counted from `index`. Slots
that one side lacks are not compared. -/
def firstMismatch? : Nat → List Shape → List Shape → Option (Nat × Shape × Shape)
  | index, expected :: inferred, actual :: declared =>
    if expected = actual then firstMismatch? (index + 1) inferred declared
    else some (index, expected, actual)
  | _, _, _ => none

/-- The inferred output shapes of a layer, for the given inputs. -/
def inferOutputs (layer : Layer) (inputs : List TensorInfo) : Except Error (List Shape) :=
  match layer.kind.inferShapes (inputs.map (·.shape)) with
  | .ok shapes => .ok shapes
  | .error cause => .error (.shape layer.label cause)

/-- Compares the declared outputs of a layer with what follows from its inputs. Input layers
only have to declare theirs. -/
def validateLayer (graph : Graph) (id : LayerId) : Except Error Unit := do
  let layer ← graph.get id
  let inputs ← graph.layerInputInfos layer
  if let .error fault := layer.kind.checkParameters then
    throw (.layerValidation layer.label (.parameters fault))
  if let .input _ := layer.kind then
    let _ ← declaredShapes layer
    return
  let inferred ← inferOutputs layer inputs
  let declared ← declaredShapes layer
  if let some (slot, expected, actual) := firstMismatch? 0 inferred declared then
    throw (.shapeMismatch layer.label slot expected actual)

/-- A validated layer leaves the constructed state; a bound one stays bound. -/
def markResolved (graph : Graph) (id : LayerId) : Graph :=
  graph.modify id fun layer =>
    if layer.state = .constructed then { layer with state := .shapeResolved } else layer

/-- Validates layers one after the other, up to the first that fails. -/
def validateEach : List LayerId → Graph → Graph × Except Error Unit
  | [], graph => (graph, .ok ())
  | id :: ids, graph =>
    match graph.validateLayer id with
    | .error error => (graph, .error error)
    | .ok _ => validateEach ids (graph.markResolved id)

/-- Validates every layer. -/
def validate (graph : Graph) : Graph × Except Error Unit :=
  match graph.topologicalOrder with
  | .error error => (graph, .error error)
  | .ok order => validateEach order graph

/-- Gives output slots the inferred shapes, with the rest of the descriptor from a template. -/
def declareOutputs (template : TensorInfo) : List Shape → List OutputSlot → List OutputSlot
  | shape :: shapes, slot :: slots =>
    { slot with info := some { template with shape } } :: declareOutputs template shapes slots
  | _, slots => slots

/-- Declares the outputs of one layer after its first input. Input layers must have declared
theirs. -/
def inferLayer (graph : Graph) (id : LayerId) : Except Error Graph := do
  let layer ← graph.get id
  if let .input _ := layer.kind then
    let _ ← declaredShapes layer
    return graph
  let inputs ← graph.layerInputInfos layer
  let inferred ← inferOutputs layer inputs
  match inputs with
  | [] => throw .outOfBounds
  | template :: _ =>
    return graph.modify id fun layer =>
      { layer with
        outputs := declareOutputs template inferred layer.outputs
        state := .constructed }

/-- Infers layers one after the other, up to the first that fails. -/
def inferEach : List LayerId → Graph → Graph × Except Error Unit
  | [], graph => (graph, .ok ())
  | id :: ids, graph =>
    match graph.inferLayer id with
    | .error error => (graph, .error error)
    | .ok inferred => inferEach ids inferred

/-- Declares the outputs of every layer that is not an input. -/
def infer (graph : Graph) : Graph × Except Error Unit :=
  match graph.topologicalOrder with
  | .error error => (graph, .error error)
  | .ok order => inferEach order graph

/-- The descriptors around a layer that has left the constructed state. -/
def workloadInfo (graph : Graph) (id : LayerId) : Except Error WorkloadInfo := do
  let layer ← graph.get id
  if layer.state = .constructed then
    throw (.layerValidation layer.label .unresolved)
  let inputs ← graph.layerInputInfos layer
  return { inputs, outputs := layer.outputs.filterMap (·.info) }

def markBound (graph : Graph) (id : LayerId) : Graph :=
  graph.modify id fun layer => { layer with state := .workloadBound }

end Graph

end NeuralGraph
