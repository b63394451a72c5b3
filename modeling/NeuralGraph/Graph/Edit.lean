import NeuralGraph.Graph.Reachability

/-! Structural edits. An edit that is refused gives no graph, so the old one stays as it was. -/

namespace NeuralGraph.Graph

/-- Gives a layer other parameters, whatever slots they need. -/
def editKind (graph : Graph) (id : LayerId) (f : LayerKind → LayerKind) : Graph :=
  graph.modify id fun layer => layer.withKind (f layer.kind)

/-- Writes one element of a constant of a layer. The constant moves to a storage of its own, and
the layer goes back to the constructed state, even when the element is not there. -/
def writeConstant (graph : Graph) (id : LayerId) (name : ConstantName) (storage : StorageId)
    (index : Nat) (value : Float32) : Graph :=
  graph.editKind id fun kind =>
    match kind.constant? name with
    | none => kind
    | some constant =>
      let own := constant.movedTo storage
      kind.setConstant name ((own.write? index value).getD own)

/-- Adds an edge between existing slots, unless the input is taken or a cycle would close. -/
def connect (graph : Graph) (source : OutputRef) (target : InputRef) : Except Error Graph := do
  let producer ← graph.get source.layer
  if producer.outputs.length ≤ source.index then
    throw (.structural (.noOutputSlot producer.label source.index))
  let consumer ← graph.get target.layer
  match consumer.inputs[target.index]? with
  | none => throw (.structural (.noInputSlot consumer.label target.index))
  | some slot =>
    if let some existing := slot.source then
      throw (.structural (.alreadyConnected target.index consumer.label existing))
    if graph.reaches target.layer source.layer then
      throw (.structural (.wouldCycle producer.label consumer.label))
    return graph.link source target

/-- Takes away the edge into an input slot and tells where it came from. -/
def disconnect (graph : Graph) (target : InputRef) : Except Error (OutputRef × Graph) := do
  let consumer ← graph.get target.layer
  match consumer.source? target.index with
  | none => throw (.structural (.notConnected target.index consumer.label))
  | some source => return (source, graph.unlink source target)

/-- Takes away every edge into the given layer's input slots, counted from `index`. -/
def unlinkInputs (graph : Graph) (id : LayerId) : Nat → List InputSlot → Graph
  | _, [] => graph
  | index, slot :: slots =>
    match slot.source with
    | none => graph.unlinkInputs id (index + 1) slots
    | some source => (graph.unlink source ⟨id, index⟩).unlinkInputs id (index + 1) slots

/-- Removes a layer that nothing reads; it leaves without its edges. -/
def remove (graph : Graph) (id : LayerId) : Except Error (Layer × Graph) := do
  let layer ← graph.get id
  if layer.consumers ≠ [] then
    throw (.structural (.stillRead layer.label layer.consumers.length))
  let unlinked := graph.unlinkInputs id 0 layer.inputs
  let removed ← unlinked.get id
  return (removed, { unlinked with layers := unlinked.layers.filter (·.id ≠ id) })

/-- Replaces the operation of a layer by one with the same slots, and tells the old one. -/
def replace (graph : Graph) (id : LayerId) (kind : LayerKind) :
    Except Error (LayerKind × Graph) := do
  let layer ← graph.get id
  if kind.inputCount ≠ layer.inputs.length ∨ kind.outputCount ≠ layer.outputs.length then
    throw (.structural (.slotCounts layer.label layer.inputs.length layer.outputs.length
      kind.operation kind.inputCount kind.outputCount))
  return (layer.kind, graph.editKind id fun _ => kind)

/-- Adds an unconnected copy of a layer to another graph. -/
def cloneInto (graph : Graph) (id : LayerId) (target : Graph) :
    Except Error (LayerId × Graph) := do
  let layer ← graph.get id
  return target.addLayer layer.kind layer.name

/-- Adds an unconnected copy of a layer to its own graph. -/
def clone (graph : Graph) (id : LayerId) : Except Error (LayerId × Graph) :=
  graph.cloneInto id graph

/-- Only a layer with one input and one output fits into an edge. -/
def checkSpliceable (kind : LayerKind) : Except Error Unit :=
  if kind.inputCount = 1 ∧ kind.outputCount = 1 then .ok ()
  else .error (.structural (.notSpliceable kind.operation))

/-- Puts a layer right before the anchor. -/
def placeBefore (anchor : LayerId) (layer : Layer) : List Layer → List Layer
  | [] => [layer]
  | head :: rest =>
    if head.id = anchor then layer :: head :: rest else head :: placeBefore anchor layer rest

/-- Puts a layer right after the anchor. -/
def placeAfter (anchor : LayerId) (layer : Layer) : List Layer → List Layer
  | [] => [layer]
  | head :: rest =>
    if head.id = anchor then head :: layer :: rest else head :: placeAfter anchor layer rest

/-- Splices a new layer into the edge that enters an input slot. The new output takes over the
descriptor of the old source. -/
def insertBefore (graph : Graph) (target : InputRef) (kind : LayerKind) (name : String) :
    Except Error (LayerId × Graph) := do
  checkSpliceable kind
  let consumer ← graph.get target.layer
  match consumer.source? target.index with
  | none => throw (.structural (.insertUnconnected target.index consumer.label))
  | some source =>
    let id := graph.nextId
    let layer := (Layer.new id kind name).withInfo 0 (graph.slotInfo? source)
    let placed : Graph :=
      { layers := placeBefore target.layer layer graph.layers, nextId := id + 1 }
    return (id, ((placed.unlink source target).link source ⟨id, 0⟩).link ⟨id, 0⟩ target)

/-- Moves readers one by one from one output slot to another. -/
def moveConsumers (graph : Graph) (source target : OutputRef) : List InputRef → Graph
  | [] => graph
  | consumer :: rest =>
    ((graph.unlink source consumer).link target consumer).moveConsumers source target rest

/-- Splices a new layer behind an output slot; it takes over every reader and the
descriptor. -/
def insertAfter (graph : Graph) (source : OutputRef) (kind : LayerKind) (name : String) :
    Except Error (LayerId × Graph) := do
  checkSpliceable kind
  let producer ← graph.get source.layer
  match producer.outputs[source.index]? with
  | none => throw (.structural (.noOutputSlot producer.label source.index))
  | some slot =>
    let id := graph.nextId
    let layer := (Layer.new id kind name).withInfo 0 slot.info
    let placed : Graph :=
      { layers := placeAfter source.layer layer graph.layers, nextId := id + 1 }
    return (id, (placed.moveConsumers source ⟨id, 0⟩ slot.consumers).link source ⟨id, 0⟩)

/-- Sends a layer back to the constructed state. -/
def reset (graph : Graph) (id : LayerId) : Graph :=
  graph.modify id fun layer => { layer with state := .constructed }

/-- Declares what an output slot carries; the layer and its readers have to be validated
again. -/
def setInfo (graph : Graph) (slot : OutputRef) (info : TensorInfo) : Except Error Graph := do
  let producer ← graph.get slot.layer
  match producer.outputs[slot.index]? with
  | none => throw (.structural (.noOutputSlot producer.label slot.index))
  | some output =>
    let declared := (graph.modify slot.layer (·.withInfo slot.index (some info))).reset slot.layer
    return (output.consumers.map (·.layer)).foldl reset declared

end NeuralGraph.Graph
