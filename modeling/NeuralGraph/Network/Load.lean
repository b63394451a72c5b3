import NeuralGraph.Network.Basic

/-! Loading: the graph is validated, and each operation layer gets a workload from the first
backend that supports it. The calls made to backends are part of the result, and so is what a
failed load has done to the states of the graph. -/

namespace NeuralGraph

/-- A question that loading asks of a backend, in the order of asking. -/
inductive BackendCall where
  | supports (backend : BackendId) (kind : LayerKind) (inputs outputs : List TensorInfo)
  | create (backend : BackendId) (kind : LayerKind)

/-- The backend that is asked. -/
def BackendCall.backend : BackendCall → BackendId
  | supports backend .. | create backend _ => backend

/-- The state of a load between two layers. -/
structure Loading where
  graph : Graph
  device : Device
  calls : List BackendCall := []
  network : Network := {}

/-- What a load leaves behind. -/
structure LoadReport where
  graph : Graph
  device : Device
  calls : List BackendCall
  outcome : Except Error Network

namespace Loading

/-- Asks backends in turn for the first that supports a layer; if there is none, every one has
given a reason. -/
def select (label : String) (kind : LayerKind) (info : WorkloadInfo) :
    List Backend → List String → List BackendCall × Except Error Backend
  | [], reasons => ([], .error (.unsupportedLayer label reasons))
  | backend :: backends, reasons =>
    let call := BackendCall.supports backend.id kind info.inputs info.outputs
    match backend.supports kind info.inputs info.outputs with
    | .supported => ([call], .ok backend)
    | .unsupported reason =>
      let (calls, selected) :=
        select label kind info backends (reasons ++ [s!"{backend.id}: {reason}"])
      (call :: calls, selected)

/-- The memory that feeds a layer, slot by slot. -/
def inputHandles (handles : TensorHandles) (label : String) :
    List InputSlot → Except Error (List Handle)
  | [] => .ok []
  | slot :: slots =>
    match slot.source.bind handles.find? with
    | none => .error (.layerValidation label (.noHandle .input))
    | some handle => do return handle :: (← inputHandles handles label slots)

/-- The memory that a layer fills, for `count` slots from `index` on. -/
def outputHandles (handles : TensorHandles) (label : String) (id : LayerId) :
    Nat → Nat → Except Error (List Handle)
  | _, 0 => .ok []
  | index, count + 1 =>
    match handles.find? ⟨id, index⟩ with
    | none => .error (.layerValidation label (.noHandle .output))
    | some handle => do return handle :: (← outputHandles handles label id (index + 1) count)

/-- Compiles one operation layer: select a backend, check the handles, build the workload. -/
def compile (loading : Loading) (registry : Registry) (layer : Layer)
    (inputs outputs : List Handle) : Loading × Except Error Unit :=
  match loading.graph.workloadInfo layer.id with
  | .error error => (loading, .error error)
  | .ok info =>
    match select layer.label layer.kind info registry.backends [] with
    | (calls, .error error) => ({ loading with calls := loading.calls ++ calls }, .error error)
    | (calls, .ok backend) =>
      let asked := { loading with calls := loading.calls ++ calls }
      let descriptor : QueueDescriptor := { kind := layer.kind, inputs, outputs }
      match descriptor.validate info with
      | .error error => (asked, .error error)
      | .ok _ =>
        let (device, created) := backend.create descriptor info asked.device
        let built := { asked with
          device
          calls := asked.calls ++ [.create backend.id layer.kind] }
        match created with
        | .error error => (built, .error error)
        | .ok workload =>
          let loaded : LoadedLayer :=
            { id := layer.id, operation := layer.kind.operation, backend := backend.id, workload }
          ({ built with
              graph := built.graph.markBound layer.id
              network := { built.network with layers := built.network.layers ++ [loaded] } },
            .ok ())

/-- Binds the memory of an input or output layer, or compiles an operation layer. -/
def step (loading : Loading) (registry : Registry) (handles : TensorHandles) (id : LayerId) :
    Loading × Except Error Unit :=
  let bound : Except Error (Layer × List Handle × List Handle) := do
    let layer ← loading.graph.get id
    let inputs ← inputHandles handles layer.label layer.inputs
    let outputs ← outputHandles handles layer.label id 0 layer.outputs.length
    return (layer, inputs, outputs)
  match bound with
  | .error error => (loading, .error error)
  | .ok (layer, inputs, outputs) =>
    match layer.kind with
    | .input binding =>
      match outputs with
      | [] => (loading, .error .outOfBounds)
      | handle :: _ =>
        ({ loading with network := { loading.network with
            inputs := (binding, handle) :: loading.network.inputs } }, .ok ())
    | .output binding =>
      match inputs with
      | [] => (loading, .error .outOfBounds)
      | handle :: _ =>
        ({ loading with network := { loading.network with
            outputs := (binding, handle) :: loading.network.outputs } }, .ok ())
    | _ => loading.compile registry layer inputs outputs

/-- Loads layers one after the other, up to the first that fails. -/
def run (registry : Registry) (handles : TensorHandles) :
    List LayerId → Loading → Loading × Except Error Unit
  | [], loading => (loading, .ok ())
  | id :: ids, loading =>
    match loading.step registry handles id with
    | (next, .error error) => (next, .error error)
    | (next, .ok _) => run registry handles ids next

end Loading

namespace Network

/-- Validates the graph and compiles it onto the given memory. A failed load releases every
workload it has built. -/
def load (graph : Graph) (registry : Registry) (handles : TensorHandles) (device : Device) :
    LoadReport :=
  let (validated, checked) := graph.validate
  let ordered : Except Error (List LayerId) := do
    checked
    validated.topologicalOrder
  match ordered with
  | .error error => { graph := validated, device, calls := [], outcome := .error error }
  | .ok order =>
    let start : Loading := { graph := validated, device, network := { handles } }
    match Loading.run registry handles order start with
    | (loading, .ok _) =>
      { graph := loading.graph
        device := loading.device
        calls := loading.calls
        outcome := .ok loading.network }
    | (loading, .error error) =>
      { graph := loading.graph
        device := releaseLayers loading.network.layers loading.device
        calls := loading.calls
        outcome := .error error }

/-- Loads onto zeroed host memory for every slot. -/
def loadOnHost (graph : Graph) (registry : Registry) (device : Device) : LoadReport :=
  let (validated, checked) := graph.validate
  let allocated : Except Error (TensorHandles × HostMemory) := do
    checked
    TensorHandles.allocate validated device.host
  match allocated with
  | .error error => { graph := validated, device, calls := [], outcome := .error error }
  | .ok (handles, host) => load validated registry handles { device with host }

end Network

end NeuralGraph
