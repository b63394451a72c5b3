import NeuralGraph.Backend.Registry

/-! Networks: graphs compiled into workloads, with the memory they run on. -/

namespace NeuralGraph

/-- Memory for output slots. -/
structure TensorHandles where
  entries : List (OutputRef × Handle) := []

namespace TensorHandles

def find? (handles : TensorHandles) (slot : OutputRef) : Option Handle :=
  handles.entries.lookup slot

def erase (handles : TensorHandles) (slot : OutputRef) : TensorHandles :=
  { entries := handles.entries.filter (·.1 ≠ slot) }

/-- Binds a slot, in place of what was bound to it. -/
def insert (handles : TensorHandles) (slot : OutputRef) (handle : Handle) : TensorHandles :=
  { entries := (slot, handle) :: (handles.erase slot).entries }

/-- Zeroed memory for the output slots of one layer, counted from `index`. -/
def allocateSlots (layer : Layer) :
    Nat → List OutputSlot → TensorHandles → HostMemory → Except Error (TensorHandles × HostMemory)
  | _, [], handles, memory => .ok (handles, memory)
  | index, slot :: slots, handles, memory =>
    match slot.info with
    | none => .error (.layerValidation layer.label (.outputWithoutInfo index))
    | some info => do
      let (handle, allocated) ← memory.allocateZeroed info
      allocateSlots layer (index + 1) slots (handles.insert ⟨layer.id, index⟩ handle) allocated

/-- Zeroed memory for the output slots of several layers. -/
def allocateLayers :
    List Layer → TensorHandles → HostMemory → Except Error (TensorHandles × HostMemory)
  | [], handles, memory => .ok (handles, memory)
  | layer :: layers, handles, memory => do
    let (extended, allocated) ← allocateSlots layer 0 layer.outputs handles memory
    allocateLayers layers extended allocated

/-- Zeroed memory for every output slot of a graph; each slot needs a descriptor. -/
def allocate (graph : Graph) (memory : HostMemory) : Except Error (TensorHandles × HostMemory) :=
  allocateLayers graph.layers {} memory

/-- Leaves slots without memory. -/
def eraseEach (slots : List OutputRef) (handles : TensorHandles) : TensorHandles :=
  slots.foldl erase handles

/-- Binds slots to memory for described tensors, one after the other. -/
def rebindEach : List (OutputRef × TensorSource) → TensorHandles → HostMemory →
    Except Error (TensorHandles × HostMemory)
  | [], handles, memory => .ok (handles, memory)
  | (slot, source) :: changes, handles, memory => do
    let (handle, extended) ← memory.provide source
    rebindEach changes (handles.insert slot handle) extended

end TensorHandles

/-- A layer with the workload that was built for it. -/
structure LoadedLayer where
  id : LayerId
  operation : Operation
  backend : BackendId
  workload : Workload

/-- The workloads of a graph in execution order, and the memory bound to its ends. -/
structure Network where
  layers : List LoadedLayer := []
  inputs : List (UInt32 × Handle) := []
  outputs : List (UInt32 × Handle) := []
  handles : TensorHandles := {}

namespace Network

/-- The memory that the input layer with this binding fills. -/
def inputHandle? (network : Network) (binding : UInt32) : Option Handle :=
  network.inputs.lookup binding

/-- The memory that the output layer with this binding shows. -/
def outputHandle? (network : Network) (binding : UInt32) : Option Handle :=
  network.outputs.lookup binding

/-- The backend that a layer was compiled for. -/
def backendFor? (network : Network) (id : LayerId) : Option BackendId :=
  (network.layers.find? (·.id == id)).map (·.backend)

/-- Runs workloads one after the other, up to the first that fails, and tells which ran. -/
def runEach : List LoadedLayer → Device → Device × Except Error Unit × List LoadedLayer
  | [], device => (device, .ok (), [])
  | layer :: layers, device =>
    match layer.workload.execute device with
    | (after, .error error) => (after, .error error, [layer])
    | (after, .ok _) =>
      let (final, result, ran) := runEach layers after
      (final, result, layer :: ran)

/-- Runs every workload once. -/
def execute (network : Network) (device : Device) :
    Device × Except Error Unit × List LoadedLayer :=
  runEach network.layers device

/-- Gives back what the given layers hold. -/
def releaseLayers (layers : List LoadedLayer) (device : Device) : Device :=
  layers.foldl (fun device layer => layer.workload.release device) device

/-- Ends a network. -/
def release (network : Network) (device : Device) : Device := releaseLayers network.layers device

end Network

end NeuralGraph
