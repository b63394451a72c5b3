import NeuralGraph.Backend.Registry
import NeuralGraph.Reference.Kernel

/-! The reference backend: every operation on single-precision host memory. -/

namespace NeuralGraph.Reference

/-- Binding layers and unknown cell activations are refused, and so is any other element type
than `Float32`. -/
def supports (kind : LayerKind) (inputs outputs : List TensorInfo) : Support :=
  let types :=
    (Support.requireElementType inputs .float32 Backend.referenceId).andThen
      (Support.requireElementType outputs .float32 Backend.referenceId)
  match kind with
  | .input _ | .output _ => .unsupported "binding layers have no workload"
  | .lstm cell _ =>
    match Lstm.Activation.ofCode cell.activationCode with
    | .error error => .unsupported error.message
    | .ok _ => types
  | _ => types

/-- The values behind a handle, with its shape. -/
def readView (memory : HostMemory) (handle : Handle) : Except Error View :=
  match memory.read? handle with
  | some data => .ok { shape := handle.shape, data }
  | none => .error Fault.foreignHandle.error

/-- Writes results one by one, up to the first that does not fit. -/
def writeResults : List Handle → List (Array Float32) → HostMemory →
    HostMemory × Except Error Unit
  | handle :: handles, data :: results, memory =>
    match memory.copyFrom handle data with
    | .error error => (memory, .error error)
    | .ok written => writeResults handles results written
  | _, _, memory => (memory, .ok ())

/-- Reads the inputs, evaluates the layer and overwrites the outputs. -/
def execute (descriptor : QueueDescriptor) (device : Device) : Device × Except Error Unit :=
  let results : Except Error (List (Array Float32)) := do
    let inputs ← descriptor.inputs.mapM (readView device.host)
    evaluate descriptor.kind inputs (descriptor.outputs.map (·.shape))
  match results with
  | .error error => (device, .error error)
  | .ok results =>
    let (host, written) := writeResults descriptor.outputs results device.host
    ({ device with host }, written)

/-- Only host memory can be bound. -/
def checkHandles (handles : List Handle) : Except Error Unit :=
  if handles.any (·.isForeign) then .error Fault.foreignHandle.error else .ok ()

/-- Checks the descriptor and binds it. -/
def build (descriptor : QueueDescriptor) (info : WorkloadInfo) : Except Error Workload := do
  descriptor.validate info
  if let .lstm cell _ := descriptor.kind then
    let _ ← Lstm.Activation.ofCode cell.activationCode
  checkHandles (descriptor.inputs ++ descriptor.outputs)
  return {
    name := s!"Ref{descriptor.kind.operation}Workload"
    execute := execute descriptor }

def backend : Backend where
  id := Backend.referenceId
  supports := supports
  create := fun descriptor info device => (device, build descriptor info)

/-- The registry that holds the reference backend alone. -/
def registry : Registry := Registry.empty.register backend

end NeuralGraph.Reference
