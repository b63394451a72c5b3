import NeuralGraph.Accelerator.Function

/-! The accelerator backend: native functions for pooling, activation, softmax and LSTM on
single-precision tensors. Everything else is left to other backends. -/

namespace NeuralGraph.Accelerator

/-- A check for operations with one input and one output. -/
def checkSingle (inputs outputs : List TensorInfo) (check : TensorInfo → TensorInfo → Support) :
    Support :=
  match inputs, outputs with
  | [input], [output] => check input output
  | _, _ =>
    .unsupported
      s!"expected one input and one output, got {inputs.length} and {outputs.length}"

/-- Element types first, then what the native function of the operation asks for. -/
def supports (kind : LayerKind) (inputs outputs : List TensorInfo) : Support :=
  ((Support.requireElementType inputs .float32 Backend.acceleratorId).andThen
    (Support.requireElementType outputs .float32 Backend.acceleratorId)).andThen
    (match kind with
     | .pooling2d pooling => checkSingle inputs outputs (PoolingFunction.validate pooling)
     | .activation activation =>
       checkSingle inputs outputs (ElementwiseFunction.validate activation)
     | .softmax _ => checkSingle inputs outputs SoftmaxFunction.validate
     | .lstm cell params => LstmFunction.validate cell params inputs outputs
     | kind => .unsupported s!"{kind.operation} has no native function")

/-- The one handle of a side. -/
def single (side : Side) : List Handle → Except Fault Operand
  | [handle] => Operand.ofHandle handle
  | handles => .error (.invalidConfiguration (.tensorCount side handles.length))

/-- The function for an operation with one input and one output. -/
def planSingle (kind : LayerKind) (input output : Operand) : Except Fault Plan :=
  match kind with
  | .pooling2d pooling => do return .pooling (← PoolingFunction.configure pooling input output)
  | .activation activation => do
    return .elementwise (← ElementwiseFunction.configure activation input output)
  | .softmax beta => do return .softmax (← SoftmaxFunction.configure beta input output)
  | kind => .error (.unsupported (.operation kind.operation))

/-- A fault, read as the failure of the backend. -/
def asError {α : Type} (result : Except Fault α) : Except Error α :=
  match result with
  | .ok value => .ok value
  | .error fault => .error fault.error

/-- Runs a function and reads its fault as the failure of the backend. -/
def execute (function : NativeFunction) (device : Device) : Device × Except Error Unit :=
  let (after, result) := function.run device
  (after, asError result)

/-- A workload for an operation with one input and one output; it stages nothing. -/
def buildSingle (descriptor : QueueDescriptor) (info : WorkloadInfo) : Except Error Workload := do
  descriptor.validate info
  let input ← asError (single .input descriptor.inputs)
  let output ← asError (single .output descriptor.outputs)
  let plan ← asError (planSingle descriptor.kind input output)
  return {
    name := s!"Accel{descriptor.kind.operation}Workload"
    execute := execute { plan, prepared := true } }

/-- An LSTM function with the weights that it has staged. -/
structure LstmWorkload where
  function : NativeFunction
  weights : LstmWeights

namespace LstmWorkload

/-- Binds a cell to staged weights, keeps only what it reads, and uploads that. -/
def bind (cell : Lstm.Cell) (activation : Lstm.Activation) (descriptor : QueueDescriptor)
    (weights : LstmWeights) (staging : Staging) : Except Fault (LstmWorkload × Staging) := do
  let operands ← LstmOperands.ofHandles descriptor.inputs descriptor.outputs
  let configured ← LstmFunction.configure cell activation weights operands
  let (function, acquired) := NativeFunction.acquire (.lstm configured) staging
  let (_, kept, released) := weights.releaseUnreferenced acquired
  let (prepared, uploaded) ← function.prepare released
  return ({ function := prepared, weights := kept }, uploaded)

/-- Builds the workload of an LSTM layer; a failure leaves nothing staged. -/
def create (descriptor : QueueDescriptor) (info : WorkloadInfo) (staging : Staging) :
    Staging × Except Error LstmWorkload :=
  match descriptor.validate info with
  | .error error => (staging, .error error)
  | .ok _ =>
    match descriptor.kind with
    | .lstm cell params =>
      match Lstm.Activation.ofCode cell.activationCode with
      | .error error => (staging, .error error)
      | .ok activation =>
        match LstmWeights.allocate cell params staging with
        | (after, .error fault) => (after, .error fault.error)
        | (after, .ok weights) =>
          match bind cell activation descriptor weights after with
          | .error fault => (weights.release after, .error fault.error)
          | .ok (workload, bound) => (bound, .ok workload)
    | kind => (staging, .error (.invalidParameter (.notLstm kind.operation)))

/-- The roles whose tensors the workload keeps. -/
def retained (workload : LstmWorkload) : List Lstm.Role := workload.weights.roles

/-- Gives back every staged tensor. -/
def release (workload : LstmWorkload) (device : Device) : Device :=
  { device with staging := workload.weights.release (workload.function.release device.staging) }

def toWorkload (workload : LstmWorkload) : Workload where
  name := "AccelLstmWorkload"
  execute := execute workload.function
  release := workload.release

end LstmWorkload

def create (descriptor : QueueDescriptor) (info : WorkloadInfo) (device : Device) :
    Device × Except Error Workload :=
  match descriptor.kind with
  | .lstm .. =>
    match LstmWorkload.create descriptor info device.staging with
    | (staging, .error error) => ({ device with staging }, .error error)
    | (staging, .ok workload) => ({ device with staging }, .ok workload.toWorkload)
  | _ => (device, buildSingle descriptor info)

def backend : Backend where
  id := Backend.acceleratorId
  supports := supports
  create := create

end NeuralGraph.Accelerator
