import NeuralGraph.Accelerator.Backend

/-! One native function with its operands and weights, each of which can be replaced while the
others stay. What is replaced gives up its references. -/

namespace NeuralGraph.Accelerator

structure Bench where
  device : Device := {}
  inputs : List Operand := []
  outputs : List Operand := []
  weights : Option LstmWeights := none
  function : Option NativeFunction := none

/-- An operand as a caller describes it: caller memory, or a staged tensor that may be filled. -/
structure OperandSource where
  tensor : TensorSource
  staged : Bool := false
deriving Inhabited

namespace Bench

/-- Why a bench does not do what it is asked. -/
inductive Failure where
  | noOperands
  | noWeights
  | noFunction
  | layer (error : Error)
  | native (fault : Fault)

/-- Reads a fault as a failure of the bench. -/
def ofFault {α : Type} : Except Fault α → Except Failure α
  | .ok value => .ok value
  | .error fault => .error (.native fault)

def required {α : Type} (failure : Failure) : Option α → Except Failure α
  | some value => .ok value
  | none => .error failure

def withStaging (bench : Bench) (staging : Staging) : Bench :=
  { bench with device := { bench.device with staging } }

/-- Binds new inputs, and drops the old ones. -/
def setInputs (bench : Bench) (inputs : List Operand) : Bench :=
  { bench.withStaging (Operand.releaseAll bench.inputs bench.device.staging) with inputs }

/-- Binds new outputs, and drops the old ones. -/
def setOutputs (bench : Bench) (outputs : List Operand) : Bench :=
  { bench.withStaging (Operand.releaseAll bench.outputs bench.device.staging) with outputs }

/-- Stages a described tensor. -/
def stage (bench : Bench) (tensor : TensorSource) : Bench × Except Failure Operand :=
  match bench.device.staging.allocate tensor.info.shape with
  | (booked, .error fault) => (bench.withStaging booked, .error (.native (.staging fault)))
  | (allocated, .ok staged) =>
    let written : Except Failure Staging :=
      match tensor.data with
      | .error error => .error (.layer error)
      | .ok data =>
        if tensor.fill.isNone then .ok allocated
        else ofFault (ofStaging (allocated.write staged data))
    match written with
    | .error failure => (bench.withStaging (allocated.release staged), .error failure)
    | .ok written => (bench.withStaging written, .ok (.staged staged))

/-- Uses a described tensor in place. -/
def importTensor (bench : Bench) (tensor : TensorSource) : Bench × Except Failure Operand :=
  match bench.device.host.provide tensor with
  | .error error => (bench, .error (.layer error))
  | .ok (handle, host) =>
    ({ bench with device := { bench.device with host } }, ofFault (Operand.ofHandle handle))

def make (bench : Bench) (source : OperandSource) : Bench × Except Failure Operand :=
  if source.staged then bench.stage source.tensor else bench.importTensor source.tensor

/-- All operands of one side, or none: a failure drops those already made. -/
def makeEach (bench : Bench) :
    List OperandSource → Bench × Except Failure (List Operand)
  | [] => (bench, .ok [])
  | source :: sources =>
    match bench.make source with
    | (made, .error failure) => (made, .error failure)
    | (made, .ok operand) =>
      match made.makeEach sources with
      | (after, .error failure) =>
        (after.withStaging (operand.release after.device.staging), .error failure)
      | (after, .ok operands) => (after, .ok (operand :: operands))

/-- Binds described operands, the inputs first; a side that fails keeps what it had. -/
def bind (bench : Bench) (inputs outputs : List OperandSource) : Bench × Except Failure Unit :=
  match bench.makeEach inputs with
  | (made, .error failure) => (made, .error failure)
  | (made, .ok inputs) =>
    match (made.setInputs inputs).makeEach outputs with
    | (made, .error failure) => (made, .error failure)
    | (made, .ok outputs) => (made.setOutputs outputs, .ok ())

def dropFunction (bench : Bench) : Bench :=
  match bench.function with
  | none => bench
  | some function =>
    { bench.withStaging (function.release bench.device.staging) with function := none }

def dropWeights (bench : Bench) : Bench :=
  match bench.weights with
  | none => bench
  | some weights =>
    { bench.withStaging (weights.release bench.device.staging) with weights := none }

/-- What the capability check says about a kind with a native function; for one input and one
output, the first of each counts. -/
def supports (kind : LayerKind) (inputs outputs : List TensorInfo) : Except Failure Support :=
  match kind, inputs, outputs with
  | .lstm cell params, _, _ => .ok (LstmFunction.validate cell params inputs outputs)
  | .pooling2d pooling, input :: _, output :: _ =>
    .ok (PoolingFunction.validate pooling input output)
  | .activation activation, input :: _, output :: _ =>
    .ok (ElementwiseFunction.validate activation input output)
  | .softmax _, input :: _, output :: _ => .ok (SoftmaxFunction.validate input output)
  | _, _, _ => .error (.layer .outOfBounds)

/-- Uses caller memory for the three inputs and four outputs of a cell. -/
def importCell (bench : Bench) (inputs outputs : List TensorSource) : Except Failure Bench := do
  match bench.device.host.provideAll (inputs ++ outputs) with
  | .error error => throw (.layer error)
  | .ok (handles, host) =>
    let operands ← ofFault
      (LstmOperands.ofHandles (handles.take inputs.length) (handles.drop inputs.length))
    let bound := (bench.setInputs operands.inputs).setOutputs operands.outputs
    return { bound with device := { bound.device with host } }

/-- Stages the weights of a cell; earlier weights are dropped first. -/
def allocateWeights (bench : Bench) (cell : Lstm.Cell) (params : Lstm.Params) :
    Bench × Except Fault LstmWeights :=
  let dropped := bench.dropWeights
  match LstmWeights.allocate cell params dropped.device.staging with
  | (staging, .error fault) => (dropped.withStaging staging, .error fault)
  | (staging, .ok weights) =>
    ({ dropped.withStaging staging with weights := some weights }, .ok weights)

/-- Drops the weights that no function reads, and tells their roles. -/
def releaseUnreferenced (bench : Bench) : Except Failure (List Lstm.Role × Bench) := do
  let weights ← required .noWeights bench.weights
  let (roles, kept, staging) := weights.releaseUnreferenced bench.device.staging
  return (roles, { bench.withStaging staging with weights := some kept })

/-- The function of a kind on the bound operands; the operands are looked at first, then the
weights, then the activation of the cell. -/
def plan (bench : Bench) (kind : LayerKind) : Except Failure Plan := do
  match kind with
  | .lstm cell _ =>
    let operands ← required .noOperands (LstmOperands.ofLists? bench.inputs bench.outputs)
    let weights ← required .noWeights bench.weights
    match Lstm.Activation.ofCode cell.activationCode with
    | .error error => throw (.layer error)
    | .ok activation =>
      return .lstm (← ofFault (LstmFunction.configure cell activation weights operands))
  | kind =>
    match bench.inputs, bench.outputs with
    | [input], [output] => ofFault (planSingle kind input output)
    | _, _ => throw .noOperands

/-- Configures the function of a kind, for a bench without a function. -/
def configure (bench : Bench) (kind : LayerKind) : Except Failure (Plan × Bench) := do
  let plan ← bench.plan kind
  let (function, staging) := NativeFunction.acquire plan bench.device.staging
  return (plan, { bench.withStaging staging with function := some function })

def prepare (bench : Bench) : Except Failure Bench := do
  let function ← required .noFunction bench.function
  let (prepared, staging) ← ofFault (function.prepare bench.device.staging)
  return { bench.withStaging staging with function := some prepared }

/-- Runs the function; what a failed run has written stays. -/
def run (bench : Bench) : Bench × Except Failure Unit :=
  match bench.function with
  | none => (bench, .error .noFunction)
  | some function =>
    let (device, result) := function.run bench.device
    ({ bench with device }, ofFault result)

def readOutputs (bench : Bench) : Except Failure (List (Array Float32)) :=
  ofFault (bench.outputs.mapM fun output => output.read bench.device)

/-- Copies the output at a position over the input at the same position. -/
def feedBack (bench : Bench) (index : Nat) : Except Failure Bench := do
  let source ← required (.layer .outOfBounds) bench.outputs[index]?
  let target ← required (.layer .outOfBounds) bench.inputs[index]?
  let data ← ofFault (source.read bench.device)
  return { bench with device := ← ofFault (target.write bench.device data) }

end Bench

end NeuralGraph.Accelerator
