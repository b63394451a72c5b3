import NeuralGraph.Accelerator.Operand
import NeuralGraph.Layer.Lstm.Params

/-! The native function for LSTM cells. Constants of the groups that a cell enables get staged
tensors; a configured function refers to those it reads, and the others can be released before
anything is uploaded. -/

namespace NeuralGraph.Accelerator

open Lstm (Role Params Dims)

/-- A staged tensor with the constant that it receives. -/
structure StagedConstant where
  tensor : StagedRef
  source : Constant

/-- A required constant with its role. -/
def planned (params : Params) (roles : List Role) : List (Role × Constant) :=
  roles.filterMap fun role => (params.get? role).map fun constant => (role, constant)

/-- The roles that the flags of a cell enable. -/
def enabledRoles (cell : Lstm.Cell) : List Role :=
  Role.basic ++
    (if cell.coupled then []
     else [.inputToInputWeights, .recurrentToInputWeights, .inputGateBias, .cellToInputWeights]) ++
    (if cell.projection then [.projectionWeights, .projectionBias] else []) ++
    (if cell.peephole then [.cellToForgetWeights, .cellToOutputWeights] else [])

/-- The constants to stage, once the parameters have been checked against the cell. -/
def stagingPlan (cell : Lstm.Cell) (params : Params) :
    Except Lstm.Fault (List (Role × Constant) × Dims) := do
  params.checkGroups cell
  let dims ← params.dims
  params.checkShapes dims
  if !cell.projection && dims.outputSize ≠ dims.units then
    throw (.unprojectedWidth dims.outputSize dims.units)
  return (planned params (enabledRoles cell), dims)

/-- The product of two extents; a product that does not fit is cut to the largest extent. -/
def saturatingProduct (extent : Extent) (factor : Nat) : Extent :=
  (Extent.ofNat? (extent.toNat * factor)).getD (UInt32.ofNat (UInt32.size - 1))

/-- The shapes of inputs and outputs for a batch. -/
def tensorShapes (dims : Dims) (gates : Nat) (batch : Extent) : List Shape × List Shape :=
  ([⟨[batch, dims.inputSize]⟩, ⟨[batch, dims.outputSize]⟩, ⟨[batch, dims.units]⟩],
   [⟨[batch, saturatingProduct dims.units gates]⟩, ⟨[batch, dims.outputSize]⟩,
    ⟨[batch, dims.units]⟩, ⟨[batch, dims.outputSize]⟩])

/-- The first shape that is not the expected one. -/
def checkEach : List Shape → List Shape → Except Lstm.Fault Unit
  | actual :: shapes, expected :: wanted =>
    if actual = expected then checkEach shapes wanted
    else .error (.tensorShape actual expected)
  | _, _ => .ok ()

/-- The batch is read off the first input; all other shapes follow from it. -/
def checkTensors (dims : Dims) (gates : Nat) (inputs outputs : List Shape) :
    Except Lstm.Fault Unit :=
  match inputs with
  | [] => .ok ()
  | input :: _ =>
    match input.extents with
    | [batch, _] =>
      let (wantedInputs, wantedOutputs) := tensorShapes dims gates batch
      checkEach (inputs ++ outputs) (wantedInputs ++ wantedOutputs)
    | _ => .error (.inputRank input)

/-- The staged constants of a cell, with its sizes. -/
structure LstmWeights where
  dims : Dims
  staged : List (Role × StagedConstant)

namespace LstmWeights

/-- Allocates a tensor for each constant, or none at all. -/
def allocateEach : List (Role × Constant) → Staging →
    Staging × Except Fault (List (Role × StagedConstant))
  | [], staging => (staging, .ok [])
  | (role, source) :: plan, staging =>
    match staging.allocate source.shape with
    | (booked, .error fault) => (booked, .error (.staging fault))
    | (allocated, .ok tensor) =>
      match allocateEach plan allocated with
      | (rest, .error fault) => (rest.release tensor, .error fault)
      | (rest, .ok staged) => (rest, .ok ((role, { tensor, source }) :: staged))

/-- Stages every constant that the cell enables. -/
def allocate (cell : Lstm.Cell) (params : Params) (staging : Staging) :
    Staging × Except Fault LstmWeights :=
  match stagingPlan cell params with
  | .error fault => (staging, .error (.invalidConfiguration (.cell fault)))
  | .ok (plan, dims) =>
    match allocateEach plan staging with
    | (after, .error fault) => (after, .error fault)
    | (after, .ok staged) => (after, .ok { dims, staged })

def find? (weights : LstmWeights) (role : Role) : Option StagedConstant :=
  weights.staged.lookup role

def require (weights : LstmWeights) (role : Role) : Except Fault StagedConstant :=
  match weights.find? role with
  | some constant => .ok constant
  | none => .error (.invalidConfiguration (.notStaged role))

/-- The roles that are staged. -/
def roles (weights : LstmWeights) : List Role := weights.staged.map (·.1)

/-- Whether something else refers to a staged constant. -/
def isReferenced (staging : Staging) (entry : Role × StagedConstant) : Bool :=
  1 < staging.references entry.2.tensor

/-- Drops what nothing else refers to, and tells which roles it dropped. -/
def releaseUnreferenced (weights : LstmWeights) (staging : Staging) :
    List Role × LstmWeights × Staging :=
  let dropped := weights.staged.filter fun entry => !isReferenced staging entry
  (dropped.map (·.1),
   { weights with staged := weights.staged.filter (isReferenced staging) },
   dropped.foldl (fun staging entry => staging.release entry.2.tensor) staging)

/-- Drops every staged constant. -/
def release (weights : LstmWeights) (staging : Staging) : Staging :=
  weights.staged.foldl (fun staging entry => staging.release entry.2.tensor) staging

end LstmWeights

structure LstmOperands where
  input : Operand
  outputStateIn : Operand
  cellStateIn : Operand
  scratch : Operand
  outputStateOut : Operand
  cellStateOut : Operand
  output : Operand

namespace LstmOperands

/-- Names three inputs and four outputs by their parts. -/
def ofLists? : List Operand → List Operand → Option LstmOperands
  | [input, outputStateIn, cellStateIn], [scratch, outputStateOut, cellStateOut, output] =>
    some { input, outputStateIn, cellStateIn, scratch, outputStateOut, cellStateOut, output }
  | _, _ => none

/-- Uses caller memory in place, for three inputs and four outputs. -/
def ofHandles (inputs outputs : List Handle) : Except Fault LstmOperands := do
  if inputs.length ≠ 3 then
    throw (.invalidConfiguration (.cellInputs inputs.length))
  if outputs.length ≠ 4 then
    throw (.invalidConfiguration (.cellOutputs outputs.length))
  let imports ← inputs.mapM Operand.ofHandle
  let exports ← outputs.mapM Operand.ofHandle
  match ofLists? imports exports with
  | some operands => return operands
  | none => throw (.invalidConfiguration (.cellInputs inputs.length))

def inputs (operands : LstmOperands) : List Operand :=
  [operands.input, operands.outputStateIn, operands.cellStateIn]

def outputs (operands : LstmOperands) : List Operand :=
  [operands.scratch, operands.outputStateOut, operands.cellStateOut, operands.output]

def toList (operands : LstmOperands) : List Operand := operands.inputs ++ operands.outputs

end LstmOperands

structure StagedGate where
  inputWeights : StagedConstant
  recurrentWeights : StagedConstant
  bias : StagedConstant
  peephole : Option StagedConstant

def StagedGate.constants (gate : StagedGate) : List StagedConstant :=
  [gate.inputWeights, gate.recurrentWeights, gate.bias] ++ gate.peephole.toList

structure StagedProjection where
  weights : StagedConstant
  bias : Option StagedConstant

def StagedProjection.constants (projection : StagedProjection) : List StagedConstant :=
  projection.weights :: projection.bias.toList

structure LstmFunction where
  cell : Lstm.Cell
  activation : Lstm.Activation
  dims : Dims
  operands : LstmOperands
  inputGate : Option StagedGate
  forgetGate : StagedGate
  cellGate : StagedGate
  outputGate : StagedGate
  projection : Option StagedProjection

namespace LstmFunction

def validate (cell : Lstm.Cell) (params : Params) (inputs outputs : List TensorInfo) : Support :=
  match Lstm.Activation.ofCode cell.activationCode with
  | .error error => .unsupported error.message
  | .ok _ =>
    let checked : Except Lstm.Fault Unit := do
      let (_, dims) ← stagingPlan cell params
      if inputs.length ≠ 3 ∨ outputs.length ≠ 4 then
        throw (.tensorCount inputs.length outputs.length)
      checkTensors dims cell.gates (inputs.map (·.shape)) (outputs.map (·.shape))
    match checked with
    | .ok _ => .supported
    | .error fault => .unsupported fault.message

/-- The staged constants of a gate that has weights, a bias and perhaps a peephole. -/
def takeGate (weights : LstmWeights) (input recurrent bias : Role) (peephole : Option Role) :
    Except Fault StagedGate := do
  let inputWeights ← weights.require input
  let recurrentWeights ← weights.require recurrent
  let bias ← weights.require bias
  let peephole ←
    match peephole with
    | none => pure none
    | some role => do pure (some (← weights.require role))
  return { inputWeights, recurrentWeights, bias, peephole }

/-- Binds operands and the staged constants that the cell reads. -/
def configure (cell : Lstm.Cell) (activation : Lstm.Activation) (weights : LstmWeights)
    (operands : LstmOperands) : Except Fault LstmFunction := do
  let dims := weights.dims
  match checkTensors dims cell.gates (operands.inputs.map (·.shape))
      (operands.outputs.map (·.shape)) with
  | .error fault => throw (.invalidConfiguration (.cell fault))
  | .ok _ => pure ()
  let forgetGate ← takeGate weights .inputToForgetWeights .recurrentToForgetWeights
    .forgetGateBias (if cell.peephole then some .cellToForgetWeights else none)
  let cellGate ← takeGate weights .inputToCellWeights .recurrentToCellWeights .cellBias none
  let outputGate ← takeGate weights .inputToOutputWeights .recurrentToOutputWeights
    .outputGateBias (if cell.peephole then some .cellToOutputWeights else none)
  let inputGate ←
    if cell.coupled then pure none
    else do
      let peephole := if cell.peephole then weights.find? .cellToInputWeights else none
      let gate ← takeGate weights .inputToInputWeights .recurrentToInputWeights .inputGateBias none
      pure (some { gate with peephole })
  let projection ←
    if cell.projection then do
      pure (some { weights := ← weights.require .projectionWeights
                   bias := weights.find? .projectionBias })
    else pure none
  return { cell, activation, dims, operands, inputGate, forgetGate, cellGate, outputGate,
           projection }

/-- The staged constants that the function reads. -/
def constants (function : LstmFunction) : List StagedConstant :=
  function.forgetGate.constants ++ function.cellGate.constants ++
    function.outputGate.constants ++ function.inputGate.toList.flatMap StagedGate.constants ++
    function.projection.toList.flatMap StagedProjection.constants

/-- Writes each constant into its staged tensor. -/
def uploadEach : List StagedConstant → Staging → Except Fault Staging
  | [], staging => .ok staging
  | constant :: rest, staging => do
    let uploaded ← ofStaging (staging.upload constant.tensor constant.source.data)
    uploadEach rest uploaded

/-- The rows of a matrix with as many columns as there are values in `x`. -/
def matrixRows (columns : Nat) : Nat → List Float32 → List (List Float32)
  | 0, _ => []
  | rows + 1, values => values.take columns :: matrixRows columns rows (values.drop columns)

/-- Adds to each entry the product of its matrix row with `x`. -/
def accumulateRows (values : List Float32) (matrix : Array Float32) (x : List Float32) :
    List Float32 :=
  List.zipWith (fun value row => value + Scalar.dot row x) values
    (matrixRows x.length (matrix.size / x.length) matrix.toList)

/-- The weighted sum of a gate, before its activation. -/
def gateSum (staging : Staging) (gate : StagedGate) (x h state : List Float32) : List Float32 :=
  let bias := (staging.read gate.bias.tensor).toList
  let withInput := accumulateRows bias (staging.read gate.inputWeights.tensor) x
  let withOutput := accumulateRows withInput (staging.read gate.recurrentWeights.tensor) h
  match gate.peephole with
  | none => withOutput
  | some peephole =>
    List.zipWith (fun value term => value + term) withOutput
      (List.zipWith (· * ·) (staging.read peephole.tensor).toList state)

/-- What one batch row adds to the four outputs. -/
structure Row where
  scratch : List Float32
  state : List Float32
  hidden : List Float32

/-- The output of a row: the hidden values, projected and clipped where there is a projection. -/
def project (function : LstmFunction) (staging : Staging) (hidden : List Float32) :
    List Float32 :=
  match function.projection with
  | none => hidden
  | some projection =>
    let bias :=
      match projection.bias with
      | none => List.replicate function.dims.outputSize.toNat 0
      | some bias => (staging.read bias.tensor).toList
    (accumulateRows bias (staging.read projection.weights.tensor) hidden).map
      (Scalar.clip function.cell.projectionClip)

/-- One batch row: input `x`, previous output `h`, previous cell state `state`. -/
def runRow (function : LstmFunction) (staging : Staging) (x h state : List Float32) : Row :=
  let forget := (gateSum staging function.forgetGate x h state).map Scalar.sigmoid
  let candidate := (gateSum staging function.cellGate x h state).map function.activation.apply
  let input :=
    match function.inputGate with
    | some gate => (gateSum staging gate x h state).map Scalar.sigmoid
    | none => forget.map (1 - ·)
  let kept := List.zipWith (· * ·) forget state
  let added := List.zipWith (· * ·) input candidate
  let next := (List.zipWith (· + ·) kept added).map (Scalar.clip function.cell.cellClip)
  let output := (gateSum staging function.outputGate x h next).map Scalar.sigmoid
  let hidden := List.zipWith (fun gate value => gate * function.activation.apply value) output next
  { scratch := (if function.inputGate.isSome then input else []) ++ candidate ++ forget ++ output
    state := next
    hidden := function.project staging hidden }

/-- The values of row `index` in rows of `width`. -/
def rowOf (data : Array Float32) (width index : Nat) : List Float32 :=
  (data.extract (index * width) ((index + 1) * width)).toList

/-- Every row of a batch. -/
def runRows (function : LstmFunction) (device : Device) : Except Fault (List Row) := do
  let x ← function.operands.input.read device
  let h ← function.operands.outputStateIn.read device
  let state ← function.operands.cellStateIn.read device
  let width := function.dims.inputSize.toNat
  return (List.range (x.size / width)).map fun index =>
    function.runRow device.staging (rowOf x width index)
      (rowOf h function.dims.outputSize.toNat index)
      (rowOf state function.dims.units.toNat index)

/-- Writes operands one after the other, up to the first that does not fit. -/
def writeEach : List (Operand × Array Float32) → Device → Device × Except Fault Unit
  | [], device => (device, .ok ())
  | (operand, data) :: rest, device =>
    match operand.write device data with
    | .error fault => (device, .error fault)
    | .ok written => writeEach rest written

def run (function : LstmFunction) (device : Device) : Device × Except Fault Unit :=
  match function.runRows device with
  | .error fault => (device, .error fault)
  | .ok rows =>
    let hidden := (rows.flatMap (·.hidden)).toArray
    writeEach
      [(function.operands.scratch, (rows.flatMap (·.scratch)).toArray),
       (function.operands.cellStateOut, (rows.flatMap (·.state)).toArray),
       (function.operands.outputStateOut, hidden),
       (function.operands.output, hidden)] device

end LstmFunction

end NeuralGraph.Accelerator
