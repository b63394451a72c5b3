import NeuralGraph.Layer.Lstm.Params
import NeuralGraph.Reference.Elementwise

/-! Reference kernel for one step of an LSTM cell. -/

namespace NeuralGraph.Reference

open Lstm (Gate Params Role Dims)

/-- What a step gives. The scratch buffer holds the activated gates of each batch row: the input
gate unless it is coupled, the cell, the forget gate and the output gate. -/
structure LstmOutputs where
  scratch : Array Float32
  outputState : Array Float32
  cellState : Array Float32
  output : Array Float32

/-- Adds to each entry the product of its matrix row with `x`. -/
def addProduct (values : List Float32) (matrix : Constant) (x : List Float32) : List Float32 :=
  values.mapIdx fun index value => value + Scalar.dot (row matrix.data x.length index) x

/-- Adds to each entry the product of its weight with a cell state. -/
def addPeephole (values : List Float32) (weights : Constant) (state : List Float32) :
    List Float32 :=
  List.zipWith (· + ·) values (List.zipWith (· * ·) weights.data.toList state)

/-- The bias of a gate, plus its weights times the input, plus its weights times the previous
output. -/
def preActivation (gate : Gate) (x h : List Float32) : List Float32 :=
  addProduct (addProduct gate.bias.data.toList gate.inputWeights x) gate.recurrentWeights h

/-- The constants that a step reads besides the three gates every cell has. -/
structure LstmExtras where
  inputGate : Option Gate
  peephole : Option (Constant × Constant)
  projection : Option Constant

/-- A constant that the cell cannot do without. -/
def requireRole (params : Params) (role : Role) : Except Error Constant :=
  match params.get? role with
  | some constant => .ok constant
  | none => .error (Fault.cellParameter role).error

/-- Looks up what the flags of the cell enable. -/
def lstmExtras (cell : Lstm.Cell) (params : Params) : Except Error LstmExtras := do
  let inputGate ←
    if cell.coupled then pure none
    else do
      let inputWeights ← requireRole params .inputToInputWeights
      let recurrentWeights ← requireRole params .recurrentToInputWeights
      let bias ← requireRole params .inputGateBias
      pure (some { inputWeights, recurrentWeights, bias })
  let peephole ←
    if cell.peephole then do
      let toForget ← requireRole params .cellToForgetWeights
      let toOutput ← requireRole params .cellToOutputWeights
      pure (some (toForget, toOutput))
    else pure none
  let projection ←
    if cell.projection then do pure (some (← requireRole params .projectionWeights))
    else pure none
  return { inputGate, peephole, projection }

/-- The gates and states of one batch row. -/
structure LstmRow where
  scratch : List Float32
  cellState : List Float32
  output : List Float32

/-- The activated input gate; without constants of its own it is one minus the forget gate. -/
def inputGateValues (cell : Lstm.Cell) (params : Params) (gate : Option Gate)
    (forget x h state : List Float32) : List Float32 :=
  match gate with
  | none => forget.map (1 - ·)
  | some gate =>
    let values := preActivation gate x h
    let peeped :=
      match cell.peephole, params.cellToInputWeights with
      | true, some weights => addPeephole values weights state
      | _, _ => values
    peeped.map Scalar.sigmoid

/-- The output of a row: the hidden values, projected and clipped where there is a projection. -/
def projectRow (cell : Lstm.Cell) (params : Params) (projection : Option Constant)
    (outputSize : Nat) (hidden : List Float32) : List Float32 :=
  match projection with
  | none => hidden
  | some weights =>
    let start :=
      match params.projectionBias with
      | some bias => bias.data.toList
      | none => List.replicate outputSize 0
    (addProduct start weights hidden).map (Scalar.clip cell.projectionClip)

/-- One batch row: input `x`, previous output `h`, previous cell state `state`. -/
def lstmRow (cell : Lstm.Cell) (params : Params) (extras : LstmExtras)
    (activation : Lstm.Activation) (outputSize : Nat) (x h state : List Float32) : LstmRow :=
  let forgetSum := preActivation params.forget x h
  let forgetPeeped :=
    match extras.peephole with
    | some (toForget, _) => addPeephole forgetSum toForget state
    | none => forgetSum
  let forget := forgetPeeped.map Scalar.sigmoid
  let candidate := (preActivation params.cell x h).map activation.apply
  let input := inputGateValues cell params extras.inputGate forget x h state
  let kept := List.zipWith (· * ·) forget state
  let added := List.zipWith (· * ·) input candidate
  let cellState := (List.zipWith (· + ·) kept added).map (Scalar.clip cell.cellClip)
  let outputSum := preActivation params.output x h
  let outputPeeped :=
    match extras.peephole with
    | some (_, toOutput) => addPeephole outputSum toOutput cellState
    | none => outputSum
  let outputGate := outputPeeped.map Scalar.sigmoid
  let hidden := List.zipWith (fun gate value => gate * activation.apply value) outputGate cellState
  { scratch := (if cell.coupled then [] else input) ++ candidate ++ forget ++ outputGate
    cellState
    output := projectRow cell params extras.projection outputSize hidden }

/-- An operand is a matrix of the given extents and holds all of its values. -/
def checkOperand (operand : View) (batch width : Extent) : Except Error Unit :=
  if operand.shape = ⟨[batch, width]⟩ ∧ operand.data.size = operand.shape.elementCount then
    .ok ()
  else .error (Fault.cellOperand operand.shape batch width).error

/-- Reads a fault of the constants as a fault of the kernel. -/
def liftFault {α : Type} (result : Except Lstm.Fault α) : Except Error α :=
  match result with
  | .ok value => .ok value
  | .error fault => .error (Fault.cell fault).error

/-- How many values each result of a step has for a batch: the scratch buffer, the output state, the
cell state and the output. -/
def bufferSizes (cell : Lstm.Cell) (dims : Dims) (batch : Nat) : List Nat :=
  [batch * dims.units.toNat * cell.gates, batch * dims.outputSize.toNat, batch * dims.units.toNat,
    batch * dims.outputSize.toNat]

/-- One step for every batch row. The results are allocated before the first row; a row has no room
for gates of zero units, and without a projection the output has the width of the hidden values. -/
def lstm (cell : Lstm.Cell) (params : Params) (activation : Lstm.Activation)
    (input outputState cellState : View) : Except Error LstmOutputs := do
  let dims ← liftFault params.dims
  liftFault (params.checkShapes dims)
  let batch := (input.shape.dim? 0).getD 0
  checkOperand input batch dims.inputSize
  checkOperand outputState batch dims.outputSize
  checkOperand cellState batch dims.units
  let extras ← lstmExtras cell params
  if (bufferSizes cell dims batch.toNat).any fun count => !Capacity.fitsBuffer count then
    throw .outOfBounds
  if batch ≠ 0 ∧ (dims.units = 0 ∨ (extras.projection.isNone ∧ dims.outputSize ≠ dims.units)) then
    throw .outOfBounds
  let rows := (List.range batch.toNat).map fun index =>
    lstmRow cell params extras activation dims.outputSize.toNat
      (row input.data dims.inputSize.toNat index)
      (row outputState.data dims.outputSize.toNat index)
      (row cellState.data dims.units.toNat index)
  let output := (rows.flatMap (·.output)).toArray
  return {
    scratch := (rows.flatMap (·.scratch)).toArray
    outputState := output
    cellState := (rows.flatMap (·.cellState)).toArray
    output }

end NeuralGraph.Reference
