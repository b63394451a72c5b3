import NeuralGraph.Layer.Lstm.Cell
import NeuralGraph.Tensor.Constant

/-! Weights and biases of an LSTM cell, and the shapes they must have. -/

namespace NeuralGraph.Lstm

/-- The constants that every gate reads. -/
structure Gate where
  inputWeights : Constant
  recurrentWeights : Constant
  bias : Constant
deriving BEq

/-- The constants of a cell. What a cell leaves out is `none`. -/
structure Params where
  forget : Gate
  cell : Gate
  output : Gate
  inputToInputWeights : Option Constant := none
  recurrentToInputWeights : Option Constant := none
  cellToInputWeights : Option Constant := none
  inputGateBias : Option Constant := none
  projectionWeights : Option Constant := none
  projectionBias : Option Constant := none
  cellToForgetWeights : Option Constant := none
  cellToOutputWeights : Option Constant := none
deriving BEq

/-- The three sizes that fix every shape of a cell. -/
structure Dims where
  units : Extent
  inputSize : Extent
  outputSize : Extent
deriving DecidableEq

/-- The shape that a constant must have in a cell of these sizes. -/
def Dims.expected (dims : Dims) : Role → Shape
  | .inputToInputWeights | .inputToForgetWeights | .inputToCellWeights
  | .inputToOutputWeights => ⟨[dims.units, dims.inputSize]⟩
  | .recurrentToInputWeights | .recurrentToForgetWeights | .recurrentToCellWeights
  | .recurrentToOutputWeights => ⟨[dims.units, dims.outputSize]⟩
  | .cellToInputWeights | .cellToForgetWeights | .cellToOutputWeights
  | .inputGateBias | .forgetGateBias | .cellBias | .outputGateBias => ⟨[dims.units]⟩
  | .projectionWeights => ⟨[dims.outputSize, dims.units]⟩
  | .projectionBias => ⟨[dims.outputSize]⟩

/-- The expected shape of every role. -/
def Dims.expectedShapes (dims : Dims) : List (Role × Shape) :=
  Role.byOperand.map fun role => (role, dims.expected role)

namespace Params

/-- The constant that plays a role, if the cell has one. -/
def get? (params : Params) : Role → Option Constant
  | .inputToInputWeights => params.inputToInputWeights
  | .inputToForgetWeights => some params.forget.inputWeights
  | .inputToCellWeights => some params.cell.inputWeights
  | .inputToOutputWeights => some params.output.inputWeights
  | .recurrentToInputWeights => params.recurrentToInputWeights
  | .recurrentToForgetWeights => some params.forget.recurrentWeights
  | .recurrentToCellWeights => some params.cell.recurrentWeights
  | .recurrentToOutputWeights => some params.output.recurrentWeights
  | .cellToInputWeights => params.cellToInputWeights
  | .cellToForgetWeights => params.cellToForgetWeights
  | .cellToOutputWeights => params.cellToOutputWeights
  | .inputGateBias => params.inputGateBias
  | .forgetGateBias => some params.forget.bias
  | .cellBias => some params.cell.bias
  | .outputGateBias => some params.output.bias
  | .projectionWeights => params.projectionWeights
  | .projectionBias => params.projectionBias

/-- Gives a role to a constant, in place of the one that played it. -/
def set (params : Params) (role : Role) (constant : Constant) : Params :=
  match role with
  | .inputToInputWeights => { params with inputToInputWeights := some constant }
  | .inputToForgetWeights =>
    { params with forget := { params.forget with inputWeights := constant } }
  | .inputToCellWeights => { params with cell := { params.cell with inputWeights := constant } }
  | .inputToOutputWeights =>
    { params with output := { params.output with inputWeights := constant } }
  | .recurrentToInputWeights => { params with recurrentToInputWeights := some constant }
  | .recurrentToForgetWeights =>
    { params with forget := { params.forget with recurrentWeights := constant } }
  | .recurrentToCellWeights =>
    { params with cell := { params.cell with recurrentWeights := constant } }
  | .recurrentToOutputWeights =>
    { params with output := { params.output with recurrentWeights := constant } }
  | .cellToInputWeights => { params with cellToInputWeights := some constant }
  | .cellToForgetWeights => { params with cellToForgetWeights := some constant }
  | .cellToOutputWeights => { params with cellToOutputWeights := some constant }
  | .inputGateBias => { params with inputGateBias := some constant }
  | .forgetGateBias => { params with forget := { params.forget with bias := constant } }
  | .cellBias => { params with cell := { params.cell with bias := constant } }
  | .outputGateBias => { params with output := { params.output with bias := constant } }
  | .projectionWeights => { params with projectionWeights := some constant }
  | .projectionBias => { params with projectionBias := some constant }

/-- Leaves an optional role empty; a basic role keeps its constant. -/
def clear (params : Params) : Role → Params
  | .inputToInputWeights => { params with inputToInputWeights := none }
  | .recurrentToInputWeights => { params with recurrentToInputWeights := none }
  | .cellToInputWeights => { params with cellToInputWeights := none }
  | .cellToForgetWeights => { params with cellToForgetWeights := none }
  | .cellToOutputWeights => { params with cellToOutputWeights := none }
  | .inputGateBias => { params with inputGateBias := none }
  | .projectionWeights => { params with projectionWeights := none }
  | .projectionBias => { params with projectionBias := none }
  | _ => params

/-- The constants a cell has, with their roles, the basic ones first. -/
def tensors (params : Params) : List (Role × Constant) :=
  Role.all.filterMap fun role => (params.get? role).map fun constant => (role, constant)

/-- The number of units, read off the forget gate bias. -/
def units? (params : Params) : Option Extent := params.forget.bias.shape.dim? 0

/-- The sizes that the constants of the forget gate imply. -/
def dims (params : Params) : Except Fault Dims := do
  let units ← match params.units? with
    | some units => .ok units
    | none => .error (.unitsUnknown params.forget.bias.shape)
  let inputSize ← match params.forget.inputWeights.shape.dim? 1 with
    | some inputSize => .ok inputSize
    | none => .error (.inputSizeUnknown params.forget.inputWeights.shape)
  let outputSize ← match params.forget.recurrentWeights.shape.dim? 1 with
    | some outputSize => .ok outputSize
    | none => .error (.outputSizeUnknown params.forget.recurrentWeights.shape)
  return { units, inputSize, outputSize }

/-- Reports the first constant whose shape is not the expected one. -/
def checkShapes (params : Params) (dims : Dims) : Except Fault Unit :=
  match params.tensors.find? fun entry => entry.2.shape ≠ dims.expected entry.1 with
  | none => .ok ()
  | some (role, constant) =>
    .error (.wrongShape role constant.shape (dims.expected role))

/-- The first role of the input gate that a cell without coupling leaves empty. -/
def missingInputGate? (params : Params) : Option Role :=
  [Role.inputToInputWeights, .recurrentToInputWeights, .inputGateBias].find? fun role =>
    (params.get? role).isNone

/-- Every group of constants that the cell enables must be there. -/
def checkGroups (params : Params) (cell : Cell) : Except Fault Unit := do
  if !cell.coupled then
    if let some role := params.missingInputGate? then
      throw (.inputGateMissing role)
  if cell.projection && params.projectionWeights.isNone then
    throw .projectionMissing
  if cell.peephole &&
      (params.cellToForgetWeights.isNone || params.cellToOutputWeights.isNone) then
    throw .peepholeMissing

/-- A gate that holds one value throughout, in three consecutive storages. -/
def filledGate (storage : StorageId) (units inputSize outputSize : Extent)
    (value : Float32) : Except Error Gate := do
  return {
    inputWeights := ← Constant.filled storage [units, inputSize] value
    recurrentWeights := ← Constant.filled (storage + 1) [units, outputSize] value
    bias := ← Constant.filled (storage + 2) [units] value }

/-- The constants of a coupled cell without peephole and projection, all holding one value.
They take nine storages, from the given one on. -/
def basic (storage : StorageId) (inputSize units outputSize : Extent) (value : Float32) :
    Except Error Params := do
  return {
    forget := ← filledGate storage units inputSize outputSize value
    cell := ← filledGate (storage + 3) units inputSize outputSize value
    output := ← filledGate (storage + 6) units inputSize outputSize value }

/-- Adds the constants of an input gate of its own, in three storages. -/
def withInputGate (params : Params) (storage : StorageId) (inputSize outputSize : Extent)
    (value : Float32) : Except Error Params := do
  let gate ← filledGate storage (params.units?.getD 0) inputSize outputSize value
  return { params with
    inputToInputWeights := some gate.inputWeights
    recurrentToInputWeights := some gate.recurrentWeights
    inputGateBias := some gate.bias }

/-- Adds peephole weights, in three storages; the input gate gets its own only when it has
input weights. -/
def withPeephole (params : Params) (storage : StorageId) (value : Float32) :
    Except Error Params := do
  let units := params.units?.getD 0
  let toInput ← Constant.filled (storage + 2) [units] value
  return { params with
    cellToForgetWeights := some (← Constant.filled storage [units] value)
    cellToOutputWeights := some (← Constant.filled (storage + 1) [units] value)
    cellToInputWeights :=
      if params.inputToInputWeights.isSome then some toInput else params.cellToInputWeights }

/-- Sets the projection, in two storages, with or without a bias. -/
def withProjection (params : Params) (storage : StorageId) (outputSize : Extent)
    (value : Float32) (bias : Bool) : Except Error Params := do
  let projectionWeights ← Constant.filled storage [outputSize, params.units?.getD 0] value
  let projectionBias ←
    if bias then some <$> Constant.filled (storage + 1) [outputSize] value else pure none
  return { params with projectionWeights := some projectionWeights, projectionBias }

end Params

end NeuralGraph.Lstm
