import NeuralGraph.Layer.Lstm.Params

/-! The output shapes of an LSTM cell. Its inputs are the input, the previous output and the
previous cell state; its outputs are the scratch buffer, the new output state, the new cell
state and the output. -/

namespace NeuralGraph.Lstm

/-- Reads the faults of the constants as a mismatch of shapes. -/
def asMismatch {α : Type} (result : Except Fault α) : Except ShapeError α :=
  match result with
  | .ok value => .ok value
  | .error fault => .error (.mismatch (.cell fault))

/-- The first input that is not a matrix fails inference. -/
def checkRanks (inputs : List Shape) : Except ShapeError Unit :=
  match inputs.find? (·.rank ≠ 2) with
  | none => .ok ()
  | some input => .error (.rank 2 input.rank)

/-- The shapes for matrices with the given extents: the batch of each input, then its width. -/
def inferMatrices (cell : Cell) (params : Params)
    (batch inputSize outputBatch outputSize cellBatch units : Extent) :
    Except ShapeError (List Shape) := do
  if outputBatch ≠ batch ∨ cellBatch ≠ batch then
    throw (.mismatch (.stateBatch ⟨[outputBatch, outputSize]⟩ ⟨[cellBatch, units]⟩ batch))
  let dims ← asMismatch params.dims
  if dims.units ≠ units then
    throw (.mismatch (.cellUnits units dims.units))
  if dims.inputSize ≠ inputSize ∨ dims.outputSize ≠ outputSize then
    throw (.mismatch (.cellSizes dims.inputSize dims.outputSize inputSize outputSize))
  asMismatch (params.checkShapes dims)
  if !cell.projection && outputSize ≠ units then
    throw (.mismatch (.cell (.unprojectedWidth outputSize units)))
  match Extent.ofNat? (units.toNat * cell.gates) with
  | none => throw (.invalidConfiguration (.scratchOverflow units cell.gates))
  | some scratch =>
    return [⟨[batch, scratch]⟩, ⟨[batch, outputSize]⟩, ⟨[batch, units]⟩, ⟨[batch, outputSize]⟩]

def inferShapes (cell : Cell) (params : Params) (inputs : List Shape) :
    Except ShapeError (List Shape) := do
  checkRanks inputs
  match inputs with
  | [⟨[batch, inputSize]⟩, ⟨[outputBatch, outputSize]⟩, ⟨[cellBatch, units]⟩] =>
    inferMatrices cell params batch inputSize outputBatch outputSize cellBatch units
  | _ => throw (.inputCount 3 inputs.length)

end NeuralGraph.Lstm
