import NeuralGraph.Tensor.Constant

/-! Fully connected layers: parameters and the shape of the result. -/

namespace NeuralGraph

structure Dense where
  biasEnabled : Bool := false
  /-- Weights are `[outputs, inputs]` instead of `[inputs, outputs]`. -/
  transposed : Bool := false
deriving DecidableEq, Inhabited

namespace Dense

/-- The product of extents from left to right, if every partial product fits. -/
def flatten? (extents : List Extent) : Option Extent :=
  extents.foldlM (fun product extent => Extent.ofNat? (product.toNat * extent.toNat)) 1

/-- A bias has one value for each output. -/
def checkBias (bias : Option Constant) (outputs : Extent) : Except ShapeError Unit :=
  match bias with
  | none => .ok ()
  | some bias =>
    if bias.shape = ⟨[outputs]⟩ then .ok ()
    else .error (.mismatch (.denseBias bias.shape outputs))

/-- The numbers of inputs and outputs that the two extents of a weight matrix stand for. -/
def sides (dense : Dense) (rows columns : Extent) : Extent × Extent :=
  if dense.transposed then (columns, rows) else (rows, columns)

/-- Each batch row is flattened and mapped to one row of outputs. -/
def inferShape (dense : Dense) (weights : Constant) (bias : Option Constant) (input : Shape) :
    Except ShapeError Shape :=
  match input.extents with
  | batch :: first :: rest =>
    match weights.shape.extents with
    | [rows, columns] =>
      match flatten? (first :: rest) with
      | none => .error (.invalidConfiguration (.flattenedOverflow input))
      | some flattened =>
        let (inputs, outputs) := dense.sides rows columns
        if inputs ≠ flattened then
          .error (.mismatch (.denseInputs weights.shape inputs input flattened))
        else do
          checkBias bias outputs
          return ⟨[batch, outputs]⟩
    | _ => .error (.mismatch (.denseWeights weights.shape))
  | _ => .error (.rank 2 input.rank)

end Dense

end NeuralGraph
