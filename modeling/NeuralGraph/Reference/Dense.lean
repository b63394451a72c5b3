import NeuralGraph.Layer.Dense
import NeuralGraph.Reference.Fault
import NeuralGraph.Reference.View

/-! Reference kernel for fully connected layers. -/

namespace NeuralGraph.Reference

/-- The position of the weight from input `input` to output `output`. -/
def weightIndex (dense : Dense) (inputs outputs input output : Nat) : Nat :=
  if dense.transposed then output * inputs + input else input * outputs + output

/-- Whether there is a bias for each output, or none at all. -/
def hasBiases (bias : Option Constant) (outputs : Nat) : Bool :=
  bias.all fun bias => outputs ≤ bias.data.size

/-- The bias of an output; without a bias it is zero. -/
def biasAt (bias : Option Constant) (index : Nat) : Except Error Float32 :=
  match bias with
  | none => .ok 0
  | some bias => fetch bias.data index

/-- One output of one batch row: the bias, then one product for each input. -/
def denseOutput (dense : Dense) (weights : Constant) (bias : Option Constant)
    (data : Array Float32) (inputs outputs batchIndex output : Nat) : Except Error Float32 := do
  let start ← biasAt bias output
  accumulate start inputs fun input => do
    let x ← fetch data (batchIndex * inputs + input)
    let weight ← fetch weights.data (weightIndex dense inputs outputs input output)
    return x * weight

/-- `[batch, inputs]` times the weights, plus the bias. -/
def fullyConnected (dense : Dense) (input : View) (weights : Constant) (bias : Option Constant) :
    Except Error (Array Float32) :=
  match weights.shape.extents with
  | [rows, columns] =>
    let (inputs, outputs) := dense.sides rows columns
    match input.shape.dim? 0 with
    | none => .error .outOfBounds
    | some batch =>
      if batch.toNat * inputs.toNat = input.data.size then
        tabulate (batch.toNat * outputs.toNat) fun flat =>
          denseOutput dense weights bias input.data inputs.toNat outputs.toNat
            (flat / outputs.toNat) (flat % outputs.toNat)
      else .error (Fault.denseInput input.shape batch.toNat inputs.toNat).error
  | _ => .error (Fault.denseWeights weights.shape).error

end NeuralGraph.Reference
