import NeuralGraph.Reference.Lstm
import NeuralGraph.Reference.Pooling

/-! The value of a layer: one buffer for each output slot. -/

namespace NeuralGraph.Reference

def requireInput (inputs : List View) (index : Nat) : Except Error View :=
  match inputs[index]? with
  | some input => .ok input
  | none => .error (Fault.missingInput index).error

def requireOutput (outputs : List Shape) (index : Nat) : Except Error Shape :=
  match outputs[index]? with
  | some output => .ok output
  | none => .error (Fault.missingOutput index).error

/-- Evaluates a layer on its inputs, into buffers for the given output shapes. -/
def evaluate (kind : LayerKind) (inputs : List View) (outputs : List Shape) :
    Except Error (List (Array Float32)) :=
  match kind with
  | .input _ | .output _ => .error Fault.bindingLayer.error
  | .activation curve => do
    let input ← requireInput inputs 0
    return [activation curve input]
  | .softmax beta => do
    let input ← requireInput inputs 0
    return [← softmax beta input]
  | .addition => do
    let a ← requireInput inputs 0
    let b ← requireInput inputs 1
    let out ← requireOutput outputs 0
    return [← addition a b out]
  | .fullyConnected dense weights bias => do
    let input ← requireInput inputs 0
    return [← fullyConnected dense input weights bias]
  | .convolution2d convolution weights bias => do
    let input ← requireInput inputs 0
    let out ← requireOutput outputs 0
    return [← convolution2d convolution input weights bias out]
  | .pooling2d pooling => do
    let input ← requireInput inputs 0
    let out ← requireOutput outputs 0
    return [← pooling2d pooling input out]
  | .lstm cell params => do
    let activation ← Lstm.Activation.ofCode cell.activationCode
    let input ← requireInput inputs 0
    let outputState ← requireInput inputs 1
    let cellState ← requireInput inputs 2
    let result ← lstm cell params activation input outputState cellState
    return [result.scratch, result.outputState, result.cellState, result.output]

end NeuralGraph.Reference
