import NeuralGraph.Backend.Basic

/-! Why a reference kernel gives no result. -/

namespace NeuralGraph.Reference

inductive Fault where
  | bindingLayer
  | missingInput (index : Nat)
  | missingOutput (index : Nat)
  | scalarSoftmax
  | denseWeights (weights : Shape)
  | denseInput (input : Shape) (batch inputs : Nat)
  | convolutionRank
  | poolingRank
  | cell (fault : Lstm.Fault)
  | cellOperand (operand : Shape) (batch width : Extent)
  | cellParameter (role : Lstm.Role)
  | foreignHandle
deriving DecidableEq

def Fault.message : Fault → String
  | bindingLayer => "binding layers carry no computation"
  | missingInput index => s!"expected input at index {index}"
  | missingOutput index => s!"expected output shape at index {index}"
  | scalarSoftmax => "softmax of a scalar"
  | denseWeights weights => s!"weights must be 2D, got {weights}"
  | denseInput input batch inputs => s!"input {input} does not flatten to [{batch}, {inputs}]"
  | convolutionRank => "convolution2d requires 4D tensors"
  | poolingRank => "pooling2d requires 4D tensors"
  | cell fault => fault.message
  | cellOperand operand batch width =>
    s!"LSTM operand {operand} does not match [{batch}, {width}]"
  | cellParameter role => s!"LSTM parameter {role.label} is missing"
  | foreignHandle => "unsupported tensor handle Foreign"

/-- A fault as the failure of this backend. -/
def Fault.error (fault : Fault) : Error := .backend Backend.referenceId fault.message

end NeuralGraph.Reference
