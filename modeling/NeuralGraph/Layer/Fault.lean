import NeuralGraph.Tensor.Shape
import NeuralGraph.Layer.Lstm.Role

/-! Why a layer refuses its parameters or its input shapes, and how each refusal reads. -/

namespace NeuralGraph

/-- What can be wrong with the constants or the tensors of an LSTM cell. -/
inductive Lstm.Fault where
  | unitsUnknown (bias : Shape)
  | inputSizeUnknown (weights : Shape)
  | outputSizeUnknown (weights : Shape)
  | wrongShape (role : Lstm.Role) (actual expected : Shape)
  | inputGateMissing (role : Lstm.Role)
  | projectionMissing
  | peepholeMissing
  | unprojectedWidth (output units : Extent)
  | inputRank (input : Shape)
  | tensorShape (actual expected : Shape)
  | tensorCount (inputs outputs : Nat)
deriving DecidableEq

def Lstm.Fault.message : Lstm.Fault → String
  | unitsUnknown bias => s!"forget_gate_bias {bias} is not 1D"
  | inputSizeUnknown weights => s!"input_to_forget_weights {weights} is not 2D"
  | outputSizeUnknown weights => s!"recurrent_to_forget_weights {weights} is not 2D"
  | wrongShape role actual expected => s!"{role.name} has shape {actual}, expected {expected}"
  | inputGateMissing role => s!"CIFG disabled but {role.label} is missing"
  | projectionMissing => "projection enabled but projection_weights is missing"
  | peepholeMissing => "peephole enabled but cell_to_forget/cell_to_output weights are missing"
  | unprojectedWidth output units =>
    s!"output size {output} must equal {units} units without projection"
  | inputRank input => s!"LSTM input must be 2D, got {input}"
  | tensorShape actual expected => s!"LSTM tensor has shape {actual}, expected {expected}"
  | tensorCount inputs outputs =>
    s!"LSTM needs 3 inputs and 4 outputs, got {inputs} and {outputs}"

/-- Parameters that contradict each other, whatever the input shapes are. -/
inductive ParameterFault where
  | biasMissing
  | biasUnexpected
  | lstm (fault : Lstm.Fault)
deriving DecidableEq

def ParameterFault.message : ParameterFault → String
  | biasMissing => "bias enabled but no bias tensor given"
  | biasUnexpected => "bias tensor given but bias is disabled"
  | lstm fault => fault.message

/-- Shapes that do not go together. -/
inductive Mismatch where
  | broadcast (a b : Shape)
  | denseWeights (weights : Shape)
  | denseInputs (weights : Shape) (expected : Extent) (input : Shape) (flattened : Extent)
  | denseBias (bias : Shape) (outputs : Extent)
  | filterRank (filter : Shape)
  | filterChannels (expected : Extent) (input : Shape) (channels : Extent)
  | filterBias (bias : Shape) (channels : Extent)
  | stateBatch (outputState cellState : Shape) (batch : Extent)
  | cellUnits (state weights : Extent)
  | cellSizes (input output givenInput givenOutput : Extent)
  | cell (fault : Lstm.Fault)
deriving DecidableEq

def Mismatch.message : Mismatch → String
  | broadcast a b => s!"cannot broadcast {a} with {b}"
  | denseWeights weights => s!"fully connected weights must be 2D, got {weights}"
  | denseInputs weights expected input flattened =>
    s!"weights {weights} expect {expected} inputs, input {input} flattens to {flattened}"
  | denseBias bias outputs => s!"bias shape {bias} does not match {outputs} outputs"
  | filterRank filter => s!"convolution weights must be 4D [O, I, kH, kW], got {filter}"
  | filterChannels expected input channels =>
    s!"weights expect {expected} input channels, input {input} has {channels}"
  | filterBias bias channels => s!"bias shape {bias} does not match {channels} output channels"
  | stateBatch outputState cellState batch =>
    s!"state batch sizes {outputState} / {cellState} differ from input batch {batch}"
  | cellUnits state weights => s!"cell state has {state} units, weights have {weights}"
  | cellSizes input output givenInput givenOutput =>
    s!"weights expect input size {input} and output size {output}, " ++
      s!"inputs give {givenInput} and {givenOutput}"
  | cell fault => fault.message

/-- Settings under which no output shape exists. -/
inductive Misconfiguration where
  | boundByCaller
  | zeroPoolingStride
  | windowExceedsInput (window : Extent) (padded : Nat)
  | pooledOverflow (extent : Nat)
  | zeroConvolutionStride
  | kernelExceedsInput (kernel : Extent) (padded : Nat)
  | convolvedOverflow (extent : Nat)
  | flattenedOverflow (input : Shape)
  | scratchOverflow (units : Extent) (gates : Nat)
deriving DecidableEq

def Misconfiguration.message : Misconfiguration → String
  | boundByCaller => "input shapes are bound by the caller"
  | zeroPoolingStride => "stride can only be zero when performing global pooling"
  | windowExceedsInput window padded =>
    s!"pooling window {window} exceeds padded input extent {padded}"
  | pooledOverflow extent => s!"pooled extent {extent} overflows"
  | zeroConvolutionStride => "convolution strides must be non-zero"
  | kernelExceedsInput kernel padded =>
    s!"kernel extent {kernel} exceeds padded input extent {padded}"
  | convolvedOverflow extent => s!"convolved extent {extent} overflows"
  | flattenedOverflow input => s!"flattened input {input} overflows"
  | scratchOverflow units gates => s!"scratch width {units} x {gates} overflows"

/-- Why shape inference gives no answer. -/
inductive ShapeError where
  | inputCount (expected actual : Nat)
  | rank (expected actual : Nat)
  | mismatch (cause : Mismatch)
  | invalidConfiguration (cause : Misconfiguration)
deriving DecidableEq

/-- The class of an inference error. -/
def ShapeError.kind : ShapeError → String
  | inputCount .. => "InputCount"
  | rank .. => "Rank"
  | mismatch .. => "Mismatch"
  | invalidConfiguration .. => "InvalidConfiguration"

def ShapeError.message : ShapeError → String
  | inputCount expected actual => s!"expected {expected} input shapes, got {actual}"
  | rank expected actual => s!"expected a {expected}D input, got {actual}D"
  | mismatch cause => s!"shape mismatch: {cause.message}"
  | invalidConfiguration cause => s!"invalid configuration: {cause.message}"

end NeuralGraph
