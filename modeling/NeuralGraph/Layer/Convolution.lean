import NeuralGraph.Layer.Window
import NeuralGraph.Tensor.Constant

/-! Two-dimensional convolution: parameters and the shape of the result. -/

namespace NeuralGraph

structure Convolution where
  padLeft : Extent := 0
  padRight : Extent := 0
  padTop : Extent := 0
  padBottom : Extent := 0
  strideX : Extent := 0
  strideY : Extent := 0
  biasEnabled : Bool := false
deriving DecidableEq, Inhabited

namespace Convolution

def rowAxis (convolution : Convolution) (height kernel : Extent) : WindowAxis :=
  ⟨height, convolution.padTop, convolution.padBottom, kernel, convolution.strideY⟩

def columnAxis (convolution : Convolution) (width kernel : Extent) : WindowAxis :=
  ⟨width, convolution.padLeft, convolution.padRight, kernel, convolution.strideX⟩

/-- A bias has one value for each output channel. -/
def checkBias (bias : Option Constant) (channels : Extent) : Except ShapeError Unit :=
  match bias with
  | none => .ok ()
  | some bias =>
    if bias.shape = ⟨[channels]⟩ then .ok ()
    else .error (.mismatch (.filterBias bias.shape channels))

/-- Filters are `[outputs, channels, height, width]`; the result has one plane for each
output. -/
def inferShape (convolution : Convolution) (weights : Constant) (bias : Option Constant)
    (input : Shape) : Except ShapeError Shape :=
  match input.extents with
  | [batch, channels, height, width] =>
    match weights.shape.extents with
    | [outputs, expected, kernelHeight, kernelWidth] =>
      if convolution.strideX = 0 ∨ convolution.strideY = 0 then
        .error (.invalidConfiguration .zeroConvolutionStride)
      else if expected ≠ channels then
        .error (.mismatch (.filterChannels expected input channels))
      else do
        checkBias bias outputs
        let rows ← (convolution.rowAxis height kernelHeight).convolved
        let columns ← (convolution.columnAxis width kernelWidth).convolved
        return ⟨[batch, outputs, rows, columns]⟩
    | _ => .error (.mismatch (.filterRank weights.shape))
  | _ => .error (.rank 4 input.rank)

end Convolution

end NeuralGraph
