import NeuralGraph.Layer.Convolution
import NeuralGraph.Reference.Dense

/-! Reference kernel for two-dimensional convolution with zero padding. -/

namespace NeuralGraph.Reference

/-- The extents of a batch of images, as plain numbers. -/
structure Planes where
  batch : Nat
  channels : Nat
  height : Nat
  width : Nat

namespace Planes

def ofShape? (shape : Shape) : Option Planes :=
  match shape.sizes with
  | [batch, channels, height, width] => some { batch, channels, height, width }
  | _ => none

/-- The position of a value in row-major order. -/
def index (planes : Planes) (batch channel row column : Nat) : Nat :=
  ((batch * planes.channels + channel) * planes.height + row) * planes.width + column

end Planes

/-- The input coordinate under a tap, or nothing where the tap lies in the padding. -/
def tap? (stride low extent position offset : Nat) : Option Nat :=
  let coordinate := position * stride + offset
  if low ≤ coordinate ∧ coordinate - low < extent then some (coordinate - low) else none

/-- The last two extents of a filter. -/
def kernelSize (weights : Constant) : Except Error (Nat × Nat) :=
  match weights.shape.dim? 2, weights.shape.dim? 3 with
  | some height, some width => .ok (height.toNat, width.toNat)
  | _, _ => .error .outOfBounds

/-- One output value: the start value, then one product for each tap inside the input, channel
by channel and row by row. -/
def convolutionOutput (convolution : Convolution) (input : Array Float32) (shape : Planes)
    (weights : Constant) (kernelHeight kernelWidth : Nat) (start : Float32)
    (batch output row column : Nat) : Except Error Float32 :=
  foldPositions (fun sum channel =>
    foldPositions (fun sum offsetY =>
      match tap? convolution.strideY.toNat convolution.padTop.toNat shape.height row offsetY with
      | none => .ok sum
      | some y =>
        foldPositions (fun sum offsetX =>
          match tap? convolution.strideX.toNat convolution.padLeft.toNat shape.width
              column offsetX with
          | none => .ok sum
          | some x => do
            let value ← fetch input (shape.index batch channel y x)
            let weight ← fetch weights.data
              (((output * shape.channels + channel) * kernelHeight + offsetY) * kernelWidth +
                offsetX)
            return sum + value * weight)
          0 kernelWidth sum)
      0 kernelHeight sum)
    0 shape.channels start

/-- Convolution into a shape that has been inferred. Every batch entry of the input has its
place in the output; further entries of the output are zero. -/
def convolution2d (convolution : Convolution) (input : View) (weights : Constant)
    (bias : Option Constant) (out : Shape) : Except Error (Array Float32) :=
  match Planes.ofShape? input.shape, Planes.ofShape? out with
  | some shape, some result => do
    let (kernelHeight, kernelWidth) ← kernelSize weights
    let count ← out.count
    let plane := result.channels * result.height * result.width
    if 0 < shape.batch ∧ ¬hasBiases bias result.channels then throw .outOfBounds
    if count < shape.batch * plane then throw .outOfBounds
    tabulate count fun flat => do
      let column := flat % result.width
      let row := flat / result.width % result.height
      let output := flat / (result.height * result.width) % result.channels
      let batch := flat / plane
      if batch < shape.batch then
        convolutionOutput convolution input.data shape weights kernelHeight kernelWidth
          (← biasAt bias output) batch output row column
      else .ok 0
  | _, _ => .error Fault.convolutionRank.error

end NeuralGraph.Reference
