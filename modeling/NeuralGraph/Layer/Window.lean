import NeuralGraph.Layer.Fault

/-! Sliding windows along one axis: how many positions a window takes, for pooling and for
convolution. -/

namespace NeuralGraph

/-- A window that slides along one axis, with padding on both ends. -/
structure WindowAxis where
  input : Extent
  low : Extent
  high : Extent
  window : Extent
  stride : Extent
deriving DecidableEq

inductive Rounding where
  | floor
  | ceiling
deriving DecidableEq, Inhabited

/-- The quotient, rounded as asked. -/
def Rounding.divide : Rounding → Nat → Nat → Nat
  | floor, amount, divisor => amount / divisor
  | ceiling, amount, divisor => (amount + divisor - 1) / divisor

namespace WindowAxis

/-- The input extent with the padding of both ends. -/
def padded (axis : WindowAxis) : Nat :=
  axis.input.toNat + axis.low.toNat + axis.high.toNat

/-- The number of pooling windows. A last window that would start in the high padding is
dropped. -/
def pooled (axis : WindowAxis) (rounding : Rounding) : Except ShapeError Extent :=
  if axis.stride = 0 then
    .error (.invalidConfiguration .zeroPoolingStride)
  else if axis.padded < axis.window.toNat then
    .error (.invalidConfiguration (.windowExceedsInput axis.window axis.padded))
  else
    let steps := rounding.divide (axis.padded - axis.window.toNat) axis.stride.toNat
    let extent :=
      if axis.input.toNat + axis.low.toNat ≤ steps * axis.stride.toNat then steps
      else steps + 1
    match Extent.ofNat? extent with
    | some extent => .ok extent
    | none => .error (.invalidConfiguration (.pooledOverflow extent))

/-- The number of positions of a convolution kernel, for a stride that is not zero. -/
def convolved (axis : WindowAxis) : Except ShapeError Extent :=
  if axis.padded < axis.window.toNat then
    .error (.invalidConfiguration (.kernelExceedsInput axis.window axis.padded))
  else
    let extent := (axis.padded - axis.window.toNat) / axis.stride.toNat + 1
    match Extent.ofNat? extent with
    | some extent => .ok extent
    | none => .error (.invalidConfiguration (.convolvedOverflow extent))

end WindowAxis

end NeuralGraph
