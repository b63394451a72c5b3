import NeuralGraph.Error
import NeuralGraph.Layer.Window

/-! Two-dimensional pooling: parameters and the shape of the result. -/

namespace NeuralGraph

inductive Pooling.Algorithm where
  | max
  | average
  | l2
deriving DecidableEq, Inhabited

namespace Pooling.Algorithm

def all : List Algorithm := [max, average, l2]

def name : Algorithm → String
  | max => "Max"
  | average => "Average"
  | l2 => "L2"

end Pooling.Algorithm

/-- Whether padding counts as elements when an average is taken. -/
inductive Pooling.Padding where
  | ignoreValue
  | exclude
deriving DecidableEq, Inhabited

namespace Pooling.Padding

def all : List Padding := [ignoreValue, exclude]

def name : Padding → String
  | ignoreValue => "IgnoreValue"
  | exclude => "Exclude"

end Pooling.Padding

/-- The rounding that a model file encodes as a number. -/
def Rounding.ofCode (code : UInt32) : Except Error Rounding :=
  if code = 0 then .ok .floor
  else if code = 1 then .ok .ceiling
  else .error (.invalidParameter (.rounding code))

structure Pooling where
  algorithm : Pooling.Algorithm := .max
  padLeft : Extent := 0
  padRight : Extent := 0
  padTop : Extent := 0
  padBottom : Extent := 0
  poolWidth : Extent := 0
  poolHeight : Extent := 0
  strideX : Extent := 0
  strideY : Extent := 0
  rounding : Rounding := .floor
  padding : Pooling.Padding := .exclude
deriving DecidableEq, Inhabited

namespace Pooling

/-- Two zero strides select one window over the whole plane. -/
def isGlobal (pooling : Pooling) : Bool := pooling.strideX = 0 && pooling.strideY = 0

def rowAxis (pooling : Pooling) (height : Extent) : WindowAxis :=
  ⟨height, pooling.padTop, pooling.padBottom, pooling.poolHeight, pooling.strideY⟩

def columnAxis (pooling : Pooling) (width : Extent) : WindowAxis :=
  ⟨width, pooling.padLeft, pooling.padRight, pooling.poolWidth, pooling.strideX⟩

/-- Batch and channels stay; each plane shrinks to its windows, the width being checked
first. -/
def inferShape (pooling : Pooling) (input : Shape) : Except ShapeError Shape :=
  match input.extents with
  | [batch, channels, height, width] =>
    if pooling.isGlobal then .ok ⟨[batch, channels, 1, 1]⟩
    else do
      let columns ← (pooling.columnAxis width).pooled pooling.rounding
      let rows ← (pooling.rowAxis height).pooled pooling.rounding
      return ⟨[batch, channels, rows, columns]⟩
  | _ => .error (.rank 4 input.rank)

end Pooling

end NeuralGraph
