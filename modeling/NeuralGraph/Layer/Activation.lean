import NeuralGraph.Scalar

/-! Elementwise activation functions. -/

namespace NeuralGraph

inductive Activation.Curve where
  | sigmoid
  | tanH
  | linear
  | reLu
  | boundedReLu
  | softReLu
  | leakyReLu
  | abs
  | sqrt
  | square
deriving DecidableEq, Inhabited

namespace Activation.Curve

def all : List Curve :=
  [sigmoid, tanH, linear, reLu, boundedReLu, softReLu, leakyReLu, abs, sqrt, square]

def name : Curve → String
  | sigmoid => "Sigmoid"
  | tanH => "TanH"
  | linear => "Linear"
  | reLu => "ReLu"
  | boundedReLu => "BoundedReLu"
  | softReLu => "SoftReLu"
  | leakyReLu => "LeakyReLu"
  | abs => "Abs"
  | sqrt => "Sqrt"
  | square => "Square"

end Activation.Curve

/-- A curve with its two parameters, such as bounds, slopes and scales. -/
structure Activation where
  curve : Activation.Curve
  a : Float32 := 0
  b : Float32 := 0
deriving BEq, Inhabited

/-- The value of the function at one element. -/
def Activation.apply (activation : Activation) (x : Float32) : Float32 :=
  match activation.curve with
  | .sigmoid => Scalar.sigmoid x
  | .tanH => activation.a * (activation.b * x).tanh
  | .linear => activation.a * x + activation.b
  | .reLu => Scalar.max x 0
  | .boundedReLu => Scalar.min (Scalar.max x activation.b) activation.a
  | .softReLu => (1 + x.exp).log
  | .leakyReLu => if 0 < x then x else activation.a * x
  | .abs => x.abs
  | .sqrt => x.sqrt
  | .square => x * x

end NeuralGraph
