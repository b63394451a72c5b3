import NeuralGraph.Tensor.Shape

/-! What flows through a slot: a shape, an element type and a quantization. -/

namespace NeuralGraph

inductive ElementType where
  | float32
  | float16
  | qAsymm8
  | signed32
  | boolean
deriving DecidableEq, Inhabited

namespace ElementType

def all : List ElementType := [float32, float16, qAsymm8, signed32, boolean]

def name : ElementType → String
  | float32 => "Float32"
  | float16 => "Float16"
  | qAsymm8 => "QAsymm8"
  | signed32 => "Signed32"
  | boolean => "Boolean"

instance : ToString ElementType := ⟨name⟩

/-- Bytes of one element. -/
def byteSize : ElementType → Nat
  | float32 | signed32 => 4
  | float16 => 2
  | qAsymm8 | boolean => 1

def isQuantized (type : ElementType) : Bool := type = qAsymm8

end ElementType

/-- The descriptor of a tensor. Two descriptors compare equal when shape, type and offset agree
and the scales are equal numbers. -/
structure TensorInfo where
  shape : Shape
  elementType : ElementType := .float32
  scale : Float32 := 0
  offset : Int := 0
deriving BEq, Inhabited

namespace TensorInfo

def elementCount (info : TensorInfo) : Nat := info.shape.elementCount

/-- The element type followed by the shape. -/
def text (info : TensorInfo) : String := s!"{info.elementType} {info.shape}"

end TensorInfo

end NeuralGraph
