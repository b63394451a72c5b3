import NeuralGraph.Error

/-! What memory can hold: positions and counts are machine words, and a buffer takes less than
half of the address space. -/

namespace NeuralGraph

namespace Capacity

/-- One past the largest machine word. -/
def wordLimit : Nat := UInt64.size

/-- One past the largest signed word. -/
def signedLimit : Nat := UInt64.size / 2

/-- The bytes of a single-precision number. -/
def scalarBytes : Nat := 4

/-- Whether a buffer can hold a number of single-precision values. -/
def fitsBuffer (count : Nat) : Bool := scalarBytes * count < signedLimit

/-- Whether a product of sizes, continued from the left, stays within the machine words. -/
def staysWord (product : Nat) : List Nat → Bool
  | [] => true
  | size :: sizes => product * size < wordLimit && staysWord (product * size) sizes

end Capacity

namespace Shape

/-- Whether the elements can be counted. The extents are multiplied from the left, so an extent
of zero does not help the extents in front of it. -/
def isCountable (shape : Shape) : Bool := Capacity.staysWord 1 shape.sizes

/-- Whether a buffer can hold one single-precision value for each element. -/
def isStorable (shape : Shape) : Bool :=
  shape.isCountable && Capacity.fitsBuffer shape.elementCount

/-- The number of elements, where they can be counted. -/
def count (shape : Shape) : Except Error Nat :=
  if shape.isCountable then .ok shape.elementCount else .error .outOfBounds

/-- The number of values in a buffer for the shape, where there can be one. -/
def bufferSize (shape : Shape) : Except Error Nat :=
  if shape.isStorable then .ok shape.elementCount else .error .outOfBounds

end Shape

/-- The bytes that the elements take in their own type, where they can be counted. -/
def TensorInfo.countBytes (info : TensorInfo) : Except Error Nat := do
  let bytes := (← info.shape.count) * info.elementType.byteSize
  if bytes < Capacity.wordLimit then return bytes else throw .outOfBounds

end NeuralGraph
