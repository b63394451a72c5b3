import NeuralGraph.Tensor.Capacity

/-! Constant operands: weights and biases. The data of a constant may be shared between copies;
the storage of a constant tells which copies still share. -/

namespace NeuralGraph

/-- Names one allocation of constant data. -/
abbrev StorageId := Nat

/-- A constant holds one value for each element of its shape, in a buffer. -/
structure Constant where
  info : TensorInfo
  data : Array Float32
  storage : StorageId
  size_eq : data.size = info.elementCount
  storable : info.shape.isStorable

namespace Constant

/-- Constants compare by descriptor and values, wherever the values are stored. -/
instance : BEq Constant := ⟨fun a b => a.info == b.info && a.data == b.data⟩

def shape (constant : Constant) : Shape := constant.info.shape

/-- A constant with the given values, refused when their number does not fit the shape. -/
def new (storage : StorageId) (info : TensorInfo) (data : Array Float32) :
    Except Error Constant :=
  if fits : data.size = info.elementCount ∧ info.shape.isStorable then
    .ok { info, data, storage, size_eq := fits.1, storable := fits.2 }
  else if data.size ≠ info.elementCount ∧ info.shape.isCountable then
    .error (.invalidParameter (.constantLength data.size info.shape))
  else .error .outOfBounds

/-- A `Float32` constant that holds one value throughout, where a buffer can hold it. -/
def filled (storage : StorageId) (extents : List Extent) (value : Float32) :
    Except Error Constant :=
  if storable : (Shape.mk extents).isStorable then
    .ok {
      info := { shape := ⟨extents⟩ }
      data := Array.replicate (Shape.mk extents).elementCount value
      storage, storable
      size_eq := by simp [TensorInfo.elementCount] }
  else .error .outOfBounds

/-- The same values in another storage. -/
def movedTo (constant : Constant) (storage : StorageId) : Constant :=
  { constant with storage }

/-- Writes one element in place. -/
def write? (constant : Constant) (index : Nat) (value : Float32) : Option Constant :=
  if inside : index < constant.data.size then
    some { constant with
      data := constant.data.set index value inside
      size_eq := by simpa using constant.size_eq }
  else none

def sharesStorageWith (a b : Constant) : Bool := a.storage == b.storage

end Constant

end NeuralGraph
