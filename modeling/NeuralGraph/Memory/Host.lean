import NeuralGraph.Error
import NeuralGraph.Tensor.Fill

/-! Host memory and the handles that callers bind to slots. A handle never owns the memory it
names; two handles with the same buffer read and write the same values. -/

namespace NeuralGraph

/-- Tensor memory as callers name it. Foreign memory has a descriptor but no host buffer. -/
structure Handle where
  info : TensorInfo
  buffer : Option Nat
deriving Inhabited

namespace Handle

def shape (handle : Handle) : Shape := handle.info.shape

def isForeign (handle : Handle) : Bool := handle.buffer.isNone

/-- The handle of memory that the host cannot address. -/
def foreign (info : TensorInfo) : Handle := { info, buffer := none }

end Handle

/-- Host buffers, numbered in the order of their allocation. -/
structure HostMemory where
  buffers : Array (Array Float32) := #[]
deriving Inhabited

namespace HostMemory

/-- A new buffer with the given contents, refused when their number does not fit the shape. -/
def allocate (memory : HostMemory) (info : TensorInfo) (data : Array Float32) :
    Except Error (Handle × HostMemory) :=
  if data.size = info.elementCount ∧ info.shape.isStorable then
    .ok ({ info, buffer := some memory.buffers.size }, ⟨memory.buffers.push data⟩)
  else if data.size ≠ info.elementCount ∧ info.shape.isCountable then
    .error (.invalidParameter (.tensorLength data.size info.shape))
  else .error .outOfBounds

/-- A new buffer of zeros, where memory can hold one. -/
def allocateZeroed (memory : HostMemory) (info : TensorInfo) :
    Except Error (Handle × HostMemory) := do
  let count ← info.shape.bufferSize
  return ({ info, buffer := some memory.buffers.size },
    ⟨memory.buffers.push (Array.replicate count 0)⟩)

/-- Memory for a described tensor; a tensor without values gets zeros. -/
def provide (memory : HostMemory) (source : TensorSource) : Except Error (Handle × HostMemory) :=
  if source.foreign then .ok (.foreign source.info, memory)
  else
    match source.fill with
    | none => memory.allocateZeroed source.info
    | some _ => do memory.allocate source.info (← source.data)

/-- Memory for several tensors, in order. -/
def provideAll (memory : HostMemory) :
    List TensorSource → Except Error (List Handle × HostMemory)
  | [] => .ok ([], memory)
  | source :: sources => do
    let (handle, extended) ← memory.provide source
    let (handles, final) ← extended.provideAll sources
    return (handle :: handles, final)

/-- The values behind a handle; a foreign handle has none. -/
def read? (memory : HostMemory) (handle : Handle) : Option (Array Float32) := do
  let index ← handle.buffer
  memory.buffers[index]?

/-- Replaces the values behind a handle, whatever their number. -/
def replace (memory : HostMemory) (handle : Handle) (data : Array Float32) : HostMemory :=
  match handle.buffer with
  | none => memory
  | some index => ⟨memory.buffers.setIfInBounds index data⟩

/-- Overwrites a buffer by as many values as it holds; a foreign handle has nothing to
overwrite. -/
def copyFrom (memory : HostMemory) (handle : Handle) (data : Array Float32) :
    Except Error HostMemory :=
  match memory.read? handle with
  | none => .error .outOfBounds
  | some held =>
    if data.size = held.size then .ok (memory.replace handle data)
    else .error (.invalidParameter (.copyLength data.size handle.shape held.size))

end HostMemory

end NeuralGraph
