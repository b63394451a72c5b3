import NeuralGraph.Tensor.Capacity

/-! Staging memory: tensors that live as long as something refers to them, and the counters that
keep account of them. -/

namespace NeuralGraph

/-- A snapshot of the accounts. -/
structure Telemetry where
  /-- Bytes booked and not given back, as a machine word. -/
  liveBytes : Nat := 0
  /-- The largest value that `liveBytes` has had after a tensor was booked. -/
  peakBytes : Nat := 0
  liveTensors : Nat := 0
  /-- Uploads that went through. -/
  uploads : Nat := 0
deriving DecidableEq, Inhabited

namespace Telemetry

/-- Whether the bytes of one more tensor leave `liveBytes` a machine word. -/
def canCharge (telemetry : Telemetry) (bytes : Nat) : Bool :=
  telemetry.liveBytes + bytes < Capacity.wordLimit

/-- Books a new tensor. Bytes that overflow the account leave its low word behind, and then
nothing else is booked. -/
def charge (telemetry : Telemetry) (bytes : Nat) : Telemetry :=
  if telemetry.canCharge bytes then
    { telemetry with
      liveBytes := telemetry.liveBytes + bytes
      peakBytes := max telemetry.peakBytes (telemetry.liveBytes + bytes)
      liveTensors := telemetry.liveTensors + 1 }
  else { telemetry with liveBytes := telemetry.liveBytes + bytes - Capacity.wordLimit }

/-- Books the end of a tensor. An account that has overflowed may hold fewer bytes than the
tensor; it then counts down from the largest word. -/
def discharge (telemetry : Telemetry) (bytes : Nat) : Telemetry :=
  { telemetry with
    liveBytes :=
      if bytes ≤ telemetry.liveBytes then telemetry.liveBytes - bytes
      else telemetry.liveBytes + Capacity.wordLimit - bytes
    liveTensors := telemetry.liveTensors - 1 }

def countUpload (telemetry : Telemetry) : Telemetry :=
  { telemetry with uploads := telemetry.uploads + 1 }

end Telemetry

inductive StagingFault where
  | zeroLength
  /-- Neither memory nor the accounts can take the tensor. -/
  | tooLarge (shape : Shape)
  | lengthMismatch (shape : Shape) (expected got : Nat)
deriving DecidableEq

def StagingFault.message : StagingFault → String
  | zeroLength => "staging tensor has zero elements"
  | tooLarge shape => s!"no memory can hold a tensor of shape {shape}"
  | lengthMismatch shape expected got =>
    s!"length mismatch for {shape}: expected {expected} elements, got {got}"

/-- A live tensor with the number of references to it. -/
structure StagedTensor where
  shape : Shape
  data : Array Float32
  references : Nat
deriving Inhabited

/-- A reference to a staged tensor, with the shape it was allocated for. -/
structure StagedRef where
  index : Nat
  shape : Shape
deriving DecidableEq, Inhabited

/-- Every tensor ever allocated has a slot of its own; freed slots stay empty. -/
structure Staging where
  slots : Array (Option StagedTensor) := #[]
  telemetry : Telemetry := {}
deriving Inhabited

namespace Staging

/-- The bytes that a tensor of single-precision numbers takes. -/
def bytes (shape : Shape) : Nat := Capacity.scalarBytes * shape.elementCount

def find? (staging : Staging) (tensor : StagedRef) : Option StagedTensor :=
  (staging.slots[tensor.index]?).join

/-- Takes memory for zeros, with one reference to them. -/
def push (staging : Staging) (shape : Shape) : StagedRef × Staging :=
  ({ index := staging.slots.size, shape },
   { staging with
     slots := staging.slots.push
      (some { shape, data := Array.replicate shape.elementCount 0, references := 1 }) })

/-- Allocates zeros. A tensor whose bytes are a machine word is booked before its memory is
taken, and the booking stays when the accounts overflow or there is no such memory. -/
def allocate (staging : Staging) (shape : Shape) : Staging × Except StagingFault StagedRef :=
  if ¬shape.isCountable then (staging, .error (.tooLarge shape))
  else if shape.elementCount = 0 then (staging, .error .zeroLength)
  else if Capacity.wordLimit ≤ bytes shape then (staging, .error (.tooLarge shape))
  else
    let booked := { staging with telemetry := staging.telemetry.charge (bytes shape) }
    if staging.telemetry.canCharge (bytes shape) && shape.isStorable then
      let (tensor, allocated) := booked.push shape
      (allocated, .ok tensor)
    else (booked, .error (.tooLarge shape))

/-- Adds a reference. -/
def retain (staging : Staging) (tensor : StagedRef) : Staging :=
  match staging.find? tensor with
  | none => staging
  | some held =>
    { staging with
      slots := staging.slots.setIfInBounds tensor.index
        (some { held with references := held.references + 1 }) }

/-- Drops a reference; the last one takes the tensor with it. -/
def release (staging : Staging) (tensor : StagedRef) : Staging :=
  match staging.find? tensor with
  | none => staging
  | some held =>
    if held.references ≤ 1 then
      { slots := staging.slots.setIfInBounds tensor.index none
        telemetry := staging.telemetry.discharge (bytes held.shape) }
    else
      { staging with
        slots := staging.slots.setIfInBounds tensor.index
          (some { held with references := held.references - 1 }) }

def references (staging : Staging) (tensor : StagedRef) : Nat :=
  ((staging.find? tensor).map (·.references)).getD 0

/-- The values of a tensor; a freed one has none. -/
def read (staging : Staging) (tensor : StagedRef) : Array Float32 :=
  ((staging.find? tensor).map (·.data)).getD #[]

/-- Overwrites a tensor by as many values as it has. -/
def write (staging : Staging) (tensor : StagedRef) (data : Array Float32) :
    Except StagingFault Staging :=
  let held := staging.read tensor
  if data.size = held.size then
    .ok { staging with
      slots := staging.slots.modify tensor.index (·.map fun slot => { slot with data }) }
  else .error (.lengthMismatch tensor.shape held.size data.size)

/-- Writes constant data and counts the upload. -/
def upload (staging : Staging) (tensor : StagedRef) (data : Array Float32) :
    Except StagingFault Staging := do
  let written ← staging.write tensor data
  return { written with telemetry := written.telemetry.countUpload }

end Staging

end NeuralGraph
