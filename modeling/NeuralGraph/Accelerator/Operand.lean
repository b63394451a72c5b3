import NeuralGraph.Accelerator.Fault

/-! What a native function reads and writes: caller memory used in place, or staged tensors. -/

namespace NeuralGraph.Accelerator

inductive Operand where
  | imported (handle : Handle)
  | staged (tensor : StagedRef)
deriving Inhabited

namespace Operand

/-- Uses caller memory in place; the host must be able to address it. -/
def ofHandle (handle : Handle) : Except Fault Operand :=
  if handle.isForeign then .error .foreignHandle else .ok (imported handle)

def shape : Operand → Shape
  | imported handle => handle.shape
  | staged tensor => tensor.shape

def read (operand : Operand) (device : Device) : Except Fault (Array Float32) :=
  match operand with
  | imported handle =>
    match device.host.read? handle with
    | some data => .ok data
    | none => .error .foreignHandle
  | staged tensor => .ok (device.staging.read tensor)

/-- Overwrites an operand by as many values as it has. -/
def write (operand : Operand) (device : Device) (data : Array Float32) : Except Fault Device :=
  match operand with
  | imported handle =>
    if handle.isForeign then .error .foreignHandle
    else
      match device.host.copyFrom handle data with
      | .ok host => .ok { device with host }
      | .error _ =>
        .error (.staging (.lengthMismatch handle.shape handle.info.elementCount data.size))
  | staged tensor => do
    let staging ← ofStaging (device.staging.write tensor data)
    return { device with staging }

/-- Adds a reference to a staged tensor; imported memory is not counted. -/
def retain (operand : Operand) (staging : Staging) : Staging :=
  match operand with
  | imported _ => staging
  | staged tensor => staging.retain tensor

/-- Drops a reference to a staged tensor. -/
def release (operand : Operand) (staging : Staging) : Staging :=
  match operand with
  | imported _ => staging
  | staged tensor => staging.release tensor

/-- Adds a reference for each operand. -/
def retainAll (operands : List Operand) (staging : Staging) : Staging :=
  operands.foldl (fun staging operand => operand.retain staging) staging

/-- Drops a reference for each operand. -/
def releaseAll (operands : List Operand) (staging : Staging) : Staging :=
  operands.foldl (fun staging operand => operand.release staging) staging

/-- Writes one operand with the result of a function that may have failed. -/
def store (operand : Operand) (device : Device) (result : Except Fault (Array Float32)) :
    Device × Except Fault Unit :=
  match result with
  | .error fault => (device, .error fault)
  | .ok data =>
    match operand.write device data with
    | .error fault => (device, .error fault)
    | .ok written => (written, .ok ())

end Operand

end NeuralGraph.Accelerator
