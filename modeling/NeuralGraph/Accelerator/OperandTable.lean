import NeuralGraph.Accelerator.Operand

/-! Operands under names, with the memory they live in. Each name holds one reference. -/

namespace NeuralGraph.Accelerator

structure OperandTable where
  device : Device := {}
  entries : List (String × Operand) := []

namespace OperandTable

def find? (table : OperandTable) (name : String) : Option Operand := table.entries.lookup name

/-- The operand under a name that is staged. -/
def findStaged? (table : OperandTable) (name : String) : Option StagedRef :=
  match table.find? name with
  | some (.staged tensor) => some tensor
  | _ => none

def withStaging (table : OperandTable) (staging : Staging) : OperandTable :=
  { table with device := { table.device with staging } }

/-- Takes a name away and drops its reference. -/
def erase (table : OperandTable) (name : String) : OperandTable :=
  match table.find? name with
  | none => table
  | some operand =>
    { table.withStaging (operand.release table.device.staging) with
      entries := table.entries.filter (·.1 != name) }

/-- Puts an operand under a name; what the name held before is dropped. -/
def insert (table : OperandTable) (name : String) (operand : Operand) : OperandTable :=
  let erased := table.erase name
  { erased with entries := (name, operand) :: erased.entries }

/-- Stages zeros under a name. -/
def allocate (table : OperandTable) (name : String) (shape : Shape) :
    OperandTable × Except Fault Unit :=
  match table.device.staging.allocate shape with
  | (booked, .error fault) => (table.withStaging booked, .error (.staging fault))
  | (allocated, .ok tensor) => ((table.withStaging allocated).insert name (.staged tensor), .ok ())

/-- Uses caller memory in place, under a name. -/
def importTensor (table : OperandTable) (name : String) (handle : Handle) (host : HostMemory) :
    Except Fault OperandTable := do
  let operand ← Operand.ofHandle handle
  return { table with device := { table.device with host } }.insert name operand

/-- A second reference to the operand under another name. -/
def alias? (table : OperandTable) (source name : String) : Option OperandTable :=
  (table.find? source).map fun operand =>
    (table.withStaging (operand.retain table.device.staging)).insert name operand

def write (table : OperandTable) (operand : Operand) (data : Array Float32) :
    Except Fault OperandTable := do
  return { table with device := ← operand.write table.device data }

/-- Writes constant data to a staged tensor and counts the upload. -/
def upload (table : OperandTable) (tensor : StagedRef) (data : Array Float32) :
    Except Fault OperandTable := do
  return table.withStaging (← ofStaging (table.device.staging.upload tensor data))

end OperandTable

end NeuralGraph.Accelerator
