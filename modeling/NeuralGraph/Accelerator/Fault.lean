import NeuralGraph.Backend.Basic

/-! Why the accelerator refuses to bind or to run a native function. -/

namespace NeuralGraph.Accelerator

/-- Operands and constants that do not go together. -/
inductive Misfit where
  | tensorCount (side : Side) (count : Nat)
  | activationShapes (output input : Shape)
  | softmaxShapes (input output : Shape)
  | poolingRank (input output : Shape)
  | cell (fault : Lstm.Fault)
  | notStaged (role : Lstm.Role)
  | cellInputs (count : Nat)
  | cellOutputs (count : Nat)
deriving DecidableEq

def Misfit.message : Misfit → String
  | tensorCount side count => s!"expected one {side.name} tensor, got {count}"
  | activationShapes output input => s!"activation output {output} differs from input {input}"
  | softmaxShapes input output =>
    s!"softmax needs matching 2D tensors, got {input} -> {output}"
  | poolingRank input output => s!"pooling requires 4D tensors, got {input} -> {output}"
  | cell fault => fault.message
  | notStaged role => s!"{role.name} was not staged"
  | cellInputs count => s!"LSTM takes 3 inputs, got {count}"
  | cellOutputs count => s!"LSTM produces 4 outputs, got {count}"

/-- Operations without a native function. -/
inductive Missing where
  | operation (kind : Operation)
  | curve (kind : Activation.Curve)
  | l2Pooling
deriving DecidableEq

def Missing.message : Missing → String
  | operation kind => s!"{kind} has no single-input native function"
  | curve kind => s!"{kind.name} activation"
  | l2Pooling => "L2 pooling"

inductive Fault where
  | invalidConfiguration (cause : Misfit)
  | unsupported (cause : Missing)
  | staging (fault : StagingFault)
  | unprepared (function : String)
  | foreignHandle
deriving DecidableEq

/-- The class of a fault. -/
def Fault.kind : Fault → String
  | invalidConfiguration .. => "InvalidConfiguration"
  | unsupported .. => "Unsupported"
  | staging .zeroLength => "ZeroLength"
  | staging (.tooLarge ..) => "TooLarge"
  | staging (.lengthMismatch ..) => "LengthMismatch"
  | unprepared .. => "Unprepared"
  | foreignHandle => "ForeignHandle"

def Fault.message : Fault → String
  | invalidConfiguration cause => s!"invalid configuration: {cause.message}"
  | unsupported cause => s!"unsupported: {cause.message}"
  | staging fault => fault.message
  | unprepared function => s!"function {function} was run before being prepared"
  | foreignHandle => "tensor handle is not host-accessible"

/-- A fault as the failure of this backend; a lack of memory is nobody's in particular. -/
def Fault.error : Fault → Error
  | staging (.tooLarge _) => .outOfBounds
  | fault => .backend Backend.acceleratorId fault.message

/-- Reads a fault of staging memory as a fault of the accelerator. -/
def ofStaging {α : Type} (result : Except StagingFault α) : Except Fault α :=
  match result with
  | .ok value => .ok value
  | .error fault => .error (.staging fault)

end NeuralGraph.Accelerator
