import NeuralGraph.Graph.Validation
import NeuralGraph.Memory.Device

/-! Backends compile layers in two phases. The capability check looks at descriptors only and
answers no as a matter of course; a workload is built after a yes and binds tensor memory. -/

namespace NeuralGraph

/-- The answer of a capability check. -/
inductive Support where
  | supported
  | unsupported (reason : String)
deriving DecidableEq, Inhabited

namespace Support

def isSupported : Support → Bool
  | supported => true
  | unsupported _ => false

/-- Chains two checks; the first rejection stays. -/
def andThen : Support → Support → Support
  | supported, next => next
  | rejected, _ => rejected

/-- Requires every descriptor to have one element type. -/
def requireElementType (infos : List TensorInfo) (type : ElementType) (backend : BackendId) :
    Support :=
  match infos.find? (·.elementType ≠ type) with
  | none => supported
  | some info =>
    unsupported s!"{backend} only supports {type} tensors, got {info.elementType}"

end Support

/-- A layer's operation with the memory bound to its slots. -/
structure QueueDescriptor where
  kind : LayerKind
  inputs : List Handle
  outputs : List Handle

namespace QueueDescriptor

/-- The first handle, counted from `index`, whose shape is not the resolved one. -/
def checkShapes (operation : Operation) (side : Side) :
    Nat → List Handle → List TensorInfo → Except Error Unit
  | index, handle :: handles, info :: infos =>
    if handle.shape = info.shape then checkShapes operation side (index + 1) handles infos
    else .error (.layerValidation operation.name
      (.handleShape side index handle.shape info.shape))
  | _, _, _ => .ok ()

/-- Counts first, then shapes. -/
def checkSide (operation : Operation) (side : Side) (expected : Nat) (handles : List Handle)
    (infos : List TensorInfo) : Except Error Unit :=
  if handles.length = expected ∧ infos.length = expected then
    checkShapes operation side 0 handles infos
  else .error (.layerValidation operation.name
    (.tensorCount expected side handles.length infos.length))

/-- The handles must fit the slots of the kind and the resolved shapes. -/
def validate (descriptor : QueueDescriptor) (info : WorkloadInfo) : Except Error Unit := do
  let kind := descriptor.kind
  checkSide kind.operation .input kind.inputCount descriptor.inputs info.inputs
  checkSide kind.operation .output kind.outputCount descriptor.outputs info.outputs

end QueueDescriptor

/-- A layer made ready to run. `execute` may be called any number of times; `release` gives back
what the workload holds and ends it. -/
structure Workload where
  name : String
  execute : Device → Device × Except Error Unit
  release : Device → Device := id

/-- A compiler of layers. `create` is for descriptors that `supports` has accepted. -/
structure Backend where
  id : BackendId
  supports : LayerKind → List TensorInfo → List TensorInfo → Support
  create : QueueDescriptor → WorkloadInfo → Device → Device × Except Error Workload

namespace Backend

/-- The id of the reference backend. -/
def referenceId : BackendId := "CpuRef"

/-- The id of the staged accelerator backend. -/
def acceleratorId : BackendId := "Accel"

end Backend

end NeuralGraph
