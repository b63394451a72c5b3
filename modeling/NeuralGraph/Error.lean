import NeuralGraph.Graph.Slot
import NeuralGraph.Layer.Fault
import NeuralGraph.Layer.Operation

/-! Every way an operation on a graph, a tensor or a network can fail. A constructor holds the
cause; the wording is in the `message` functions. -/

namespace NeuralGraph

/-- The name a backend goes by. -/
abbrev BackendId := String

inductive Side where
  | input
  | output
deriving DecidableEq

def Side.name : Side → String
  | input => "input"
  | output => "output"

/-- An edit that the graph refuses. Layers are named by their labels. -/
inductive StructuralFault where
  | stillRead (layer : String) (consumers : Nat)
  | slotCounts (layer : String) (inputs outputs : Nat) (operation : Operation)
      (newInputs newOutputs : Nat)
  | noOutputSlot (layer : String) (index : Nat)
  | noInputSlot (layer : String) (index : Nat)
  | alreadyConnected (index : Nat) (layer : String) (source : OutputRef)
  | wouldCycle (producer consumer : String)
  | notConnected (index : Nat) (layer : String)
  | insertUnconnected (index : Nat) (layer : String)
  | notSpliceable (operation : Operation)
  | cyclic
deriving DecidableEq

def StructuralFault.message : StructuralFault → String
  | stillRead layer consumers =>
    s!"cannot remove {layer}: {consumers} consumer(s) still connected to its outputs"
  | slotCounts layer inputs outputs operation newInputs newOutputs =>
    s!"cannot replace {layer} ({inputs} in / {outputs} out) with " ++
      s!"{operation} ({newInputs} in / {newOutputs} out)"
  | noOutputSlot layer index => s!"{layer} has no output slot {index}"
  | noInputSlot layer index => s!"{layer} has no input slot {index}"
  | alreadyConnected index layer source =>
    s!"input slot {index} of {layer} is already connected to output {source.index} " ++
      s!"of layer #{source.layer}"
  | wouldCycle producer consumer =>
    s!"connecting {producer} to {consumer} would create a cycle"
  | notConnected index layer => s!"input slot {index} of {layer} is not connected"
  | insertUnconnected index layer =>
    s!"cannot insert before unconnected input slot {index} of {layer}"
  | notSpliceable operation =>
    "only single-input, single-output layers can be spliced into an edge, " ++
      s!"got {operation}"
  | cyclic => "cycle detected in graph"

/-- Why a layer is not valid where it stands. -/
inductive LayerFault where
  | inputNotConnected (slot : Nat)
  | inputWithoutInfo (slot : Nat) (source : OutputRef)
  | parameters (fault : ParameterFault)
  | outputWithoutInfo (slot : Nat)
  | unresolved
  | noHandle (side : Side)
  | tensorCount (expected : Nat) (side : Side) (handles infos : Nat)
  | handleShape (side : Side) (index : Nat) (bound resolved : Shape)
deriving DecidableEq

def LayerFault.message : LayerFault → String
  | inputNotConnected slot => s!"input slot {slot} is not connected"
  | inputWithoutInfo slot source =>
    s!"input slot {slot} is fed by output {source.index} of layer #{source.layer} " ++
      "which has no TensorInfo"
  | parameters fault => fault.message
  | outputWithoutInfo slot => s!"TensorInfo not set on OutputSlot[{slot}]"
  | unresolved => "layer has not been shape-resolved"
  | noHandle side => s!"no tensor handle bound for an {side.name} slot"
  | tensorCount expected side handles infos =>
    s!"expected {expected} {side.name} tensors, got {handles} handles and {infos} infos"
  | handleShape side index bound resolved =>
    s!"{side.name} handle {index} has shape {bound} but the layer resolved {resolved}"

/-- A value that no parameter of its kind may take. -/
inductive InvalidParameter where
  | constantLength (length : Nat) (shape : Shape)
  | tensorLength (length : Nat) (shape : Shape)
  | copyLength (length : Nat) (shape : Shape) (held : Nat)
  | rounding (code : UInt32)
  | cellActivation (code : UInt32)
  | severity (text : String)
  | notLstm (operation : Operation)
deriving DecidableEq

def InvalidParameter.message : InvalidParameter → String
  | constantLength length shape =>
    s!"constant data length {length} does not match shape {shape} " ++
      s!"(expected {shape.elementCount})"
  | tensorLength length shape =>
    s!"data length {length} does not match shape {shape} (expected {shape.elementCount})"
  | copyLength length shape held =>
    s!"copy of {length} elements into tensor {shape} of {held} elements"
  | rounding code => s!"unsupported output shape rounding {code}"
  | cellActivation code => s!"wrong type of LSTM activation function: {code}"
  | severity text => "unknown log severity \x27" ++ text ++ "\x27"
  | notLstm operation => s!"LSTM workload built for {operation}"

inductive Error where
  | structural (cause : StructuralFault)
  | shapeMismatch (layer : String) (slot : Nat) (expected actual : Shape)
  | shape (layer : String) (cause : ShapeError)
  | layerValidation (layer : String) (cause : LayerFault)
  | invalidParameter (cause : InvalidParameter)
  | unknownLayer (id : LayerId)
  | unsupportedLayer (layer : String) (reasons : List String)
  | backend (backend : BackendId) (message : String)
  | logging (message : String)
  /-- Memory was addressed or asked for where there is none. -/
  | outOfBounds
deriving DecidableEq

/-- The class of an error. -/
def Error.kind : Error → String
  | structural .. => "Structural"
  | shapeMismatch .. => "ShapeMismatch"
  | shape .. => "Shape"
  | layerValidation .. => "LayerValidation"
  | invalidParameter .. => "InvalidParameter"
  | unknownLayer .. => "UnknownLayer"
  | unsupportedLayer .. => "UnsupportedLayer"
  | backend .. => "Backend"
  | logging .. => "Logging"
  | outOfBounds => "OutOfBounds"

def Error.message : Error → String
  | structural cause => s!"structural error: {cause.message}"
  | shapeMismatch layer slot expected actual =>
    s!"{layer}: TensorShape set on OutputSlot[{slot}] does not match the inferred shape: " ++
      s!"expected {expected}, got {actual}"
  | shape layer cause => s!"{layer}: shape inference failed: {cause.message}"
  | layerValidation layer cause => s!"{layer}: {cause.message}"
  | invalidParameter cause => s!"Invalid parameter: {cause.message}"
  | unknownLayer id => s!"unknown layer #{id}"
  | unsupportedLayer layer reasons =>
    let listed := "; ".intercalate reasons
    s!"no backend supports layer {layer}: {listed}"
  | backend id message => s!"backend {id}: {message}"
  | logging message => s!"logging: {message}"
  | outOfBounds => "index out of bounds"

end NeuralGraph
