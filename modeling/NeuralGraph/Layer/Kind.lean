import NeuralGraph.Layer.Activation
import NeuralGraph.Layer.Convolution
import NeuralGraph.Layer.Dense
import NeuralGraph.Layer.Lstm.Inference
import NeuralGraph.Layer.Pooling

/-! What a layer does: its operation with parameters and constants, the slots it needs, and the
shapes it gives. -/

namespace NeuralGraph

inductive LayerKind where
  | input (binding : UInt32)
  | output (binding : UInt32)
  | activation (activation : Activation)
  | softmax (beta : Float32)
  | addition
  | fullyConnected (dense : Dense) (weights : Constant) (bias : Option Constant)
  | convolution2d (convolution : Convolution) (weights : Constant) (bias : Option Constant)
  | pooling2d (pooling : Pooling)
  | lstm (cell : Lstm.Cell) (params : Lstm.Params)
deriving BEq

/-- Names a constant operand of a layer. -/
inductive ConstantName where
  | weights
  | bias
  | lstm (role : Lstm.Role)
deriving DecidableEq

/-- The constant that a text names: roles by their labels in a cell, weights and everything else
as the bias in other layers. -/
def ConstantName.ofLabel? (operation : Operation) (text : String) : Option ConstantName :=
  if operation = .lstm then (Lstm.Role.ofLabel? text).map lstm
  else if text = "weights" then some weights
  else some bias

namespace LayerKind

def operation : LayerKind → Operation
  | input _ => .input
  | output _ => .output
  | activation _ => .activation
  | softmax _ => .softmax
  | addition => .addition
  | fullyConnected .. => .fullyConnected
  | convolution2d .. => .convolution2d
  | pooling2d _ => .pooling2d
  | lstm .. => .lstm

def inputCount : LayerKind → Nat
  | input _ => 0
  | addition => 2
  | lstm .. => 3
  | _ => 1

def outputCount : LayerKind → Nat
  | output _ => 0
  | lstm .. => 4
  | _ => 1

/-- Binding layers stand for the ends of a network and compute nothing. -/
def isBinding : LayerKind → Bool
  | input _ | output _ => true
  | _ => false

/-- The output shapes of a layer whose inputs are present in the right number. -/
def inferChecked (kind : LayerKind) (inputs : List Shape) :
    Except ShapeError (List Shape) :=
  match kind, inputs with
  | input _, _ => .error (.invalidConfiguration .boundByCaller)
  | output _, _ => .ok []
  | activation _, shape :: _ | softmax _, shape :: _ => .ok [shape]
  | addition, a :: b :: _ =>
    match Shape.broadcast a b with
    | some shape => .ok [shape]
    | none => .error (.mismatch (.broadcast a b))
  | fullyConnected dense weights bias, shape :: _ => do
    return [← dense.inferShape weights bias shape]
  | convolution2d convolution weights bias, shape :: _ => do
    return [← convolution.inferShape weights bias shape]
  | pooling2d pooling, shape :: _ => do return [← pooling.inferShape shape]
  | lstm cell params, shapes => Lstm.inferShapes cell params shapes
  | kind, shapes => .error (.inputCount kind.inputCount shapes.length)

/-- The output shapes that follow from the input shapes. -/
def inferShapes (kind : LayerKind) (inputs : List Shape) : Except ShapeError (List Shape) :=
  if inputs.length = kind.inputCount then kind.inferChecked inputs
  else .error (.inputCount kind.inputCount inputs.length)

/-- A bias is given exactly when it is enabled. -/
def checkBias (enabled : Bool) (bias : Option Constant) : Except ParameterFault Unit :=
  match enabled, bias with
  | true, none => .error .biasMissing
  | false, some _ => .error .biasUnexpected
  | _, _ => .ok ()

/-- Consistency of the parameters, whatever the input shapes are. -/
def checkParameters : LayerKind → Except ParameterFault Unit
  | fullyConnected dense _ bias => checkBias dense.biasEnabled bias
  | convolution2d convolution _ bias => checkBias convolution.biasEnabled bias
  | lstm cell params =>
    match params.checkGroups cell with
    | .ok _ => .ok ()
    | .error fault => .error (.lstm fault)
  | _ => .ok ()

/-- The constant operands, in a fixed order. -/
def constants : LayerKind → List Constant
  | fullyConnected _ weights bias | convolution2d _ weights bias => weights :: bias.toList
  | lstm _ params => params.tensors.map (·.2)
  | _ => []

def constant? : LayerKind → ConstantName → Option Constant
  | fullyConnected _ weights _, .weights | convolution2d _ weights _, .weights => some weights
  | fullyConnected _ _ bias, .bias | convolution2d _ _ bias, .bias => bias
  | lstm _ params, .lstm role => params.get? role
  | _, _ => none

/-- Puts a constant under a name that the layer has; other layers stay as they are. -/
def setConstant (kind : LayerKind) (name : ConstantName) (constant : Constant) : LayerKind :=
  match kind, name with
  | fullyConnected dense _ bias, .weights => fullyConnected dense constant bias
  | fullyConnected dense weights _, .bias => fullyConnected dense weights (some constant)
  | convolution2d convolution _ bias, .weights => convolution2d convolution constant bias
  | convolution2d convolution weights _, .bias =>
    convolution2d convolution weights (some constant)
  | lstm cell params, .lstm role => lstm cell (params.set role constant)
  | kind, _ => kind

end LayerKind

end NeuralGraph
