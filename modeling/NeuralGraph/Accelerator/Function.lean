import NeuralGraph.Accelerator.Elementwise
import NeuralGraph.Accelerator.Lstm
import NeuralGraph.Accelerator.Pooling

/-! The life of a native function: it is configured, prepared once, run any number of times and
released. While it lives it refers to its operands and staged constants. -/

namespace NeuralGraph.Accelerator

inductive Plan where
  | pooling (function : PoolingFunction)
  | elementwise (function : ElementwiseFunction)
  | softmax (function : SoftmaxFunction)
  | lstm (function : LstmFunction)

namespace Plan

def name : Plan → String
  | pooling _ => "pooling"
  | elementwise _ => "activation"
  | softmax _ => "softmax"
  | lstm _ => "lstm"

def operands : Plan → List Operand
  | pooling function => [function.input, function.output]
  | elementwise function => [function.input, function.output]
  | softmax function => [function.input, function.output]
  | lstm function => function.operands.toList

/-- The staged constants that the function reads. -/
def constants : Plan → List StagedConstant
  | lstm function => function.constants
  | _ => []

def run : Plan → Device → Device × Except Fault Unit
  | pooling function, device => function.run device
  | elementwise function, device => function.run device
  | softmax function, device => function.run device
  | lstm function, device => function.run device

end Plan

structure NativeFunction where
  plan : Plan
  prepared : Bool := false

namespace NativeFunction

/-- Takes a reference to everything that a plan uses. -/
def acquire (plan : Plan) (staging : Staging) : NativeFunction × Staging :=
  ({ plan },
   plan.constants.foldl (fun staging constant => staging.retain constant.tensor)
    (Operand.retainAll plan.operands staging))

/-- Drops the references of the function. -/
def release (function : NativeFunction) (staging : Staging) : Staging :=
  Operand.releaseAll function.plan.operands
    (function.plan.constants.foldl (fun staging constant => staging.release constant.tensor)
      staging)

/-- Uploads the constants the first time; later calls do nothing. -/
def prepare (function : NativeFunction) (staging : Staging) :
    Except Fault (NativeFunction × Staging) :=
  if function.prepared then .ok (function, staging)
  else do
    let uploaded ← LstmFunction.uploadEach function.plan.constants staging
    return ({ function with prepared := true }, uploaded)

/-- Runs a prepared function. -/
def run (function : NativeFunction) (device : Device) : Device × Except Fault Unit :=
  if function.prepared then function.plan.run device
  else (device, .error (.unprepared function.plan.name))

end NativeFunction

end NeuralGraph.Accelerator
