import NeuralGraph.Accelerator.Operand

/-! The native functions for activations and for softmax over matrix rows. -/

namespace NeuralGraph.Accelerator

/-- The activations that run natively. -/
def nativeCurves : List Activation.Curve :=
  [.reLu, .boundedReLu, .sigmoid, .tanH, .linear, .abs]

structure ElementwiseFunction where
  activation : Activation
  input : Operand
  output : Operand

namespace ElementwiseFunction

def validate (activation : Activation) (input output : TensorInfo) : Support :=
  if !nativeCurves.contains activation.curve then
    .unsupported s!"{activation.curve.name} activation has no native function"
  else if input.shape ≠ output.shape then
    .unsupported s!"activation output {output.shape} differs from input {input.shape}"
  else .supported

def configure (activation : Activation) (input output : Operand) :
    Except Fault ElementwiseFunction :=
  if !nativeCurves.contains activation.curve then
    .error (.unsupported (.curve activation.curve))
  else if input.shape ≠ output.shape then
    .error (.invalidConfiguration (.activationShapes output.shape input.shape))
  else .ok { activation, input, output }

def run (function : ElementwiseFunction) (device : Device) : Device × Except Fault Unit :=
  function.output.store device do
    return (← function.input.read device).map function.activation.apply

end ElementwiseFunction

/-- Softmax over rows of `columns` values. -/
structure SoftmaxFunction where
  beta : Float32
  columns : Nat
  input : Operand
  output : Operand

namespace SoftmaxFunction

def validate (input output : TensorInfo) : Support :=
  if input.shape.rank ≠ 2 then .unsupported s!"softmax needs a 2D input, got {input.shape}"
  else if input.shape ≠ output.shape then
    .unsupported "softmax output shape differs from input"
  else .supported

def configure (beta : Float32) (input output : Operand) : Except Fault SoftmaxFunction :=
  match input.shape.extents with
  | [_, columns] =>
    if input.shape ≠ output.shape then
      .error (.invalidConfiguration (.softmaxShapes input.shape output.shape))
    else if columns = 0 then .error (.staging .zeroLength)
    else .ok { beta, columns := columns.toNat, input, output }
  | _ => .error (.invalidConfiguration (.softmaxShapes input.shape output.shape))

/-- Each value becomes `exp ((x - max) * beta)`, divided by the sum over the row. -/
def normalize (beta : Float32) (row : List Float32) : List Float32 :=
  let largest := Scalar.maximum row
  let powers := row.map fun x => ((x - largest) * beta).exp
  let total := Scalar.sum powers
  powers.map (· / total)

/-- Normalizes `rows` rows and leaves what follows them as it is. -/
def normalizeRows (beta : Float32) (columns : Nat) : Nat → List Float32 → List Float32
  | 0, rest => rest
  | rows + 1, values =>
    normalize beta (values.take columns) ++
      normalizeRows beta columns rows (values.drop columns)

def run (function : SoftmaxFunction) (device : Device) : Device × Except Fault Unit :=
  function.output.store device do
    let data ← function.input.read device
    return (normalizeRows function.beta function.columns (data.size / function.columns)
      data.toList).toArray

end SoftmaxFunction

end NeuralGraph.Accelerator
