import NeuralGraph.Layer.Activation
import NeuralGraph.Reference.Fault
import NeuralGraph.Reference.View
import NeuralGraph.Tensor.RowMajor

/-! Reference kernels for activation, softmax and addition. -/

namespace NeuralGraph.Reference

def activation (activation : Activation) (input : View) : Array Float32 :=
  input.data.map activation.apply

/-- Each value becomes `exp (beta * (x - max))`, divided by the sum over the row. -/
def softmaxRow (beta : Float32) (row : List Float32) : List Float32 :=
  let peak := Scalar.maximum row
  let weights := row.map fun x => (beta * (x - peak)).exp
  let total := Scalar.sum weights
  weights.map (· / total)

/-- Row `index` of values cut into rows of `width`; the last row may be shorter. -/
def row (data : Array Float32) (width index : Nat) : List Float32 :=
  (data.extract (index * width) ((index + 1) * width)).toList

/-- Softmax along the last axis; rows without elements give nothing. -/
def softmax (beta : Float32) (input : View) : Except Error (Array Float32) :=
  match input.shape.sizes.getLast? with
  | none => .error Fault.scalarSoftmax.error
  | some 0 => .ok #[]
  | some width =>
    let rows := (input.data.size + width - 1) / width
    .ok ((List.range rows).flatMap fun index => softmaxRow beta (row input.data width index)).toArray

/-- The position that an operand contributes to a flat position of the broadcast. The axes of the
operand are the last ones of the broadcast; an extent of one is read at zero, wherever the
broadcast is. -/
def operandIndex? (out operand : List Nat) (flat : Nat) : Option Nat := do
  let coordinates ← RowMajor.decode? out flat
  RowMajor.encode? operand
    (List.zipWith (fun extent coordinate => if extent = 1 then 0 else coordinate) operand
      (coordinates.drop (out.length - operand.length)))

/-- Reads an operand at a flat position of the broadcast, which must have all of its axes. -/
def readBroadcast (out : Shape) (operand : View) (flat : Nat) : Except Error Float32 :=
  if out.rank < operand.shape.rank then .error .outOfBounds
  else
    match operandIndex? out.sizes operand.shape.sizes flat with
    | none => .error .outOfBounds
    | some index => fetch operand.data index

/-- The sum of two operands, both stretched to the output shape. -/
def addition (a b : View) (out : Shape) : Except Error (Array Float32) := do
  tabulate (← out.count) fun flat => do
    let x ← readBroadcast out a flat
    let y ← readBroadcast out b flat
    return x + y

end NeuralGraph.Reference
