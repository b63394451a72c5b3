import NeuralGraph.Error
import NeuralGraph.Scalar

/-! The configuration of an LSTM cell and the activation it names. -/

namespace NeuralGraph.Lstm

/-- What a cell computes with. The activation stays the code that models carry until a
workload is built; a clipping threshold of zero is off. -/
structure Cell where
  activationCode : UInt32 := 4
  cellClip : Float32 := 0
  projectionClip : Float32 := 0
  /-- The input gate is one minus the forget gate. -/
  coupled : Bool := true
  peephole : Bool := false
  projection : Bool := false
deriving BEq, Inhabited

/-- The number of gates that a cell writes to its scratch buffer. -/
def Cell.gates (cell : Cell) : Nat := if cell.coupled then 3 else 4

inductive Activation where
  | none
  | reLu
  | reLu6
  | tanH
  | sigmoid
deriving DecidableEq, Inhabited

namespace Activation

def ofCode? (code : UInt32) : Option Activation :=
  if code = 0 then some none
  else if code = 1 then some reLu
  else if code = 3 then some reLu6
  else if code = 4 then some tanH
  else if code = 6 then some sigmoid
  else Option.none

/-- The activation with the given code, as models number them. -/
def ofCode (code : UInt32) : Except Error Activation :=
  match ofCode? code with
  | some activation => .ok activation
  | Option.none => .error (.invalidParameter (.cellActivation code))

def name : Activation → String
  | none => "None"
  | reLu => "ReLu"
  | reLu6 => "ReLu6"
  | tanH => "TanH"
  | sigmoid => "Sigmoid"

def apply : Activation → Float32 → Float32
  | none, x => x
  | reLu, x => Scalar.max x 0
  | reLu6, x => Scalar.clamp 0 6 x
  | tanH, x => x.tanh
  | sigmoid, x => Scalar.sigmoid x

end Activation

end NeuralGraph.Lstm
