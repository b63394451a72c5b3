import NeuralGraph.Tensor.Capacity

/-! Values of whole tensors: listed, uniform, or by a repeating pattern. -/

namespace NeuralGraph

/-- How the values of a tensor are given. -/
inductive Fill where
  | values (data : Array Float32)
  | uniform (value : Float32)
  /-- Multiples of a scale around zero that repeat with the modulus. -/
  | pattern (seed modulus : Nat) (scale : Float32)
deriving Inhabited

namespace Fill

/-- The value of a pattern at one position. -/
def patternAt (seed modulus : Nat) (scale : Float32) (index : Nat) : Float32 :=
  (Float32.ofNat ((index + seed) * 7 % modulus) - Float32.ofNat (modulus / 2)) * scale

/-- Whether a pattern has values for a number of positions: the numbers that it reduces are
machine words, and the modulus is not zero. -/
def isDefined (seed modulus count : Nat) : Bool :=
  seed < Capacity.wordLimit &&
    (count = 0 || (modulus ≠ 0 && (count - 1 + seed) * 7 < Capacity.wordLimit))

/-- The values for a tensor with `count` elements. Listed values stay as they are, whatever
their number. -/
def data (fill : Fill) (count : Nat) : Except Error (Array Float32) :=
  match fill with
  | values data => .ok data
  | uniform value => .ok (Array.replicate count value)
  | pattern seed modulus scale =>
    if isDefined seed modulus count then
      .ok ((Array.range count).map (patternAt seed modulus scale))
    else .error .outOfBounds

/-- The pattern that starts a number of positions further on; other fills stay. -/
def shift (fill : Fill) (positions : Nat) : Fill :=
  match fill with
  | pattern seed modulus scale => pattern (seed + positions) modulus scale
  | fill => fill

end Fill

/-- A tensor as a caller describes it: its memory may be foreign, and it may bring values. -/
structure TensorSource where
  info : TensorInfo
  foreign : Bool := false
  fill : Option Fill := none
deriving Inhabited

/-- The values that a tensor brings. Listed values are taken as they are; others have to fit a
buffer. -/
def TensorSource.data (source : TensorSource) : Except Error (Array Float32) :=
  match source.fill with
  | none => .ok #[]
  | some (.values data) => .ok data
  | some fill => do fill.data (← source.info.shape.bufferSize)

end NeuralGraph
