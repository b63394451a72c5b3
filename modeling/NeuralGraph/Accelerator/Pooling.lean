import NeuralGraph.Accelerator.Operand

/-! The native function for pooling. The windows of both axes are worked out once, when the
function is configured. -/

namespace NeuralGraph.Accelerator

/-- What one window covers along an axis. -/
structure Span where
  /-- The first element covered. -/
  start : Nat
  /-- One past the last element covered. -/
  stop : Nat
  /-- Positions covered, padding included. -/
  padded : Nat
deriving DecidableEq

/-- Moves a coordinate onto the axis. -/
def clampTo (length : Nat) (coordinate : Int) : Nat := (min coordinate length).toNat

/-- The spans of every output position. -/
def spans (positions length window stride low high : Nat) : List Span :=
  (List.range positions).map fun (position : Nat) =>
    let start : Int := (position : Int) * stride - low
    let stop : Int := min (start + window) (length + high)
    { start := clampTo length start
      stop := clampTo length stop
      padded := (stop - start).toNat }

structure PoolingFunction where
  algorithm : Pooling.Algorithm
  countPadding : Bool
  planes : Nat
  height : Nat
  width : Nat
  rows : List Span
  columns : List Span
  input : Operand
  output : Operand

namespace PoolingFunction

def validate (pooling : Pooling) (input output : TensorInfo) : Support :=
  if pooling.algorithm = .l2 then .unsupported "L2 pooling has no native function"
  else
    match input.shape.extents, output.shape.extents with
    | [batch, channels, height, width], [outBatch, outChannels, _, _] =>
      if batch ≠ outBatch ∨ channels ≠ outChannels then
        .unsupported
          s!"pooling cannot change batch or channels ({input.shape} -> {output.shape})"
      else if height = 0 ∨ width = 0 then
        .unsupported s!"pooling input {input.shape} has an empty plane"
      else .supported
    | _, _ =>
      .unsupported s!"pooling requires 4D tensors, got {input.shape} -> {output.shape}"

def configure (pooling : Pooling) (input output : Operand) : Except Fault PoolingFunction :=
  match input.shape.sizes, output.shape.sizes with
  | [batch, channels, height, width], [_, _, outHeight, outWidth] =>
    if pooling.algorithm = .l2 then .error (.unsupported .l2Pooling)
    else if height = 0 ∨ width = 0 then .error (.staging .zeroLength)
    else
      let (rows, columns) :=
        if pooling.isGlobal then
          (spans outHeight height height 1 0 0, spans outWidth width width 1 0 0)
        else
          (spans outHeight height pooling.poolHeight.toNat pooling.strideY.toNat
            pooling.padTop.toNat pooling.padBottom.toNat,
           spans outWidth width pooling.poolWidth.toNat pooling.strideX.toNat
            pooling.padLeft.toNat pooling.padRight.toNat)
      .ok {
        algorithm := pooling.algorithm
        countPadding := pooling.padding = .ignoreValue && !pooling.isGlobal
        planes := batch * channels
        height, width, rows, columns, input, output }
  | _, _ => .error (.invalidConfiguration (.poolingRank input.shape output.shape))

/-- The elements of a plane under a pair of spans, row by row. -/
def window (width : Nat) (plane : Array Float32) (row column : Span) : List Float32 :=
  (List.range' row.start (row.stop - row.start)).flatMap fun y =>
    (plane.extract (y * width + column.start) (y * width + column.stop)).toList

/-- One output value; a pair of spans without elements gives zero. -/
def reduce (function : PoolingFunction) (plane : Array Float32) (row column : Span) : Float32 :=
  let count := (row.stop - row.start) * (column.stop - column.start)
  if count = 0 then 0
  else
    let values := window function.width plane row column
    match function.algorithm with
    | .max => Scalar.maximum values
    | _ =>
      let divisor := if function.countPadding then row.padded * column.padded else count
      Scalar.sum values / Float32.ofNat divisor

/-- Every output value of one plane. -/
def pool (function : PoolingFunction) (plane : Array Float32) : List Float32 :=
  function.rows.flatMap fun row => function.columns.map fun column =>
    function.reduce plane row column

def run (function : PoolingFunction) (device : Device) : Device × Except Fault Unit :=
  function.output.store device do
    let data ← function.input.read device
    let area := function.height * function.width
    let planes := min function.planes (data.size / area)
    return ((List.range planes).flatMap fun plane =>
      function.pool (data.extract (plane * area) ((plane + 1) * area))).toArray

end PoolingFunction

end NeuralGraph.Accelerator
