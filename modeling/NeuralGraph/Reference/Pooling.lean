import NeuralGraph.Reference.Convolution

/-! Reference kernel for two-dimensional pooling. Windows are clipped to the padded input; one
that covers no element gives zero. -/

namespace NeuralGraph.Reference

/-- How windows move along one axis, in plain numbers. -/
structure Sweep where
  extent : Nat
  window : Nat
  stride : Nat
  low : Nat
  high : Nat

/-- Where one window starts and stops, counted from the first element of the axis. -/
structure Reach where
  start : Int
  stop : Int

namespace Sweep

/-- The window at an output position, clipped to the far end of the padding. -/
def reach (sweep : Sweep) (position : Nat) : Reach :=
  let start : Int := (position : Int) * sweep.stride - sweep.low
  { start, stop := min (start + sweep.window) (sweep.extent + sweep.high) }

end Sweep

namespace Reach

/-- Positions covered, padding included. -/
def padded (reach : Reach) : Int := reach.stop - reach.start

/-- The first element covered. -/
def first (reach : Reach) : Nat := reach.start.toNat

/-- One past the last element covered. -/
def last (reach : Reach) (extent : Nat) : Nat := (min reach.stop extent).toNat

end Reach

/-- The rows and columns that a pooling layer sweeps over a plane. -/
def sweeps (pooling : Pooling) (height width : Nat) : Sweep × Sweep :=
  if pooling.isGlobal then (⟨height, height, 1, 0, 0⟩, ⟨width, width, 1, 0, 0⟩)
  else
    (⟨height, pooling.poolHeight.toNat, pooling.strideY.toNat, pooling.padTop.toNat,
      pooling.padBottom.toNat⟩,
     ⟨width, pooling.poolWidth.toNat, pooling.strideX.toNat, pooling.padLeft.toNat,
      pooling.padRight.toNat⟩)

/-- The elements under a window in row-major order, from the plane that starts at `offset`. A
window that starts right of the plane must not have rows. -/
def windowValues (data : Array Float32) (offset : Nat) (rows columns : Sweep)
    (vertical horizontal : Reach) : Except Error (List Float32) :=
  let firstRow := vertical.first
  let rowCount := vertical.last rows.extent - firstRow
  let firstColumn := horizontal.first
  let columnEnd := horizontal.last columns.extent
  if 0 < rowCount ∧ columnEnd < firstColumn then .error .outOfBounds
  else
    ((List.range rowCount).flatMap fun y =>
      (List.range (columnEnd - firstColumn)).map fun x =>
        offset + (firstRow + y) * columns.extent + (firstColumn + x)).mapM (fetch data)

/-- One output value from the elements under its window. -/
def reduce (algorithm : Pooling.Algorithm) (divisor : Nat) (values : List Float32) : Float32 :=
  if values.isEmpty then 0
  else
    match algorithm with
    | .max => Scalar.maximum values
    | .average => Scalar.sum values / Float32.ofNat divisor
    | .l2 => (Scalar.sum (values.map fun value => value * value) / Float32.ofNat divisor).sqrt

/-- The positions that a window covers inside the padded plane, where their product is a signed
word. -/
def paddedCount (vertical horizontal : Reach) : Except Error Nat :=
  let product := vertical.padded * horizontal.padded
  if -Capacity.signedLimit ≤ product ∧ product < Capacity.signedLimit then .ok product.toNat
  else .error .outOfBounds

/-- The number that a sum is divided by: the elements, or all positions inside the padded
plane. -/
def divisor (pooling : Pooling) (padded elements : Nat) : Nat :=
  if pooling.padding = .ignoreValue ∧ ¬pooling.isGlobal then padded else elements

/-- One output value of one plane. The padded positions are counted even where the divisor does
not need them. -/
def poolingOutput (pooling : Pooling) (data : Array Float32) (rows columns : Sweep)
    (plane row column : Nat) : Except Error Float32 := do
  let vertical := rows.reach row
  let horizontal := columns.reach column
  let padded ← paddedCount vertical horizontal
  let values ← windowValues data (plane * (rows.extent * columns.extent)) rows columns
    vertical horizontal
  return reduce pooling.algorithm (divisor pooling padded values.length) values

/-- Pooling into a shape that has been inferred. Every plane of the input has its place in the
output; further planes of the output are zero. -/
def pooling2d (pooling : Pooling) (input : View) (out : Shape) : Except Error (Array Float32) :=
  match Planes.ofShape? input.shape, Planes.ofShape? out with
  | some shape, some result => do
    let count ← out.count
    let (rows, columns) := sweeps pooling shape.height shape.width
    let planes := shape.batch * shape.channels
    let area := result.height * result.width
    if input.data.size < planes * (shape.height * shape.width) ∨ count < planes * area then
      throw .outOfBounds
    tabulate count fun flat =>
      let plane := flat / area
      if plane < planes then
        poolingOutput pooling input.data rows columns plane (flat / result.width % result.height)
          (flat % result.width)
      else .ok 0
  | _, _ => .error Fault.poolingRank.error

end NeuralGraph.Reference
