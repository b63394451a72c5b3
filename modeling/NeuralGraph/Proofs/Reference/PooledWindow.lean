import NeuralGraph.Proofs.Layer.Inference
import NeuralGraph.Proofs.Layer.Window
import NeuralGraph.Proofs.Reference.Pooling

/-! What pooling computes. The cells under a window are listed one by one, wherever they lie; an
output value reduces those that are elements. The kernel sees an interval of rows and one of columns
instead, which it clips on both ends. -/

namespace NeuralGraph.Reference

open RowMajor (position)

/-- The cells under a window of a plane, row by row. -/
def window (axes : WindowAxis × WindowAxis) (row column : Nat) : List (Int × Int) :=
  axes.1.coordinates row ×ˢ axes.2.coordinates column

/-- The cells under a window that are elements of the plane. -/
def elementCells (axes : WindowAxis × WindowAxis) (row column : Nat) : List (Int × Int) :=
  (window axes row column).filter fun cell =>
    axes.1.IsElement cell.1 && axes.2.IsElement cell.2

/-- The cells under a window that the plane has together with its padding. -/
def paddedCells (axes : WindowAxis × WindowAxis) (row column : Nat) : List (Int × Int) :=
  (window axes row column).filter fun cell => axes.1.IsPadded cell.1 && axes.2.IsPadded cell.2

/-- The number of cells that an average is taken over. -/
def cellCount (pooling : Pooling) (axes : WindowAxis × WindowAxis) (row column : Nat) : Nat :=
  if pooling.padding = .ignoreValue ∧ ¬pooling.isGlobal then
    (paddedCells axes row column).length
  else (elementCells axes row column).length

/-- The value for a window with the given elements. -/
def pooledValue (algorithm : Pooling.Algorithm) (count : Nat) (values : List Float32) : Float32 :=
  if values = [] then 0
  else
    match algorithm with
    | .max => values.foldl Scalar.max Scalar.negInfinity
    | .average => values.foldl (· + ·) 0 / Float32.ofNat count
    | .l2 => (values.foldl (fun sum value => sum + value * value) 0 / Float32.ofNat count).sqrt

theorem reduce_eq_pooledValue (algorithm : Pooling.Algorithm) (count : Nat)
    (values : List Float32) :
    reduce algorithm count values = pooledValue algorithm count values := by
  cases algorithm <;>
    simp [reduce, pooledValue, Scalar.maximum, Scalar.sum, List.foldl_map]

/-- The sweep of a kernel along an axis. -/
def sweepOf (axis : WindowAxis) : Sweep :=
  ⟨axis.input.toNat, axis.window.toNat, axis.stride.toNat, axis.low.toNat, axis.high.toNat⟩

theorem sweeps_axes (pooling : Pooling) (height width : Extent) :
    sweeps pooling height.toNat width.toNat =
      (sweepOf (pooling.axes height width).1, sweepOf (pooling.axes height width).2) := by
  unfold sweeps Pooling.axes
  split <;> rfl

/-- The elements under a window are what is left of its interval between the ends of the axis. -/
theorem filter_isElement (axis : WindowAxis) (position : Nat) :
    (axis.coordinates position).filter (axis.IsElement ·) =
      (List.range (((sweepOf axis).reach position).last axis.input.toNat -
        ((sweepOf axis).reach position).first)).map fun offset =>
          ((((sweepOf axis).reach position).first + offset : Nat) : Int) := by
  rw [axis.coordinates_eq, filter_interval]
  simp only [sweepOf, Sweep.reach, Reach.first, Reach.last, Int.natCast_add]
  generalize (position * axis.stride.toNat - axis.low.toNat : Int) = start
  have first : max start 0 = (start.toNat : Int) := by omega
  have count : (min (start + axis.window.toNat) axis.input.toNat - start.toNat).toNat =
      (min (min (start + axis.window.toNat) (axis.input.toNat + axis.high.toNat))
        axis.input.toNat).toNat - start.toNat := by omega
  rw [first, count]

/-- A window that starts inside the padded axis has as many positions there as its reach. -/
theorem length_filter_isPadded {axis : WindowAxis} {position : Nat}
    (starts : position * axis.stride.toNat ≤ axis.padded) :
    (((axis.coordinates position).filter (axis.IsPadded ·)).length : Int) =
      ((sweepOf axis).reach position).padded := by
  rw [axis.coordinates_eq, filter_interval, List.length_map, List.length_range]
  simp only [WindowAxis.padded, sweepOf, Sweep.reach, Reach.padded] at starts ⊢
  rw [← Int.natCast_mul]
  omega

variable {pooling : Pooling} {input : View} {out : Shape} {result : Array Float32}
  {batch channels height width rows columns : Extent}

/-- The kernel reads the elements under a window in their order. -/
theorem map_elementCells {α : Type} (axes : WindowAxis × WindowAxis) (row column : Nat)
    (value : Nat → Nat → α) :
    (elementCells axes row column).map (fun cell => value cell.1.toNat cell.2.toNat) =
      (List.range (((sweepOf axes.1).reach row).last axes.1.input.toNat -
        ((sweepOf axes.1).reach row).first)).flatMap fun y =>
          (List.range (((sweepOf axes.2).reach column).last axes.2.input.toNat -
            ((sweepOf axes.2).reach column).first)).map fun x =>
              value (((sweepOf axes.1).reach row).first + y)
                (((sweepOf axes.2).reach column).first + x) := by
  rw [elementCells, window,
    filter_product _ _ (axes.1.IsElement ·) (axes.2.IsElement ·), filter_isElement,
    filter_isElement]
  simp only [SProd.sprod, List.product, List.map_flatMap, List.flatMap_map, List.map_map,
    Function.comp_def, Int.toNat_natCast]

/-- Unless it is the window of a global layer, a window starts inside the padded plane. -/
def StartsInside (pooling : Pooling) (axes : WindowAxis × WindowAxis) (row column : Nat) : Prop :=
  pooling.isGlobal = false → row * axes.1.stride.toNat ≤ axes.1.padded ∧
    column * axes.2.stride.toNat ≤ axes.2.padded

theorem divisor_eq_cellCount {axes : WindowAxis × WindowAxis} {row column count : Nat}
    {values : List Float32} (starts : StartsInside pooling axes row column)
    (counted : paddedCount ((sweepOf axes.1).reach row) ((sweepOf axes.2).reach column) = .ok count)
    (read : values.length = (elementCells axes row column).length) :
    divisor pooling count values.length = cellCount pooling axes row column := by
  unfold divisor cellCount
  split
  · rename_i all
    obtain ⟨down, across⟩ := starts (by simpa using all.2)
    obtain ⟨_, product⟩ := paddedCount_eq_ok.mp counted
    rw [paddedCells, window, filter_product _ _ (axes.1.IsPadded ·) (axes.2.IsPadded ·),
      List.length_product, ← product, ← length_filter_isPadded down,
      ← length_filter_isPadded across, ← Int.natCast_mul, Int.toNat_natCast]
  · exact read

/-- One output value, from the cells under its window. -/
theorem poolingOutput_cells {axes : WindowAxis × WindowAxis} {plane row column : Nat}
    {value : Float32} (starts : StartsInside pooling axes row column)
    (computed : poolingOutput pooling input.data (sweepOf axes.1) (sweepOf axes.2) plane row
      column = .ok value) :
    ∃ values : List Float32, values.map some = (elementCells axes row column).map (fun cell =>
        input.data[plane * (axes.1.input.toNat * axes.2.input.toNat) +
          (cell.1.toNat * axes.2.input.toNat + cell.2.toNat)]?) ∧
      value = pooledValue pooling.algorithm (cellCount pooling axes row column) values := by
  obtain ⟨count, values, counted, read, rfl⟩ := poolingOutput_eq_ok.mp computed
  have held : values.map some = (elementCells axes row column).map (fun cell =>
      input.data[plane * (axes.1.input.toNat * axes.2.input.toNat) +
        (cell.1.toNat * axes.2.input.toNat + cell.2.toNat)]?) := by
    rw [(windowValues_eq_ok.mp read).2, map_elementCells axes row column fun y x =>
      input.data[plane * (axes.1.input.toNat * axes.2.input.toNat) +
        (y * axes.2.input.toNat + x)]?]
    simp only [sweepOf, Nat.add_assoc]
  have length := congrArg List.length held
  rw [List.length_map, List.length_map] at length
  refine ⟨values, held, ?_⟩
  rw [reduce_eq_pooledValue, divisor_eq_cellCount starts counted length]

/-- Inference lets every window start inside the padded plane. -/
theorem starts_of_inferShape
    (inferred : pooling.inferShape ⟨[batch, channels, height, width]⟩ =
      .ok ⟨[batch, channels, rows, columns]⟩) {row column : Nat} (below : row < rows.toNat)
    (inside : column < columns.toNat) :
    StartsInside pooling (pooling.axes height width) row column := by
  intro windowed
  obtain ⟨tall, wide⟩ := Pooling.pooled_of_inferShape windowed inferred
  simp only [Pooling.axes, windowed, Bool.false_eq_true, if_false]
  exact ⟨WindowAxis.mul_stride_le_padded tall below, WindowAxis.mul_stride_le_padded wide inside⟩

theorem full_planes (images : input.shape = ⟨[batch, channels, height, width]⟩)
    (full : input.data.size = input.shape.elementCount) :
    input.shape.sizes = [batch.toNat, channels.toNat, height.toNat, width.toNat] ∧
      input.data.size = batch.toNat * channels.toNat * (height.toNat * width.toNat) := by
  rw [full, images, Shape.elementCount_planes]
  exact ⟨rfl, rfl⟩

/-- Pooling reduces exactly the elements under each window: nothing gives zero, and an average is
taken over the elements or, where padding counts, over all cells of the padded plane. -/
theorem pooling2d_reduces_windows
    (inferred : (LayerKind.pooling2d pooling).inferShapes [input.shape] = .ok [out])
    (full : input.data.size = input.shape.elementCount)
    (computed : pooling2d pooling input out = .ok result) :
    ∃ batch channels height width rows columns : Extent,
      input.shape = ⟨[batch, channels, height, width]⟩ ∧
      out = ⟨[batch, channels, rows, columns]⟩ ∧ result.size = out.elementCount ∧
      ∀ entry < batch.toNat, ∀ channel < channels.toNat, ∀ row < rows.toNat,
        ∀ column < columns.toNat, ∃ values : List Float32,
          values.map some = (elementCells (pooling.axes height width) row column).map (fun cell =>
            input.data[position input.shape.sizes
              [entry, channel, cell.1.toNat, cell.2.toNat]]?) ∧
          result[position out.sizes [entry, channel, row, column]]? =
            some (pooledValue pooling.algorithm
              (cellCount pooling (pooling.axes height width) row column) values) := by
  have shape := LayerKind.inferShapes_pooling2d_eq_ok.mp inferred
  obtain ⟨batch, channels, height, width, rows, columns, images, rfl⟩ :=
    Pooling.inferShape_eq_ok shape
  rw [images] at shape
  obtain ⟨inputSizes, count⟩ := full_planes images full
  refine ⟨batch, channels, height, width, rows, columns, images, rfl,
    size_pooling2d inputSizes rfl count computed, ?_⟩
  intro entry within channel inPlane row below column inside
  obtain ⟨_, outcomes⟩ := (pooling2d_eq_ok inputSizes rfl count).mp computed
  obtain ⟨value, output, held⟩ := getElem?_of_outcomes outcomes
    (getElem?_planes _ (position_lt within inPlane) below inside)
  rw [sweeps_axes] at output
  obtain ⟨values, elements, rfl⟩ :=
    poolingOutput_cells (starts_of_inferShape shape below inside) output
  obtain ⟨tall, wide⟩ := pooling.inputs_axes height width
  rw [tall, wide] at elements
  refine ⟨values, ?_, ?_⟩
  · simpa only [inputSizes, RowMajor.position_planes] using elements
  · simpa only [Shape.sizes, List.map_cons, List.map_nil, RowMajor.position_planes] using held

/-- A corner window that covers one element and three cells of padding divides by four. -/
theorem cornerWindow_average :
    ∃ result, pooling2d ⟨.average, 1, 0, 1, 0, 2, 2, 1, 1, .floor, .ignoreValue⟩
        ⟨⟨[1, 1, 2, 2]⟩, #[1, 2, 3, 4]⟩ ⟨[1, 1, 2, 2]⟩ = .ok result ∧
      result[0]? = some ((0 + 1) / Float32.ofNat 4) := by
  refine ⟨_, rfl, ?_⟩
  obtain ⟨_, _, _, _, _, _, images, same, _, reduces⟩ :=
    @pooling2d_reduces_windows ⟨.average, 1, 0, 1, 0, 2, 2, 1, 1, .floor, .ignoreValue⟩
      ⟨⟨[1, 1, 2, 2]⟩, #[1, 2, 3, 4]⟩ ⟨[1, 1, 2, 2]⟩ _ rfl rfl rfl
  cases images
  cases same
  obtain ⟨values, read, held⟩ := reduces 0 (by decide) 0 (by decide) 0 (by decide) 0 (by decide)
  obtain rfl : values = [1] := List.map_injective_iff.mpr (Option.some_injective _) read
  exact held

end NeuralGraph.Reference
