import NeuralGraph.Proofs.Reference.Execution
import NeuralGraph.Proofs.Reference.PooledWindow
import NeuralGraph.Proofs.Reference.Weights

/-! Strides are subsampling. A layer whose windows move by strides computes some of the values that
it computes where the windows move by one element, and computes nothing else. -/

namespace NeuralGraph

/-- The convolution whose kernel stands at every element. -/
def Convolution.dense (convolution : Convolution) : Convolution :=
  { convolution with strideX := 1, strideY := 1 }

/-- The pooling whose windows stand at every element. -/
def Pooling.dense (pooling : Pooling) : Pooling := { pooling with strideX := 1, strideY := 1 }

/-- Layers that move their windows by strides, downwards and across, with the layer that moves them
by one element. Pooling windows must not fit into the padding behind the plane. -/
inductive Strided : LayerKind → LayerKind → Extent → Extent → Prop
  | convolution (convolution : Convolution) (weights : Constant) (bias : Option Constant)
      (down : convolution.strideY ≠ 0) (across : convolution.strideX ≠ 0) :
      Strided (.convolution2d convolution weights bias)
        (.convolution2d convolution.dense weights bias) convolution.strideY convolution.strideX
  | pooling (pooling : Pooling) (floor : pooling.rounding = .floor) (down : pooling.strideY ≠ 0)
      (across : pooling.strideX ≠ 0) (right : pooling.padRight < pooling.poolWidth)
      (bottom : pooling.padBottom < pooling.poolHeight) :
      Strided (.pooling2d pooling) (.pooling2d pooling.dense) pooling.strideY pooling.strideX

namespace Reference

open RowMajor (position)

variable {convolution : Convolution} {pooling : Pooling} {weights : Constant}
  {bias : Option Constant} {input : View} {out whole : Shape}
  {batch planes rows columns tall wide : Extent} {down across : Nat}

/-- The windows over a plane stay inside its padding, those that move by strides as well as those at
every element, and as many of them are counted as there are. -/
structure PlaneCounts (axes : WindowAxis × WindowAxis) (rows columns tall wide : Extent) : Prop where
  down : axes.1.stride ≠ 0
  across : axes.2.stride ≠ 0
  rows : axes.1.Counts rows
  columns : axes.2.Counts columns
  tall : axes.1.dense.Counts tall
  wide : axes.2.dense.Counts wide

theorem PlaneCounts.isStorable {axes : WindowAxis × WindowAxis}
    (counts : PlaneCounts axes rows columns tall wide)
    (storable : (Shape.mk [batch, planes, tall, wide]).isStorable = true) :
    (Shape.mk [batch, planes, rows, columns]).isStorable = true := by
  refine Shape.isStorable_of_le ?_ storable
  simp [Shape.sizes, counts.rows.le counts.down counts.tall,
    counts.columns.le counts.across counts.wide]

/-- A result that is sampled from the result of another computation. Its rows and columns, taken
`down` and `across` apart, are some of the other's; both results are there together, as long as
memory can hold the other one; and the values are the same. -/
structure Subsampling (own all : Except Error (List (Array Float32)))
    (batch planes rows columns tall wide : Extent) (down across : Nat) : Prop where
  inRows : ∀ row < rows.toNat, row * down < tall.toNat
  inColumns : ∀ column < columns.toNat, column * across < wide.toNat
  computed : (∃ result, all = .ok [result]) ↔
    (Shape.mk [batch, planes, tall, wide]).isStorable = true ∧ ∃ sampled, own = .ok [sampled]
  value : ∀ sampled result, own = .ok [sampled] → all = .ok [result] →
    ∀ entry < batch.toNat, ∀ plane < planes.toNat, ∀ row < rows.toNat, ∀ column < columns.toNat,
      ∃ value,
        sampled[position (Shape.mk [batch, planes, rows, columns]).sizes
          [entry, plane, row, column]]? = some value ∧
        result[position (Shape.mk [batch, planes, tall, wide]).sizes
          [entry, plane, row * down, column * across]]? = some value

/-- What a buffer is filled with, plane by plane and row by row. -/
def planeOutcomes (planes rows columns : Nat) (value : Nat → Nat → Nat → Except Error Float32) :
    List (Except Error Float32) :=
  (List.range planes).flatMap fun plane =>
    (List.range rows).flatMap fun row => (List.range columns).map fun column =>
      value plane row column

/-- Buffers filled plane by plane are sampled one from the other where their values are. -/
theorem Subsampling.of_planes {axes : WindowAxis × WindowAxis}
    {own all : Except Error (List (Array Float32))}
    {value dense : Nat → Nat → Nat → Except Error Float32}
    (counts : PlaneCounts axes rows columns tall wide)
    (ownValues : ∀ sampled, own = .ok [sampled] → sampled.toList.map Except.ok =
      planeOutcomes (batch.toNat * planes.toNat) rows.toNat columns.toNat value)
    (allValues : ∀ result, all = .ok [result] → result.toList.map Except.ok =
      planeOutcomes (batch.toNat * planes.toNat) tall.toNat wide.toNat dense)
    (same : ∀ plane row column, value plane row column =
      dense plane (row * axes.1.stride.toNat) (column * axes.2.stride.toNat))
    (computed : (∃ result, all = .ok [result]) ↔
      (Shape.mk [batch, planes, tall, wide]).isStorable = true ∧ ∃ sampled, own = .ok [sampled]) :
    Subsampling own all batch planes rows columns tall wide axes.1.stride.toNat
      axes.2.stride.toNat where
  inRows _ below := counts.rows.mul_stride_lt counts.tall below
  inColumns _ inside := counts.columns.mul_stride_lt counts.wide inside
  computed := computed
  value := by
    intro sampled result own all entry within plane inPlane row below column inside
    have there := position_lt within inPlane
    obtain ⟨_, here, held⟩ :=
      getElem?_of_outcomes (ownValues sampled own) (getElem?_planes _ there below inside)
    obtain ⟨_, sample, sampleHeld⟩ := getElem?_of_outcomes (allValues result all)
      (getElem?_planes _ there (counts.rows.mul_stride_lt counts.tall below)
        (counts.columns.mul_stride_lt counts.wide inside))
    rw [same, sample] at here
    cases here
    simp only [Shape.sizes, List.map_cons, List.map_nil, RowMajor.position_planes]
    exact ⟨_, held, sampleHeld⟩

theorem tap?_dense (stride low extent position offset : Nat) :
    tap? stride low extent position offset =
      tap? (1 : Extent).toNat low extent (position * stride) offset := by
  simp [tap?]

theorem convolutionOutput_dense (data : Array Float32) (shape : Planes)
    (kernelHeight kernelWidth : Nat) (start : Float32) (entry output row column : Nat) :
    convolutionOutput convolution data shape weights kernelHeight kernelWidth start entry output row
        column =
      convolutionOutput convolution.dense data shape weights kernelHeight kernelWidth start entry
        output (row * convolution.strideY.toNat) (column * convolution.strideX.toNat) := by
  simp only [convolutionOutput, Convolution.dense, tap?_dense convolution.strideY.toNat,
    tap?_dense convolution.strideX.toNat]

theorem evaluate_convolution2d_eq_single {result : Array Float32} :
    evaluate (.convolution2d convolution weights bias) [input] [out] = .ok [result] ↔
      convolution2d convolution input weights bias out = .ok result :=
  singleton_eq_ok

theorem planeCounts_of_convolution {channels height width kernelHeight kernelWidth : Extent}
    (filters : weights.shape = ⟨[planes, channels, kernelHeight, kernelWidth]⟩)
    (inferred : convolution.inferShape weights bias ⟨[batch, channels, height, width]⟩ =
      .ok ⟨[batch, planes, rows, columns]⟩)
    (denseInferred : convolution.dense.inferShape weights bias ⟨[batch, channels, height, width]⟩ =
      .ok ⟨[batch, planes, tall, wide]⟩) :
    PlaneCounts (convolution.axes height width kernelHeight kernelWidth)
      rows columns tall wide := by
  obtain ⟨⟨down, countRows⟩, across, countColumns⟩ :=
    Convolution.convolved_of_inferShape filters inferred
  obtain ⟨⟨denseDown, countTall⟩, denseAcross, countWide⟩ :=
    Convolution.convolved_of_inferShape filters denseInferred
  exact {
    down
    across
    rows := WindowAxis.counts_of_convolved down countRows
    columns := WindowAxis.counts_of_convolved across countColumns
    tall := WindowAxis.counts_of_convolved denseDown countTall
    wide := WindowAxis.counts_of_convolved denseAcross countWide }

theorem convolution_subsamples
    (inferred : convolution.inferShape weights bias input.shape = .ok out)
    (denseInferred : convolution.dense.inferShape weights bias input.shape = .ok whole)
    (full : input.data.size = input.shape.elementCount) :
    ∃ batch planes rows columns tall wide : Extent, out = ⟨[batch, planes, rows, columns]⟩ ∧
      whole = ⟨[batch, planes, tall, wide]⟩ ∧
      Subsampling (evaluate (.convolution2d convolution weights bias) [input] [out])
        (evaluate (.convolution2d convolution.dense weights bias) [input] [whole])
        batch planes rows columns tall wide convolution.strideY.toNat
        convolution.strideX.toNat := by
  obtain ⟨batch, channels, height, width, planes, kernelHeight, kernelWidth, rows, columns, images,
    filters, shapes, rfl⟩ := Convolution.inferShape_eq_ok inferred
  obtain ⟨_, _, _, _, _, _, _, tall, wide, sameImages, sameFilters, _, rfl⟩ :=
    Convolution.inferShape_eq_ok denseInferred
  cases images.symm.trans sameImages
  cases filters.symm.trans sameFilters
  have counts := planeCounts_of_convolution filters (images ▸ inferred) (images ▸ denseInferred)
  have values := fun {convolution : Convolution} {rows columns : Extent} {result : Array Float32} =>
    @convolution2d_eq_ok convolution weights bias input batch channels height width planes channels
      kernelHeight kernelWidth rows columns result images filters shapes
  refine ⟨batch, planes, rows, columns, tall, wide, rfl, rfl, .of_planes counts
    (fun _ own => (values.mp (evaluate_convolution2d_eq_single.mp own)).2)
    (fun _ all => (values.mp (evaluate_convolution2d_eq_single.mp all)).2) ?_ ?_⟩
  · intro plane row column
    exact congrArg (biasAt bias _ >>= ·) (funext fun start => convolutionOutput_dense ..)
  · simp only [evaluate_convolution2d_eq_single]
    constructor
    · rintro ⟨result, computed⟩
      have storable := (values.mp computed).1
      obtain ⟨sampled, own, _⟩ := convolution2d_total inferred (counts.isStorable storable) full
      exact ⟨storable, sampled, own⟩
    · rintro ⟨storable, _⟩
      obtain ⟨result, computed, _⟩ := convolution2d_total denseInferred storable full
      exact ⟨result, computed⟩

theorem reach_dense (axis : WindowAxis) (position : Nat) :
    (sweepOf axis).reach position =
      (sweepOf axis.dense).reach (position * axis.stride.toNat) := by
  simp [sweepOf, Sweep.reach, WindowAxis.dense]

theorem not_isGlobal (moves : pooling.strideY ≠ 0) : pooling.isGlobal = false := by
  simp [Pooling.isGlobal, moves]

theorem dense_moves : pooling.dense.strideY ≠ 0 := (by decide : (1 : Extent) ≠ 0)

theorem axes_of_strided (moves : pooling.strideY ≠ 0) (height width : Extent) :
    pooling.axes height width = (pooling.rowAxis height, pooling.columnAxis width) := by
  simp [Pooling.axes, not_isGlobal moves]

theorem poolingOutput_dense (moves : pooling.strideY ≠ 0) (data : Array Float32)
    (height width : Extent) (plane row column : Nat) :
    poolingOutput pooling data (sweeps pooling height.toNat width.toNat).1
        (sweeps pooling height.toNat width.toNat).2 plane row column =
      poolingOutput pooling.dense data (sweeps pooling.dense height.toNat width.toNat).1
        (sweeps pooling.dense height.toNat width.toNat).2 plane
        (row * pooling.strideY.toNat) (column * pooling.strideX.toNat) := by
  have vertical : (sweepOf (pooling.rowAxis height)).reach row =
      (sweepOf (pooling.dense.rowAxis height)).reach (row * pooling.strideY.toNat) :=
    reach_dense (pooling.rowAxis height) row
  have horizontal : (sweepOf (pooling.columnAxis width)).reach column =
      (sweepOf (pooling.dense.columnAxis width)).reach (column * pooling.strideX.toNat) :=
    reach_dense (pooling.columnAxis width) column
  rw [sweeps_axes, sweeps_axes, axes_of_strided moves, axes_of_strided dense_moves]
  simp only [poolingOutput, vertical, horizontal, divisor, not_isGlobal moves,
    not_isGlobal dense_moves]
  rfl

/-- A window that stays inside the padded axis keeps its whole extent, and starts on the axis where
it does not fit into the padding behind. -/
theorem reach_of_fits {axis : WindowAxis} {position : Nat}
    (fits : position * axis.stride.toNat + axis.window.toNat ≤ axis.padded)
    (reaches : axis.high < axis.window) :
    ((sweepOf axis).reach position).padded = axis.window.toNat ∧
      ((sweepOf axis).reach position).start < axis.input.toNat := by
  have far := UInt32.lt_iff_toNat_lt.mp reaches
  simp only [sweepOf, Sweep.reach, Reach.padded, WindowAxis.padded] at fits ⊢
  rw [← Int.natCast_mul]
  omega

/-- Where all windows stay inside the padded plane, they get stuck together. -/
theorem poolingStuck_iff (moves : pooling.strideY ≠ 0) {height width : Extent}
    (right : pooling.padRight < pooling.poolWidth) (bottom : pooling.padBottom < pooling.poolHeight)
    (tall : (pooling.rowAxis height).Counts rows) (wide : (pooling.columnAxis width).Counts columns)
    (occupied : 0 < rows.toNat ∧ 0 < columns.toNat) :
    PoolingStuck pooling height.toNat width.toNat rows.toNat columns.toNat ↔
      Capacity.signedLimit ≤ pooling.poolHeight.toNat * pooling.poolWidth.toNat := by
  have stuck : ∀ row < rows.toNat, ∀ column < columns.toNat,
      WindowStuck (sweepOf (pooling.rowAxis height)) (sweepOf (pooling.columnAxis width))
        ((sweepOf (pooling.rowAxis height)).reach row)
        ((sweepOf (pooling.columnAxis width)).reach column) ↔
      Capacity.signedLimit ≤ pooling.poolHeight.toNat * pooling.poolWidth.toNat := by
    -- A counted window keeps its whole extents, so the same product decides everywhere.
    intro row below column inside
    obtain ⟨down, _⟩ := reach_of_fits ((tall row).mp below) bottom
    obtain ⟨across, starts⟩ := reach_of_fits ((wide column).mp inside) right
    have inPlane : ¬((width.toNat : Int) <
        ((sweepOf (pooling.columnAxis width)).reach column).start) := Int.not_lt.mpr starts.le
    rw [WindowStuck, down, across, ← Int.natCast_mul]
    simp only [sweepOf, Pooling.rowAxis, Pooling.columnAxis] at inPlane ⊢
    omega
  unfold PoolingStuck
  rw [sweeps_axes, axes_of_strided moves]
  constructor
  · rintro ⟨row, below, column, inside, held⟩
    exact (stuck row below column inside).mp held
  · intro large
    exact ⟨0, occupied.1, 0, occupied.2, (stuck 0 occupied.1 0 occupied.2).mpr large⟩

theorem evaluate_pooling2d_eq_single {result : Array Float32} :
    evaluate (.pooling2d pooling) [input] [out] = .ok [result] ↔
      pooling2d pooling input out = .ok result :=
  singleton_eq_ok

theorem planeCounts_of_pooling {height width : Extent} (floor : pooling.rounding = .floor)
    (down : pooling.strideY ≠ 0) (across : pooling.strideX ≠ 0)
    (right : pooling.padRight < pooling.poolWidth) (bottom : pooling.padBottom < pooling.poolHeight)
    (inferred : pooling.inferShape ⟨[batch, planes, height, width]⟩ =
      .ok ⟨[batch, planes, rows, columns]⟩)
    (denseInferred : pooling.dense.inferShape ⟨[batch, planes, height, width]⟩ =
      .ok ⟨[batch, planes, tall, wide]⟩) :
    PlaneCounts (pooling.rowAxis height, pooling.columnAxis width) rows columns tall wide ∧
      pooling.poolHeight.toNat ≤ (pooling.rowAxis height).padded ∧
      pooling.poolWidth.toNat ≤ (pooling.columnAxis width).padded := by
  have denseFloor : pooling.dense.rounding = .floor := floor
  obtain ⟨countRows, countColumns⟩ := Pooling.pooled_of_inferShape (not_isGlobal down) inferred
  obtain ⟨countTall, countWide⟩ :=
    Pooling.pooled_of_inferShape (not_isGlobal dense_moves) denseInferred
  rw [floor] at countRows countColumns
  rw [denseFloor] at countTall countWide
  refine ⟨?_, (WindowAxis.pooled_eq_ok.mp countRows).2.1,
    (WindowAxis.pooled_eq_ok.mp countColumns).2.1⟩
  exact {
    down
    across
    rows := WindowAxis.counts_of_pooled bottom countRows
    columns := WindowAxis.counts_of_pooled right countColumns
    tall := WindowAxis.counts_of_pooled bottom countTall
    wide := WindowAxis.counts_of_pooled right countWide }

/-- Pooling by strides and pooling at every element need windows of the same extents. -/
theorem poolingStuck_dense {height width : Extent} (right : pooling.padRight < pooling.poolWidth)
    (bottom : pooling.padBottom < pooling.poolHeight)
    (counts : PlaneCounts (pooling.rowAxis height, pooling.columnAxis width) rows columns tall wide)
    (tallFits : pooling.poolHeight.toNat ≤ (pooling.rowAxis height).padded)
    (wideFits : pooling.poolWidth.toNat ≤ (pooling.columnAxis width).padded) :
    PoolingStuck pooling.dense height.toNat width.toNat tall.toNat wide.toNat ↔
      PoolingStuck pooling height.toNat width.toNat rows.toNat columns.toNat := by
  rw [poolingStuck_iff counts.down right bottom counts.rows counts.columns
    ⟨counts.rows.pos tallFits, counts.columns.pos wideFits⟩]
  exact poolingStuck_iff dense_moves right bottom counts.tall counts.wide
    ⟨counts.tall.pos tallFits, counts.wide.pos wideFits⟩

theorem pooling_subsamples (floor : pooling.rounding = .floor) (down : pooling.strideY ≠ 0)
    (across : pooling.strideX ≠ 0) (right : pooling.padRight < pooling.poolWidth)
    (bottom : pooling.padBottom < pooling.poolHeight)
    (inferred : pooling.inferShape input.shape = .ok out)
    (denseInferred : pooling.dense.inferShape input.shape = .ok whole)
    (full : input.data.size = input.shape.elementCount) :
    ∃ batch planes rows columns tall wide : Extent, out = ⟨[batch, planes, rows, columns]⟩ ∧
      whole = ⟨[batch, planes, tall, wide]⟩ ∧
      Subsampling (evaluate (.pooling2d pooling) [input] [out])
        (evaluate (.pooling2d pooling.dense) [input] [whole])
        batch planes rows columns tall wide pooling.strideY.toNat pooling.strideX.toNat := by
  obtain ⟨batch, planes, height, width, rows, columns, images, rfl⟩ :=
    Pooling.inferShape_eq_ok inferred
  obtain ⟨_, _, _, _, tall, wide, sameImages, rfl⟩ := Pooling.inferShape_eq_ok denseInferred
  cases images.symm.trans sameImages
  obtain ⟨counts, tallFits, wideFits⟩ :=
    planeCounts_of_pooling floor down across right bottom (images ▸ inferred)
      (images ▸ denseInferred)
  obtain ⟨inputSizes, count⟩ := full_planes images full
  have values := fun {pooling : Pooling} {rows columns : Extent} {result : Array Float32} =>
    @pooling2d_eq_ok pooling input ⟨[batch, planes, rows, columns]⟩ result _ _ _ _ _ _ inputSizes
      rfl count
  have together : (Shape.mk [batch, planes, tall, wide]).isStorable = true →
      ((∃ result, pooling2d pooling.dense input ⟨[batch, planes, tall, wide]⟩ = .ok result) ↔
        ∃ sampled, pooling2d pooling input ⟨[batch, planes, rows, columns]⟩ = .ok sampled) := by
    intro storable
    rw [pooling2d_total_iff inputSizes rfl count storable,
      pooling2d_total_iff inputSizes rfl count (counts.isStorable storable),
      poolingStuck_dense right bottom counts tallFits wideFits]
  refine ⟨batch, planes, rows, columns, tall, wide, rfl, rfl, .of_planes counts
    (fun _ own => (values.mp (evaluate_pooling2d_eq_single.mp own)).2)
    (fun _ all => (values.mp (evaluate_pooling2d_eq_single.mp all)).2)
    (poolingOutput_dense down input.data height width) ?_⟩
  simp only [evaluate_pooling2d_eq_single]
  constructor
  · rintro ⟨result, computed⟩
    have storable := (values.mp computed).1
    exact ⟨storable, (together storable).mp ⟨result, computed⟩⟩
  · rintro ⟨storable, own⟩
    exact (together storable).mpr own

/-- Striding is subsampling, for convolution and for pooling that rounds down. -/
theorem strided_subsamples {kind dense : LayerKind} {down across : Extent}
    (strided : Strided kind dense down across)
    (inferred : kind.inferShapes [input.shape] = .ok [out])
    (denseInferred : dense.inferShapes [input.shape] = .ok [whole])
    (full : input.data.size = input.shape.elementCount) :
    ∃ batch planes rows columns tall wide : Extent, out = ⟨[batch, planes, rows, columns]⟩ ∧
      whole = ⟨[batch, planes, tall, wide]⟩ ∧
      Subsampling (evaluate kind [input] [out]) (evaluate dense [input] [whole])
        batch planes rows columns tall wide down.toNat across.toNat := by
  cases strided with
  | convolution convolution weights bias down across =>
    exact convolution_subsamples
      (LayerKind.inferShapes_convolution2d_eq_ok.mp inferred)
      (LayerKind.inferShapes_convolution2d_eq_ok.mp denseInferred) full
  | pooling pooling floor down across right bottom =>
    exact pooling_subsamples floor down across right bottom
      (LayerKind.inferShapes_pooling2d_eq_ok.mp inferred)
      (LayerKind.inferShapes_pooling2d_eq_ok.mp denseInferred) full

/-- A kernel of one row and two columns. -/
def pairFilter : Constant where
  info := { shape := ⟨[1, 1, 1, 2]⟩ }
  data := #[6, 7]
  storage := 0
  size_eq := rfl
  storable := by decide

/-- Windows of two that move by two over a row of five, pooled and under a kernel: the second one
starts at the third element. -/
theorem pairs_subsample :
    let input : View := ⟨⟨[1, 1, 1, 5]⟩, #[1, 2, 3, 4, 5]⟩
    (∃ sampled result : Array Float32,
      evaluate (.pooling2d ⟨.max, 0, 0, 0, 0, 2, 1, 2, 1, .floor, .exclude⟩) [input]
        [⟨[1, 1, 1, 2]⟩] = .ok [sampled] ∧
      evaluate (.pooling2d ⟨.max, 0, 0, 0, 0, 2, 1, 1, 1, .floor, .exclude⟩) [input]
        [⟨[1, 1, 1, 4]⟩] = .ok [result] ∧
      ∃ value, sampled[1]? = some value ∧ result[2]? = some value) ∧
    ∃ sampled result : Array Float32,
      evaluate (.convolution2d { strideX := 2, strideY := 1 } pairFilter none) [input]
        [⟨[1, 1, 1, 2]⟩] = .ok [sampled] ∧
      evaluate (.convolution2d { strideX := 1, strideY := 1 } pairFilter none) [input]
        [⟨[1, 1, 1, 4]⟩] = .ok [result] ∧
      ∃ value, sampled[1]? = some value ∧ result[2]? = some value := by
  intro input
  constructor
  · refine ⟨_, _, rfl, rfl, ?_⟩
    obtain ⟨_, _, _, _, _, _, out, whole, samples⟩ :=
      @strided_subsamples input ⟨[1, 1, 1, 2]⟩ ⟨[1, 1, 1, 4]⟩ _ _ _ _
        (.pooling ⟨.max, 0, 0, 0, 0, 2, 1, 2, 1, .floor, .exclude⟩ rfl (by decide) (by decide)
          (by decide) (by decide)) rfl rfl rfl
    cases out
    cases whole
    exact samples.value _ _ rfl rfl 0 (by decide) 0 (by decide) 0 (by decide) 1 (by decide)
  · refine ⟨_, _, rfl, rfl, ?_⟩
    obtain ⟨_, _, _, _, _, _, out, whole, samples⟩ :=
      @strided_subsamples input ⟨[1, 1, 1, 2]⟩ ⟨[1, 1, 1, 4]⟩ _ _ _ _
        (.convolution { strideX := 2, strideY := 1 } pairFilter none (by decide) (by decide))
        rfl rfl rfl
    cases out
    cases whole
    exact samples.value _ _ rfl rfl 0 (by decide) 0 (by decide) 0 (by decide) 1 (by decide)

end Reference

end NeuralGraph
