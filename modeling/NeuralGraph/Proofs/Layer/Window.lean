import Mathlib.Data.List.ProdSigma
import NeuralGraph.Layer.Convolution
import NeuralGraph.Layer.Pooling
import NeuralGraph.Proofs.Outcome
import NeuralGraph.Proofs.Tensor.Shape

/-! Windows along one axis: the coordinates under them, and the number of positions that inference
finds for them. Coordinates count from the first element of the axis, so they are negative in the
padding in front of it. -/

namespace NeuralGraph

/-- What an interval has between two bounds is an interval. -/
theorem filter_interval (start low high : Int) (count : Nat) :
    (((List.range count).map fun offset : Nat => start + offset).filter
        fun value => decide (low ≤ value ∧ value < high)) =
      (List.range (min (start + count) high - max start low).toNat).map
        fun offset : Nat => max start low + offset := by
  induction count with
  | zero =>
    have none : (min (start + (0 : Nat)) high - max start low).toNat = 0 := by omega
    rw [none]
    rfl
  | succ count ih =>
    rw [List.range_succ, List.map_append, List.filter_append, ih, List.map_singleton]
    by_cases inside : low ≤ start + count ∧ start + count < high
    · have longer : (min (start + (count + 1 : Nat)) high - max start low).toNat =
          (min (start + count) high - max start low).toNat + 1 := by omega
      have last : max start low + ((min (start + count) high - max start low).toNat : Int) =
          start + count := by omega
      rw [List.filter_cons_of_pos (by simpa using inside), longer, List.range_succ,
        List.map_append, List.map_singleton, last, List.filter_nil]
    · have same : (min (start + (count + 1 : Nat)) high - max start low).toNat =
          (min (start + count) high - max start low).toNat := by omega
      rw [List.filter_cons_of_neg (by simpa using inside), List.filter_nil, List.append_nil, same]

/-- A rectangle is filtered side by side. -/
theorem filter_product {α β : Type} (rows : List α) (columns : List β) (p : α → Bool)
    (q : β → Bool) :
    (rows ×ˢ columns).filter (fun pair => p pair.1 && q pair.2) =
      rows.filter p ×ˢ columns.filter q := by
  induction rows with
  | nil => rfl
  | cons row rows ih =>
    rw [List.product_cons, List.filter_append, ih, List.filter_map]
    cases kept : p row with
    | true => simp [kept, Function.comp_def, List.product_cons]
    | false => simp [kept, Function.comp_def]

namespace WindowAxis

variable {axis : WindowAxis} {extent : Extent} {rounding : Rounding}

/-- The coordinate under one offset of the window at an output position. -/
def coordinate (axis : WindowAxis) (position offset : Nat) : Int :=
  position * axis.stride.toNat + offset - axis.low.toNat

/-- The coordinates under the window at an output position. -/
def coordinates (axis : WindowAxis) (position : Nat) : List Int :=
  (List.range axis.window.toNat).map (axis.coordinate position)

/-- Whether a coordinate is that of an element. -/
abbrev IsElement (axis : WindowAxis) (coordinate : Int) : Prop :=
  0 ≤ coordinate ∧ coordinate < axis.input.toNat

/-- Whether a coordinate is that of an element or lies in the padding. -/
abbrev IsPadded (axis : WindowAxis) (coordinate : Int) : Prop :=
  -axis.low.toNat ≤ coordinate ∧ coordinate < axis.input.toNat + axis.high.toNat

/-- One window over all elements of an axis. -/
def whole (extent : Extent) : WindowAxis := ⟨extent, 0, 0, extent, 1⟩

/-- Where the window at an output position starts. -/
theorem coordinates_eq (axis : WindowAxis) (position : Nat) :
    axis.coordinates position = (List.range axis.window.toNat).map fun offset : Nat =>
      (position * axis.stride.toNat - axis.low.toNat : Int) + offset := by
  refine List.map_congr_left fun offset _ => ?_
  rw [coordinate]
  omega

theorem isPadded_coordinate {position offset : Nat}
    (inside : position * axis.stride.toNat + offset < axis.padded) :
    axis.IsPadded (axis.coordinate position offset) := by
  simp only [IsPadded, coordinate, padded] at inside ⊢
  rw [← Int.natCast_mul]
  omega

/-- The number of pooling windows, before it is known to fit an extent. -/
def pooledCount (axis : WindowAxis) (rounding : Rounding) : Nat :=
  let steps := rounding.divide (axis.padded - axis.window.toNat) axis.stride.toNat
  if axis.input.toNat + axis.low.toNat ≤ steps * axis.stride.toNat then steps else steps + 1

/-- A number as an extent, or the reason that it is none. -/
def extentOf (count : Nat) (overflow : Nat → Misconfiguration) : Except ShapeError Extent :=
  if count < UInt32.size then .ok (UInt32.ofNat count)
  else .error (.invalidConfiguration (overflow count))

theorem extentOf_eq_match (count : Nat) (overflow : Nat → Misconfiguration) :
    extentOf count overflow =
      match Extent.ofNat? count with
      | some extent => .ok extent
      | none => .error (.invalidConfiguration (overflow count)) := by
  by_cases small : count < UInt32.size <;> simp [Extent.ofNat?, extentOf, small]

theorem extentOf_eq_ok {count : Nat} {overflow : Nat → Misconfiguration} :
    extentOf count overflow = .ok extent ↔ extent.toNat = count := by
  rw [extentOf_eq_match, ← Extent.ofNat?_eq_some]
  cases Extent.ofNat? count <;> simp

theorem pooled_eq (moves : axis.stride ≠ 0) (fits : axis.window.toNat ≤ axis.padded)
    (rounding : Rounding) :
    axis.pooled rounding = extentOf (axis.pooledCount rounding) .pooledOverflow := by
  rw [pooled, if_neg moves, if_neg (Nat.not_lt.mpr fits)]
  exact (extentOf_eq_match _ _).symm

theorem convolved_eq (fits : axis.window.toNat ≤ axis.padded) :
    axis.convolved = extentOf ((axis.padded - axis.window.toNat) / axis.stride.toNat + 1)
      .convolvedOverflow := by
  rw [convolved, if_neg (Nat.not_lt.mpr fits)]
  exact (extentOf_eq_match _ _).symm

theorem pooled_eq_ok : axis.pooled rounding = .ok extent ↔
    axis.stride ≠ 0 ∧ axis.window.toNat ≤ axis.padded ∧
      extent.toNat = axis.pooledCount rounding := by
  by_cases still : axis.stride = 0
  · simp [pooled, still]
  by_cases fits : axis.window.toNat ≤ axis.padded
  · simp [pooled_eq still fits, extentOf_eq_ok, still, fits]
  · simp [pooled, still, fits, Nat.lt_of_not_le fits]

theorem convolved_eq_ok : axis.convolved = .ok extent ↔
    axis.window.toNat ≤ axis.padded ∧
      extent.toNat = (axis.padded - axis.window.toNat) / axis.stride.toNat + 1 := by
  by_cases fits : axis.window.toNat ≤ axis.padded
  · simp [convolved_eq fits, extentOf_eq_ok, fits]
  · simp [convolved, fits, Nat.lt_of_not_le fits]

theorem stride_pos (moves : axis.stride ≠ 0) : 0 < axis.stride.toNat :=
  Nat.pos_of_ne_zero fun zero => moves (UInt32.toNat_inj.mp zero)

/-- An extent that counts the windows that stay inside the padded axis. -/
def Counts (axis : WindowAxis) (extent : Extent) : Prop :=
  ∀ position, position < extent.toNat ↔
    position * axis.stride.toNat + axis.window.toNat ≤ axis.padded

/-- A kernel takes every position at which it stays inside the padded axis. -/
theorem counts_of_convolved (moves : axis.stride ≠ 0) (computed : axis.convolved = .ok extent) :
    axis.Counts extent := by
  intro position
  obtain ⟨fits, count⟩ := convolved_eq_ok.mp computed
  rw [count, Nat.lt_succ_iff, Nat.le_div_iff_mul_le (stride_pos moves)]
  omega

/-- Without a window that fits into the padding behind the axis, pooling that rounds down drops no
window. -/
theorem pooledCount_floor (reaches : axis.high < axis.window)
    (fits : axis.window.toNat ≤ axis.padded) :
    axis.pooledCount .floor =
      (axis.padded - axis.window.toNat) / axis.stride.toNat + 1 := by
  have steps : (axis.padded - axis.window.toNat) / axis.stride.toNat * axis.stride.toNat ≤
      axis.padded - axis.window.toNat := Nat.div_mul_le_self _ _
  have whole : axis.padded = axis.input.toNat + axis.low.toNat + axis.high.toNat := rfl
  have far := UInt32.lt_iff_toNat_lt.mp reaches
  exact if_neg (by rw [Rounding.divide]; omega)

theorem counts_of_pooled (reaches : axis.high < axis.window)
    (computed : axis.pooled .floor = .ok extent) : axis.Counts extent := by
  intro position
  obtain ⟨moves, fits, count⟩ := pooled_eq_ok.mp computed
  rw [count, pooledCount_floor reaches fits, Nat.lt_succ_iff,
    Nat.le_div_iff_mul_le (stride_pos moves)]
  omega

theorem Counts.pos (counts : axis.Counts extent) (fits : axis.window.toNat ≤ axis.padded) :
    0 < extent.toNat :=
  (counts 0).mpr (by simpa using fits)

/-- The positions of windows fill a padded axis: all of them cover it alone, and the window at one
more position would end behind it. -/
structure Fills (axis : WindowAxis) (extent : Extent) : Prop where
  covers : ∀ position < extent.toNat, ∀ coordinate ∈ axis.coordinates position,
    axis.IsPadded coordinate
  ends : (axis.input.toNat + axis.high.toNat : Int) <
    axis.coordinate extent.toNat axis.window.toNat
  leaves : 0 < axis.window.toNat →
    ∃ coordinate ∈ axis.coordinates extent.toNat, ¬axis.IsPadded coordinate

theorem Counts.fills (counts : axis.Counts extent) : axis.Fills extent := by
  have last : (axis.input.toNat + axis.high.toNat : Int) <
      axis.coordinate extent.toNat axis.window.toNat := by
    have beyond := (counts extent.toNat).not.mp (Nat.lt_irrefl _)
    simp only [coordinate, padded] at beyond ⊢
    rw [← Int.natCast_mul]
    omega
  refine ⟨fun position below value member => ?_, last, fun wide => ?_⟩
  · obtain ⟨offset, inside, rfl⟩ := List.mem_map.mp member
    have fits := (counts position).mp below
    have within := List.mem_range.mp inside
    exact isPadded_coordinate (by omega)
  · refine ⟨axis.coordinate extent.toNat (axis.window.toNat - 1),
      List.mem_map_of_mem (List.mem_range.mpr (Nat.sub_one_lt_of_lt wide)), ?_⟩
    simp only [coordinate, IsPadded] at last ⊢
    omega

/-- The same windows, moved by one element at a time. -/
def dense (axis : WindowAxis) : WindowAxis := { axis with stride := 1 }

variable {longer : Extent}

/-- Windows that move by a stride are some of those that move by one element. -/
theorem Counts.mul_stride_lt (counts : axis.Counts extent) (all : axis.dense.Counts longer)
    {position : Nat} (below : position < extent.toNat) :
    position * axis.stride.toNat < longer.toNat := by
  rw [all]
  simpa [dense, padded] using (counts position).mp below

theorem Counts.le (moves : axis.stride ≠ 0) (counts : axis.Counts extent)
    (all : axis.dense.Counts longer) : extent.toNat ≤ longer.toNat := by
  refine Nat.le_of_not_lt fun more => ?_
  have far := counts.mul_stride_lt all more
  exact Nat.not_lt.mpr (Nat.le_mul_of_pos_right _ (stride_pos moves)) far

/-- Pooling windows start inside the padded axis, or at its end. -/
theorem mul_stride_le_padded (computed : axis.pooled rounding = .ok extent) {position : Nat}
    (below : position < extent.toNat) : position * axis.stride.toNat ≤ axis.padded := by
  obtain ⟨moves, fits, count⟩ := pooled_eq_ok.mp computed
  have positive := stride_pos moves
  rw [count, pooledCount] at below
  split at below
  · have next : (position + 1) * axis.stride.toNat ≤
        rounding.divide (axis.padded - axis.window.toNat) axis.stride.toNat *
          axis.stride.toNat := Nat.mul_le_mul_right _ below
    have steps : rounding.divide (axis.padded - axis.window.toNat) axis.stride.toNat *
        axis.stride.toNat ≤ axis.padded - axis.window.toNat + axis.stride.toNat - 1 := by
      cases rounding with
      | floor => exact Nat.le_trans (Nat.div_mul_le_self _ _) (by omega)
      | ceiling => exact Nat.div_mul_le_self _ _
    rw [Nat.succ_mul] at next
    omega
  · rename_i kept
    have steps := Nat.mul_le_mul_right axis.stride.toNat (Nat.le_of_lt_succ below)
    simp only [padded] at kept steps ⊢
    omega

end WindowAxis

/-- The windows of a pooling layer over a plane; a global layer has one, over the whole plane. -/
def Pooling.axes (pooling : Pooling) (height width : Extent) : WindowAxis × WindowAxis :=
  if pooling.isGlobal then (.whole height, .whole width)
  else (pooling.rowAxis height, pooling.columnAxis width)

theorem Pooling.inputs_axes (pooling : Pooling) (height width : Extent) :
    (pooling.axes height width).1.input = height ∧
      (pooling.axes height width).2.input = width := by
  unfold axes
  split <;> exact ⟨rfl, rfl⟩

/-- The positions of a kernel of the given extents over a plane. -/
def Convolution.axes (convolution : Convolution) (height width kernelHeight kernelWidth : Extent) :
    WindowAxis × WindowAxis :=
  (convolution.rowAxis height kernelHeight, convolution.columnAxis width kernelWidth)

@[simp]
theorem Convolution.window_rowAxis (convolution : Convolution) (height kernel : Extent) :
    (convolution.rowAxis height kernel).window = kernel := rfl

@[simp]
theorem Convolution.window_columnAxis (convolution : Convolution) (width kernel : Extent) :
    (convolution.columnAxis width kernel).window = kernel := rfl

variable {batch channels height width planes rows columns : Extent}

/-- A plane of a pooling layer has a row and a column for each window. -/
theorem Pooling.pooled_of_inferShape {pooling : Pooling} (windowed : pooling.isGlobal = false)
    (inferred : pooling.inferShape ⟨[batch, channels, height, width]⟩ =
      .ok ⟨[batch, planes, rows, columns]⟩) :
    (pooling.rowAxis height).pooled pooling.rounding = .ok rows ∧
      (pooling.columnAxis width).pooled pooling.rounding = .ok columns := by
  simp only [inferShape, windowed, Bool.false_eq_true, if_false] at inferred
  obtain ⟨across, wide, given⟩ := bind_eq_ok.mp inferred
  obtain ⟨down, tall, given⟩ := bind_eq_ok.mp given
  cases pure_eq_ok.mp given
  exact ⟨tall, wide⟩

/-- A plane of a convolution has a row and a column for each position of its kernel. -/
theorem Convolution.convolved_of_inferShape {convolution : Convolution} {weights : Constant}
    {bias : Option Constant} {outputs kernelHeight kernelWidth : Extent}
    (filters : weights.shape = ⟨[outputs, channels, kernelHeight, kernelWidth]⟩)
    (inferred : convolution.inferShape weights bias ⟨[batch, channels, height, width]⟩ =
      .ok ⟨[batch, planes, rows, columns]⟩) :
    (convolution.strideY ≠ 0 ∧
      (convolution.rowAxis height kernelHeight).convolved = .ok rows) ∧
      convolution.strideX ≠ 0 ∧
        (convolution.columnAxis width kernelWidth).convolved = .ok columns := by
  simp only [inferShape, filters] at inferred
  split at inferred
  · cases inferred
  · rename_i moves
    obtain ⟨standsX, standsY⟩ := not_or.mp moves
    obtain ⟨_, given⟩ := seq_eq_ok.mp (by simpa using inferred)
    obtain ⟨down, tall, given⟩ := bind_eq_ok.mp given
    obtain ⟨across, wide, given⟩ := bind_eq_ok.mp given
    cases pure_eq_ok.mp given
    exact ⟨⟨standsY, tall⟩, standsX, wide⟩

end NeuralGraph
