import Mathlib.Tactic.Ring
import NeuralGraph.Proofs.Reference.Failure

/-! Dense kernels that agree. A filter as large as the image has one position, where it takes the
values of a batch entry in the order in which they are stored, so convolution is the product with
the flattened filters; and a matrix is read the same whichever of its two layouts it is stored in.
Both hold term by term: the same products are added in the same order. -/

namespace NeuralGraph.Reference

variable {convolution : Convolution} {input : View} {weights : Constant} {bias : Option Constant}

/-- Without padding in front, the first window has each of its offsets over the coordinate of the
same number. -/
theorem tap?_first {stride extent offset : Nat} (inside : offset < extent) :
    tap? stride 0 extent 0 offset = some offset := by
  simp [tap?, inside]

/-- The first window of a filter as large as the image takes all values of the batch entry, in the
order in which they are stored. -/
theorem convolutionOutput_first (top : convolution.padTop = 0) (left : convolution.padLeft = 0)
    (data : Array Float32) (planes : Planes) (start : Float32) (batch output : Nat) :
    convolutionOutput convolution data planes weights planes.height planes.width start batch output
        0 0 =
      accumulate start (planes.channels * (planes.height * planes.width)) fun index => do
        let x ← fetch data (batch * (planes.channels * (planes.height * planes.width)) + index)
        let weight ← fetch weights.data
          (output * (planes.channels * (planes.height * planes.width)) + index)
        return x * weight := by
  unfold accumulate convolutionOutput
  rw [foldPositions_mul]
  refine foldPositions_congr (fun sum channel _ _ => ?_) start
  rw [foldPositions_mul]
  refine foldPositions_congr (fun sum offsetY _ above => ?_) sum
  rw [Nat.zero_add] at above
  rw [top, UInt32.toNat_zero, tap?_first above]
  refine foldPositions_congr (fun sum offsetX _ before => ?_) sum
  rw [Nat.zero_add] at before
  rw [left, UInt32.toNat_zero, tap?_first before]
  have position (entry : Nat) :
      ((entry * planes.channels + channel) * planes.height + offsetY) * planes.width + offsetX =
        entry * (planes.channels * (planes.height * planes.width)) +
          (channel * (planes.height * planes.width) + (offsetY * planes.width + offsetX)) := by
    ring
  simp only [Planes.index, position, bind_assoc, pure_bind]

/-- Filters as large as the images, without padding in front of them, and a matrix with the values
of one filter in each row. -/
structure Flattens (convolution : Convolution) (input : View) (filters matrix : Constant)
    (bias : Option Constant) (batch channels height width outputs flat : Extent) : Prop where
  images : input.shape = ⟨[batch, channels, height, width]⟩
  full : input.data.size = input.shape.elementCount
  planes : filters.shape = ⟨[outputs, channels, height, width]⟩
  rows : matrix.shape = ⟨[outputs, flat]⟩
  width_eq : flat.toNat = channels.toNat * (height.toNat * width.toNat)
  same : matrix.data = filters.data
  biases : ∀ constant ∈ bias, constant.shape = ⟨[outputs]⟩
  top : convolution.padTop = 0
  left : convolution.padLeft = 0

namespace Flattens

variable {filters matrix : Constant} {batch channels height width outputs flat : Extent}

theorem fullyConnected_eq (flattens : Flattens convolution input filters matrix bias batch channels
      height width outputs flat) (dense : Dense) :
    fullyConnected { dense with transposed := true } input matrix bias =
      tabulate (batch.toNat * outputs.toNat) fun index =>
        denseOutput { dense with transposed := true } matrix bias input.data flat.toNat
          outputs.toNat (index / outputs.toNat) (index % outputs.toNat) := by
  refine fullyConnected_eq_tabulate flattens.rows (by simp [flattens.images, Shape.dim?]) ?_
  rw [flattens.full, flattens.images, Shape.elementCount_planes]
  simp [Dense.sides, flattens.width_eq, Nat.mul_assoc]

/-- A shape of single values can be counted. -/
private theorem isCountable_points (batch outputs : Extent) :
    (Shape.mk [batch, outputs, 1, 1]).isCountable = true := by
  have below := Nat.mul_lt_mul'' batch.toNat_lt outputs.toNat_lt
  have entry := batch.toNat_lt
  simp [Shape.isCountable, Capacity.staysWord, Shape.sizes, Capacity.wordLimit, UInt64.size]
  omega

theorem convolution2d_eq (flattens : Flattens convolution input filters matrix bias batch channels
      height width outputs flat) :
    convolution2d convolution input filters bias ⟨[batch, outputs, 1, 1]⟩ =
      tabulate (batch.toNat * outputs.toNat) fun index =>
        biasAt bias (index % outputs.toNat) >>= fun start =>
          convolutionOutput convolution input.data
            ⟨batch.toNat, channels.toNat, height.toNat, width.toNat⟩ filters height.toNat
            width.toNat start (index / outputs.toNat) (index % outputs.toNat) 0 0 := by
  rw [convolution2d_eq_tabulate flattens.images flattens.planes flattens.biases
    (isCountable_points batch outputs)]
  simp only [UInt32.toNat_one, Nat.mul_one, Nat.mod_one, Nat.div_one]

theorem agree (flattens : Flattens convolution input filters matrix bias batch channels height width
      outputs flat) (dense : Dense) :
    convolution2d convolution input filters bias ⟨[batch, outputs, 1, 1]⟩ =
      fullyConnected { dense with transposed := true } input matrix bias := by
  rw [flattens.convolution2d_eq, flattens.fullyConnected_eq]
  refine tabulate_congr fun index _ => ?_
  unfold denseOutput
  refine congrArg _ (funext fun start => ?_)
  rw [convolutionOutput_first flattens.top flattens.left]
  simp only [weightIndex, if_true, flattens.width_eq, flattens.same]

theorem total (flattens : Flattens convolution input filters matrix bias batch channels height width
      outputs flat) (fits : Capacity.fitsBuffer (batch.toNat * outputs.toNat) = true) :
    ∃ result, convolution2d convolution input filters bias ⟨[batch, outputs, 1, 1]⟩ = .ok result ∧
      result.size = batch.toNat * outputs.toNat := by
  rw [flattens.agree {}, flattens.fullyConnected_eq]
  refine tabulate_total fits fun index below => ?_
  have positive : 0 < outputs.toNat := Nat.pos_of_ne_zero fun zero => by simp [zero] at below
  have size : input.data.size = batch.toNat * flat.toNat := by
    rw [flattens.full, flattens.images, Shape.elementCount_planes, flattens.width_eq, Nat.mul_assoc]
  exact @denseOutput_total { transposed := true } _ _ _ _ _ _ _ _ flattens.rows flattens.biases size
    (Nat.div_lt_of_lt_mul (Nat.mul_comm _ _ ▸ below)) (Nat.mod_lt index positive)

end Flattens

/-- The second matrix has in its rows what the first has in its columns. -/
structure Transposes (weights turned : Constant) (rows columns : Extent) : Prop where
  before : weights.shape = ⟨[rows, columns]⟩
  after : turned.shape = ⟨[columns, rows]⟩
  entries : ∀ row < rows.toNat, ∀ column < columns.toNat,
    turned.data[column * rows.toNat + row]? = weights.data[row * columns.toNat + column]?

/-- Every matrix has a second layout. -/
theorem exists_transposes {rows columns : Extent} (matrix : weights.shape = ⟨[rows, columns]⟩) :
    ∃ turned, Transposes weights turned rows columns := by
  have size := Constant.size_of_shape matrix
  rw [Shape.elementCount_matrix] at size
  have read : ∀ index < columns.toNat * rows.toNat, ∃ value,
      fetch weights.data (index % rows.toNat * columns.toNat + index / rows.toNat) =
        .ok value := by
    intro index below
    have positive : 0 < rows.toNat := Nat.pos_of_ne_zero fun zero => by simp [zero] at below
    exact fetch_total (size ▸ position_lt (Nat.mod_lt index positive)
      (Nat.div_lt_of_lt_mul (Nat.mul_comm _ _ ▸ below)))
  obtain ⟨values, same⟩ := exists_toList_map_ok.mpr (by
    simpa using read : ∀ outcome ∈ (List.range (columns.toNat * rows.toNat)).map fun index =>
      fetch weights.data (index % rows.toNat * columns.toNat + index / rows.toNat),
      ∃ value, outcome = .ok value)
  have fits := (Shape.isStorable_iff.mp weights.storable).2
  rw [show weights.info.shape = _ from matrix, Shape.elementCount_matrix, Nat.mul_comm] at fits
  refine ⟨{ info := { shape := ⟨[columns, rows]⟩ }, data := values, storage := 0,
            size_eq := by simpa [TensorInfo.elementCount] using congrArg List.length same
            storable := Shape.isStorable_matrix.mpr fits }, matrix, rfl, fun row below column inside => ?_⟩
  have position := position_lt inside below
  have entry := congrArg (·[column * rows.toNat + row]?) same
  obtain ⟨byRow, inRow⟩ := @divMod_position column row rows.toNat below
  simp only [List.getElem?_map, Array.getElem?_toList, List.getElem?_range position,
    Option.map_some, byRow, inRow] at entry
  obtain ⟨value, there, fetched⟩ := Option.map_eq_some_iff.mp entry
  exact there.trans (fetch_eq_ok.mp fetched.symm).symm

theorem Transposes.agree {turned : Constant} {rows columns : Extent}
    (transposes : Transposes weights turned rows columns) (dense : Dense) (input : View)
    (bias : Option Constant) :
    fullyConnected { dense with transposed := false } input weights bias =
      fullyConnected { dense with transposed := true } input turned bias := by
  have first := congrArg Shape.extents transposes.before
  have second := congrArg Shape.extents transposes.after
  unfold fullyConnected
  simp only [first, second, Dense.sides, if_true, Bool.false_eq_true, if_false]
  cases input.shape.dim? 0 with
  | none => rfl
  | some batch =>
    refine congrArg (if batch.toNat * rows.toNat = input.data.size then · else _) ?_
    refine tabulate_congr fun index below => ?_
    have positive : 0 < columns.toNat := Nat.pos_of_ne_zero fun zero => by simp [zero] at below
    unfold denseOutput
    refine congrArg _ (funext fun start => ?_)
    refine accumulate_congr fun row inside => ?_
    simp only [weightIndex, if_true, Bool.false_eq_true, if_false, fetch,
      transposes.entries row inside _ (Nat.mod_lt index positive)]

/-- Convolution with filters as large as the images, whatever its strides, and the product with the
flattened filters are the same computation, which succeeds where a buffer can hold the result; and
so are the products with both layouts of a matrix. -/
theorem dense_kernels_agree :
    (∀ convolution input filters matrix bias batch channels height width outputs flat,
      Flattens convolution input filters matrix bias batch channels height width outputs flat →
      (∀ dense : Dense, convolution2d convolution input filters bias ⟨[batch, outputs, 1, 1]⟩ =
        fullyConnected { dense with transposed := true } input matrix bias) ∧
      (Capacity.fitsBuffer (batch.toNat * outputs.toNat) = true →
        ∃ result, convolution2d convolution input filters bias ⟨[batch, outputs, 1, 1]⟩ =
          .ok result ∧ result.size = batch.toNat * outputs.toNat)) ∧
    ∀ weights rows columns, weights.shape = ⟨[rows, columns]⟩ →
      (∃ turned, Transposes weights turned rows columns) ∧
      ∀ turned, Transposes weights turned rows columns → ∀ (dense : Dense) input bias,
        fullyConnected { dense with transposed := false } input weights bias =
          fullyConnected { dense with transposed := true } input turned bias :=
  ⟨fun _ _ _ _ _ _ _ _ _ _ _ flattens => ⟨flattens.agree, flattens.total⟩,
    fun _ _ _ matrix => ⟨exists_transposes matrix, fun _ transposes => transposes.agree⟩⟩

/-- Two filters over a plane of two values. -/
def pairFilters : Constant where
  info := { shape := ⟨[2, 1, 1, 2]⟩ }
  data := #[1, 2, 3, 4]
  storage := 0
  size_eq := rfl
  storable := by decide

/-- The same values with one filter in each row. -/
def pairRows : Constant where
  info := { shape := ⟨[2, 2]⟩ }
  data := #[1, 2, 3, 4]
  storage := 0
  size_eq := rfl
  storable := by decide

/-- The same values with one filter in each column. -/
def pairColumns : Constant where
  info := { shape := ⟨[2, 2]⟩ }
  data := #[1, 3, 2, 4]
  storage := 0
  size_eq := rfl
  storable := by decide

/-- Two planes of two values are filtered as they are multiplied, with a stride that no window
takes, from rows and from columns. -/
theorem pairFilters_agree :
    let input : View := ⟨⟨[2, 1, 1, 2]⟩, #[5, 6, 7, 8]⟩
    let convolution : Convolution := { strideX := 3, strideY := 5 }
    (∃ result, convolution2d convolution input pairFilters none ⟨[2, 2, 1, 1]⟩ = .ok result ∧
      result.size = 4 ∧ fullyConnected { transposed := true } input pairRows none = .ok result ∧
      fullyConnected {} input pairColumns none = .ok result) := by
  intro input convolution
  have flattens : Flattens convolution input pairFilters pairRows none 2 1 1 2 2 2 :=
    { images := rfl, full := rfl, planes := rfl, rows := rfl, width_eq := rfl, same := rfl
      biases := nofun, top := rfl, left := rfl }
  have transposes : Transposes pairColumns pairRows 2 2 :=
    { before := rfl, after := rfl, entries := by decide }
  obtain ⟨flattened, turned⟩ := dense_kernels_agree
  obtain ⟨agree, total⟩ := flattened _ _ _ _ _ _ _ _ _ _ _ flattens
  obtain ⟨result, computed, size⟩ := total (by decide)
  have product := (agree {}).symm.trans computed
  exact ⟨result, computed, size, product,
    ((turned _ _ _ rfl).2 _ transposes {} input none).trans product⟩

end NeuralGraph.Reference
