import NeuralGraph.Proofs.Layer.Inference
import NeuralGraph.Proofs.Reference.View
import NeuralGraph.Reference.Convolution

/-! What the reference kernels with weights take. Fully connected layers and convolutions succeed
on every full input whose shape has passed inference: every value and weight that an output needs
has its place. -/

namespace NeuralGraph.Reference

variable {dense : Dense} {convolution : Convolution} {weights : Constant} {bias : Option Constant}
  {input : View} {out : Shape}

theorem biasAt_total {outputs : Extent} (shapes : ∀ constant ∈ bias, constant.shape = ⟨[outputs]⟩)
    {index : Nat} (inside : index < outputs.toNat) : ∃ value, biasAt bias index = .ok value := by
  cases bias with
  | none => exact ⟨0, rfl⟩
  | some constant =>
    have size := Constant.size_of_shape (shapes constant rfl)
    exact fetch_total (by simpa [size] using inside)

/-- The values of a fully connected layer, position by position. -/
theorem fullyConnected_eq_tabulate {rows columns batch : Extent}
    (matrix : weights.shape = ⟨[rows, columns]⟩) (first : input.shape.dim? 0 = some batch)
    (full : batch.toNat * (dense.sides rows columns).1.toNat = input.data.size) :
    fullyConnected dense input weights bias =
      tabulate (batch.toNat * (dense.sides rows columns).2.toNat) fun flat =>
        denseOutput dense weights bias input.data (dense.sides rows columns).1.toNat
          (dense.sides rows columns).2.toNat (flat / (dense.sides rows columns).2.toNat)
          (flat % (dense.sides rows columns).2.toNat) := by
  unfold fullyConnected
  simp only [matrix, first, full, if_true]

/-- A fully connected layer computes one output after the other, batch entry by batch entry. -/
theorem fullyConnected_eq_ok {rows columns batch : Extent} {result : Array Float32}
    (matrix : weights.shape = ⟨[rows, columns]⟩) (first : input.shape.dim? 0 = some batch)
    (full : batch.toNat * (dense.sides rows columns).1.toNat = input.data.size) :
    fullyConnected dense input weights bias = .ok result ↔
      Capacity.fitsBuffer (batch.toNat * (dense.sides rows columns).2.toNat) = true ∧
      result.toList.map Except.ok = (List.range batch.toNat).flatMap fun entry =>
        (List.range (dense.sides rows columns).2.toNat).map fun output =>
          denseOutput dense weights bias input.data (dense.sides rows columns).1.toNat
            (dense.sides rows columns).2.toNat entry output := by
  rw [fullyConnected_eq_tabulate matrix first full, tabulate_eq_ok, map_range_mul]
  refine and_congr_right fun _ => iff_of_eq (congrArg _ ?_)
  refine List.flatMap_congr fun entry _ => List.map_congr_left fun output member => ?_
  obtain ⟨byRow, inRow⟩ :=
    @divMod_position entry output (dense.sides rows columns).2.toNat (List.mem_range.mp member)
  rw [byRow, inRow]

theorem weightIndex_lt {rows columns : Extent} {index output : Nat}
    (reads : index < (dense.sides rows columns).1.toNat)
    (writes : output < (dense.sides rows columns).2.toNat) :
    weightIndex dense (dense.sides rows columns).1.toNat (dense.sides rows columns).2.toNat index
      output < rows.toNat * columns.toNat := by
  unfold weightIndex
  cases transposed : dense.transposed with
  | true =>
    simp only [Dense.sides, transposed, if_true] at reads writes ⊢
    exact position_lt writes reads
  | false =>
    simp only [Dense.sides, transposed, Bool.false_eq_true, if_false] at reads writes ⊢
    exact position_lt reads writes

theorem denseOutput_total {data : Array Float32} {rows columns : Extent}
    {batch entry output : Nat} (matrix : weights.shape = ⟨[rows, columns]⟩)
    (shapes : ∀ constant ∈ bias, constant.shape = ⟨[(dense.sides rows columns).2]⟩)
    (full : data.size = batch * (dense.sides rows columns).1.toNat) (below : entry < batch)
    (inside : output < (dense.sides rows columns).2.toNat) :
    ∃ value, denseOutput dense weights bias data (dense.sides rows columns).1.toNat
      (dense.sides rows columns).2.toNat entry output = .ok value := by
  have size : weights.data.size = rows.toNat * columns.toNat := by
    rw [Constant.size_of_shape matrix, Shape.elementCount_matrix]
  obtain ⟨start, biased⟩ := biasAt_total shapes inside
  rw [denseOutput, biased]
  refine foldPositions_total (fun sum index _ before => ?_) start
  rw [Nat.zero_add] at before
  obtain ⟨x, read⟩ := fetch_total (full ▸ position_lt below before)
  obtain ⟨weight, weighed⟩ := fetch_total (size ▸ weightIndex_lt before inside)
  exact ⟨sum + x * weight, by simp only [read, weighed, bind_ok]; rfl⟩

/-- A fully connected layer has a value for each element of its inferred shape. -/
theorem fullyConnected_total
    (inferred : dense.inferShape weights bias input.shape = .ok out)
    (storable : out.isStorable = true) (full : input.data.size = input.shape.elementCount) :
    ∃ result, fullyConnected dense input weights bias = .ok result ∧
      result.size = out.elementCount := by
  obtain ⟨batch, rest, rows, columns, extents, matrix, flattened, shapes, rfl⟩ :=
    Dense.inferShape_eq_ok inferred
  have first : input.shape.dim? 0 = some batch := by simp [Shape.dim?, extents]
  have count : input.data.size = batch.toNat * (dense.sides rows columns).1.toNat := by
    rw [full, flattened, Shape.elementCount, Shape.sizes, extents]
    rfl
  have area := Shape.elementCount_matrix batch (dense.sides rows columns).2
  rw [fullyConnected_eq_tabulate (congrArg Shape.mk matrix) first count.symm, area]
  apply tabulate_total (area ▸ (Shape.isStorable_iff.mp storable).2)
  intro flat inside
  have positive : 0 < (dense.sides rows columns).2.toNat :=
    Nat.pos_of_ne_zero fun zero => by simp [zero] at inside
  refine denseOutput_total (congrArg Shape.mk matrix) shapes count ?_ (Nat.mod_lt flat positive)
  exact Nat.div_lt_of_lt_mul (Nat.mul_comm _ _ ▸ inside)

theorem tap?_lt {stride low extent position offset coordinate : Nat}
    (covers : tap? stride low extent position offset = some coordinate) : coordinate < extent := by
  unfold tap? at covers
  dsimp only at covers
  split at covers
  · rename_i inside
    cases covers
    exact inside.2
  · cases covers

/-- Extents as they are stored, one plane after the other. -/
theorem index_lt {planes : Planes} {batch channel row column : Nat} (entry : batch < planes.batch)
    (plane : channel < planes.channels) (below : row < planes.height)
    (inside : column < planes.width) : planes.index batch channel row column <
      planes.batch * planes.channels * planes.height * planes.width :=
  position_lt (position_lt (position_lt entry plane) below) inside

theorem convolutionOutput_total {data : Array Float32} {planes : Planes}
    {outputs kernelHeight kernelWidth batch output : Nat}
    (full : data.size = planes.batch * planes.channels * planes.height * planes.width)
    (filters : weights.data.size = outputs * planes.channels * kernelHeight * kernelWidth)
    (entry : batch < planes.batch) (plane : output < outputs) (start : Float32) (row column : Nat) :
    ∃ value, convolutionOutput convolution data planes weights kernelHeight kernelWidth start batch
      output row column = .ok value := by
  refine foldPositions_total (fun sum channel _ within => ?_) start
  refine foldPositions_total (fun sum offsetY _ above => ?_) sum
  rw [Nat.zero_add] at within above
  cases vertical : tap? convolution.strideY.toNat convolution.padTop.toNat planes.height row
      offsetY with
  | none => exact ⟨sum, rfl⟩
  | some y =>
    refine foldPositions_total (fun sum offsetX _ before => ?_) sum
    rw [Nat.zero_add] at before
    cases horizontal : tap? convolution.strideX.toNat convolution.padLeft.toNat planes.width column
        offsetX with
    | none => exact ⟨sum, rfl⟩
    | some x =>
      obtain ⟨value, read⟩ := fetch_total
        (full ▸ index_lt entry within (tap?_lt vertical) (tap?_lt horizontal))
      obtain ⟨weight, weighed⟩ := fetch_total
        (filters ▸ position_lt (position_lt (position_lt plane within) above) before)
      exact ⟨sum + value * weight, by simp only [read, weighed, bind_ok]; rfl⟩

theorem hasBiases_of_shapes {outputs : Extent}
    (shapes : ∀ constant ∈ bias, constant.shape = ⟨[outputs]⟩) :
    hasBiases bias outputs.toNat = true := by
  cases bias with
  | none => rfl
  | some constant =>
    have size := Constant.size_of_shape (shapes constant rfl)
    simp [hasBiases, size]

/-- The values of a convolution, position by position, into a shape that can be counted. -/
theorem convolution2d_eq_tabulate {batch channels height width outputs expected kernelHeight
      kernelWidth rows columns : Extent}
    (images : input.shape = ⟨[batch, channels, height, width]⟩)
    (filters : weights.shape = ⟨[outputs, expected, kernelHeight, kernelWidth]⟩)
    (shapes : ∀ constant ∈ bias, constant.shape = ⟨[outputs]⟩)
    (countable : (Shape.mk [batch, outputs, rows, columns]).isCountable = true) :
    convolution2d convolution input weights bias ⟨[batch, outputs, rows, columns]⟩ =
      tabulate (batch.toNat * (outputs.toNat * rows.toNat * columns.toNat)) fun flat =>
        biasAt bias (flat / (rows.toNat * columns.toNat) % outputs.toNat) >>= fun start =>
          convolutionOutput convolution input.data
            ⟨batch.toNat, channels.toNat, height.toNat, width.toNat⟩ weights kernelHeight.toNat
            kernelWidth.toNat start (flat / (outputs.toNat * rows.toNat * columns.toNat))
            (flat / (rows.toNat * columns.toNat) % outputs.toNat)
            (flat / columns.toNat % rows.toNat) (flat % columns.toNat) := by
  have kernel : kernelSize weights = .ok (kernelHeight.toNat, kernelWidth.toNat) := by
    simp [kernelSize, filters, Shape.dim?]
  have count : (Shape.mk [batch, outputs, rows, columns]).elementCount =
      batch.toNat * (outputs.toNat * rows.toNat * columns.toNat) := by
    simp [Nat.mul_assoc]
  unfold convolution2d
  simp only [images, Planes.ofShape?, Shape.sizes, List.map_cons, List.map_nil, kernel, bind_ok,
    Shape.count, countable, if_true, hasBiases_of_shapes shapes, count, Nat.lt_irrefl,
    not_true_eq_false, and_false, if_false]
  refine tabulate_congr fun flat below => ?_
  rw [if_pos (Nat.div_lt_of_lt_mul (Nat.mul_comm _ _ ▸ below))]

/-- A convolution computes one output plane after the other, where there can be a buffer for all. -/
theorem convolution2d_eq_ok {batch channels height width outputs expected kernelHeight
      kernelWidth rows columns : Extent} {result : Array Float32}
    (images : input.shape = ⟨[batch, channels, height, width]⟩)
    (filters : weights.shape = ⟨[outputs, expected, kernelHeight, kernelWidth]⟩)
    (shapes : ∀ constant ∈ bias, constant.shape = ⟨[outputs]⟩) :
    convolution2d convolution input weights bias ⟨[batch, outputs, rows, columns]⟩ = .ok result ↔
      (Shape.mk [batch, outputs, rows, columns]).isStorable = true ∧
      result.toList.map Except.ok =
        (List.range (batch.toNat * outputs.toNat)).flatMap fun plane =>
          (List.range rows.toNat).flatMap fun row => (List.range columns.toNat).map fun column =>
            biasAt bias (plane % outputs.toNat) >>= fun start =>
              convolutionOutput convolution input.data
                ⟨batch.toNat, channels.toNat, height.toNat, width.toNat⟩ weights
                kernelHeight.toNat kernelWidth.toNat start (plane / outputs.toNat)
                (plane % outputs.toNat) row column := by
  by_cases countable : (Shape.mk [batch, outputs, rows, columns]).isCountable = true
  · have count : batch.toNat * (outputs.toNat * rows.toNat * columns.toNat) =
        batch.toNat * outputs.toNat * (rows.toNat * columns.toNat) := by
      simp only [Nat.mul_assoc]
    rw [convolution2d_eq_tabulate images filters shapes countable, tabulate_eq_ok,
      Shape.isStorable_iff, Shape.elementCount_planes, count, map_range_mul]
    simp only [countable, true_and]
    refine and_congr_right fun _ => iff_of_eq (congrArg _ (List.flatMap_congr fun plane _ => ?_))
    rw [map_range_mul]
    refine List.flatMap_congr fun row memberRow => List.map_congr_left fun column memberColumn => ?_
    obtain ⟨atPlane, atRow, atColumn⟩ :=
      @divMod_planes plane _ _ _ _ (List.mem_range.mp memberRow) (List.mem_range.mp memberColumn)
    rw [atRow, atColumn, atPlane, Nat.mul_assoc, Nat.mul_comm outputs.toNat,
      ← Nat.div_div_eq_div_mul, atPlane]
  · have kernel : kernelSize weights = .ok (kernelHeight.toNat, kernelWidth.toNat) := by
      simp [kernelSize, filters, Shape.dim?]
    unfold convolution2d
    simp [images, Planes.ofShape?, Shape.sizes, kernel, Shape.count, Shape.isStorable, countable,
      bind, Except.bind]

/-- A convolution has a value for each element of its inferred shape. -/
theorem convolution2d_total
    (inferred : convolution.inferShape weights bias input.shape = .ok out)
    (storable : out.isStorable = true) (full : input.data.size = input.shape.elementCount) :
    ∃ result, convolution2d convolution input weights bias out = .ok result ∧
      result.size = out.elementCount := by
  obtain ⟨batch, channels, height, width, outputs, kernelHeight, kernelWidth, rows, columns,
    images, filterShape, shapes, rfl⟩ := Convolution.inferShape_eq_ok inferred
  obtain ⟨countable, fits⟩ := Shape.isStorable_iff.mp storable
  have filters : weights.data.size =
      outputs.toNat * channels.toNat * kernelHeight.toNat * kernelWidth.toNat := by
    simp [Constant.size_of_shape filterShape, Nat.mul_assoc]
  have count : (Shape.mk [batch, outputs, rows, columns]).elementCount =
      batch.toNat * (outputs.toNat * rows.toNat * columns.toNat) := by
    simp [Nat.mul_assoc]
  rw [convolution2d_eq_tabulate images filterShape shapes countable, count]
  apply tabulate_total (count ▸ fits)
  intro flat inside
  have positive : 0 < outputs.toNat := Nat.pos_of_ne_zero fun zero => by simp [zero] at inside
  have entry : flat / (outputs.toNat * rows.toNat * columns.toNat) < batch.toNat :=
    Nat.div_lt_of_lt_mul (Nat.mul_comm _ _ ▸ inside)
  have plane : flat / (rows.toNat * columns.toNat) % outputs.toNat < outputs.toNat :=
    Nat.mod_lt _ positive
  obtain ⟨start, biased⟩ := biasAt_total shapes plane
  rw [biased, bind_ok]
  refine convolutionOutput_total ?_ filters entry plane start _ _
  simp [full, images, Nat.mul_assoc]

end NeuralGraph.Reference
