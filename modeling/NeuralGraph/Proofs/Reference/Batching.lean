import NeuralGraph.Proofs.Layer.Batching
import NeuralGraph.Proofs.Reference.Failure

/-! Batches apart and in one. A kernel that works along a batch gives on two batches behind each
other what it gives on each of them, one behind the other, as long as a buffer can hold it. -/

namespace NeuralGraph.Reference

section Buffers

variable {first second : Array Float32}

theorem fetch_append_left {index : Nat} (inside : index < first.size) :
    fetch (first ++ second) index = fetch first index := by
  rw [fetch, fetch, Array.getElem?_append_left inside]

theorem fetch_append_right (first second : Array Float32) (index : Nat) :
    fetch (first ++ second) (first.size + index) = fetch second index := by
  rw [fetch, fetch, Array.getElem?_append_right (Nat.le_add_right _ _), Nat.add_sub_cancel_left]

theorem row_append_left {rows width index : Nat} (size : first.size = rows * width)
    (inside : index < rows) : row (first ++ second) width index = row first width index := by
  have stop : (index + 1) * width ≤ first.size := size ▸ Nat.mul_le_mul_right width inside
  rw [row, row, Array.extract_append, Nat.sub_eq_zero_of_le stop]
  simp

theorem row_append_right {rows width : Nat} (size : first.size = rows * width) (index : Nat) :
    row (first ++ second) width (rows + index) = row second width index := by
  have start : (rows + index) * width - first.size = index * width := by
    rw [size, Nat.add_mul, Nat.add_sub_cancel_left]
  have stop : (rows + index + 1) * width - first.size = (index + 1) * width := by
    rw [size, Nat.add_assoc, Nat.add_mul, Nat.add_sub_cancel_left]
  have past : first.size ≤ (rows + index) * width :=
    size ▸ Nat.mul_le_mul_right width (Nat.le_add_right _ _)
  rw [row, row, Array.extract_append, start, stop, Array.extract_empty_of_size_le_start past,
    Array.empty_append]

end Buffers

/-- A loop over two batches is a loop over each. -/
theorem map_range_add {α : Type} {rows more : Nat} {whole left right : Nat → α}
    (before : ∀ index < rows, whole index = left index)
    (after : ∀ index < more, whole (rows + index) = right index) :
    (List.range (rows + more)).map whole =
      (List.range rows).map left ++ (List.range more).map right := by
  rw [List.range_add, List.map_append, List.map_map]
  congr 1
  · exact List.map_congr_left fun index member => before index (List.mem_range.mp member)
  · exact List.map_congr_left fun index member => after index (List.mem_range.mp member)

theorem flatMap_range_add {α : Type} {rows more : Nat} {whole left right : Nat → List α}
    (before : ∀ index < rows, whole index = left index)
    (after : ∀ index < more, whole (rows + index) = right index) :
    (List.range (rows + more)).flatMap whole =
      (List.range rows).flatMap left ++ (List.range more).flatMap right := by
  simp only [List.flatMap_def, map_range_add before after, List.flatten_append]

/-- A full input with this batch in front. -/
structure Fills (batch : Extent) (rest : List Extent) (view : View) : Prop where
  shape : view.shape = ⟨batch :: rest⟩
  full : view.data.size = view.shape.elementCount

theorem Fills.size {batch : Extent} {rest : List Extent} {view : View}
    (fills : Fills batch rest view) :
    view.data.size = batch.toNat * Shape.volume (rest.map UInt32.toNat) := by
  rw [fills.full, fills.shape]
  rfl

/-- Two batches of full inputs, and both in one. -/
structure Joins (b₁ b₂ b : Extent) (rest : List Extent) (first second whole : View) : Prop where
  batch : b.toNat = b₁.toNat + b₂.toNat
  shape : whole.shape = ⟨b :: rest⟩
  data : whole.data = first.data ++ second.data
  first : Fills b₁ rest first
  second : Fills b₂ rest second

/-- The outcome that is asked for, or none because there is no buffer for one of the outputs. -/
def Yields {α : Type} (shapes : List Shape) (outcome : Except Error α) (result : α) : Prop :=
  outcome = .ok result ∨ outcome = .error .outOfBounds ∧ ∃ shape ∈ shapes, shape.isStorable = false

theorem Yields.of_storable {α : Type} {shapes : List Shape} {outcome : Except Error α} {result : α}
    (yields : Yields shapes outcome result)
    (storable : ∀ shape ∈ shapes, shape.isStorable = true) : outcome = .ok result := by
  rcases yields with given | ⟨_, shape, member, large⟩
  · exact given
  · rw [storable shape member] at large
    cases large

theorem Yields.single {shape : Shape} {outcome : Except Error (Array Float32)}
    {result : Array Float32} (yields : Yields [shape] outcome result) :
    Yields [shape] (do return [← outcome]) [result] := by
  rcases yields with rfl | ⟨rfl, unstorable⟩
  · exact .inl rfl
  · exact .inr ⟨rfl, unstorable⟩

variable {b₁ b₂ b : Extent} {rest tail : List Extent} {first second whole : View}
  {firstResult secondResult : Array Float32}

theorem Joins.fills (joins : Joins b₁ b₂ b rest first second whole) : Fills b rest whole where
  shape := joins.shape
  full := by
    rw [joins.data, Array.size_append, joins.first.size, joins.second.size, joins.shape,
      ← Nat.add_mul, ← joins.batch]
    rfl

theorem activation_joins (joins : Joins b₁ b₂ b rest first second whole) (curve : Activation) :
    activation curve whole = activation curve first ++ activation curve second := by
  simp only [activation, joins.data, Array.map_append]

/-- The rows that softmax works on are those of the entries of the batch, one entry after the
other. -/
theorem softmax_of_fills {batch : Extent} {view : View} {front : List Nat} {width : Nat}
    (fills : Fills batch rest view) (split : rest.map UInt32.toNat = front ++ [width])
    (beta : Float32) :
    view.data.size = batch.toNat * Shape.volume front * width ∧
      softmax beta view =
        .ok ((List.range (batch.toNat * Shape.volume front)).flatMap fun index =>
          softmaxRow beta (row view.data width index)).toArray := by
  have size : view.data.size = batch.toNat * Shape.volume front * width := by
    rw [fills.size, split, Shape.volume_append, Shape.volume_cons, Shape.volume_nil, Nat.mul_one,
      Nat.mul_assoc]
  have sizes : view.shape.sizes = (batch.toNat :: front) ++ [width] := by
    rw [fills.shape, Shape.sizes, List.map_cons, split, List.cons_append]
  exact ⟨size, softmax_rows sizes size⟩

theorem softmax_joins (joins : Joins b₁ b₂ b rest first second whole) (deep : rest ≠ [])
    {beta : Float32} (firstGives : softmax beta first = .ok firstResult)
    (secondGives : softmax beta second = .ok secondResult) :
    softmax beta whole = .ok (firstResult ++ secondResult) := by
  obtain ⟨front, width, split⟩ : ∃ front width, rest.map UInt32.toNat = front ++ [width] :=
    (List.eq_nil_or_concat' (rest.map UInt32.toNat)).resolve_left (by simpa using deep)
  obtain ⟨size, firstRows⟩ := softmax_of_fills joins.first split beta
  obtain ⟨_, secondRows⟩ := softmax_of_fills joins.second split beta
  obtain ⟨_, wholeRows⟩ := softmax_of_fills joins.fills split beta
  obtain rfl := Except.ok.inj (firstRows.symm.trans firstGives)
  obtain rfl := Except.ok.inj (secondRows.symm.trans secondGives)
  rw [wholeRows, joins.data, joins.batch, Nat.add_mul, flatMap_range_add
    (fun index inside => congrArg (softmaxRow beta) (row_append_left size inside))
    (fun index _ => congrArg (softmaxRow beta) (row_append_right size index)),
    List.append_toArray]

section Dense

variable {dense : Dense} {weights : Constant} {bias : Option Constant} {data more : Array Float32}
  {inputs outputs entry output : Nat}

theorem denseOutput_append_left {entries : Nat} (size : data.size = entries * inputs)
    (inside : entry < entries) :
    denseOutput dense weights bias (data ++ more) inputs outputs entry output =
      denseOutput dense weights bias data inputs outputs entry output := by
  unfold denseOutput
  refine congrArg _ (funext fun start => ?_)
  refine accumulate_congr fun input below => ?_
  rw [fetch_append_left (size ▸ position_lt inside below)]

theorem denseOutput_append_right {entries : Nat} (size : data.size = entries * inputs)
    (entry : Nat) :
    denseOutput dense weights bias (data ++ more) inputs outputs (entries + entry) output =
      denseOutput dense weights bias more inputs outputs entry output := by
  unfold denseOutput
  refine congrArg _ (funext fun start => ?_)
  refine accumulate_congr fun input _ => ?_
  rw [Nat.add_mul, ← size, Nat.add_assoc, fetch_append_right]

theorem fullyConnected_joins (joins : Joins b₁ b₂ b rest first second whole)
    (inferred : ∀ other, dense.inferShape weights bias ⟨other :: rest⟩ = .ok ⟨other :: tail⟩)
    (firstGives : fullyConnected dense first weights bias = .ok firstResult)
    (secondGives : fullyConnected dense second weights bias = .ok secondResult) :
    Yields [⟨b :: tail⟩] (fullyConnected dense whole weights bias)
      (firstResult ++ secondResult) := by
  obtain ⟨_, _, rows, columns, extents, matrix, flattened, _, out⟩ :=
    Dense.inferShape_eq_ok (inferred b)
  obtain ⟨rfl, rfl⟩ := List.cons_eq_cons.mp extents
  by_cases storable : (Shape.mk (b :: tail)).isStorable = true
  · left
    have first? : ∀ {batch : Extent} {view : View}, view.shape = ⟨batch :: rest⟩ →
        view.shape.dim? 0 = some batch := fun shape => by simp [Shape.dim?, shape]
    have fits : Capacity.fitsBuffer (b.toNat * (dense.sides rows columns).2.toNat) = true := by
      rw [← Shape.elementCount_matrix, ← out]
      exact (Shape.isStorable_iff.mp storable).2
    have shape := congrArg Shape.mk matrix
    have firstSize := joins.first.size
    have secondSize := joins.second.size
    have wholeSize := joins.fills.size
    rw [← flattened] at firstSize secondSize wholeSize
    obtain ⟨_, firstValues⟩ :=
      (fullyConnected_eq_ok shape (first? joins.first.shape) firstSize.symm).mp firstGives
    obtain ⟨_, secondValues⟩ :=
      (fullyConnected_eq_ok shape (first? joins.second.shape) secondSize.symm).mp secondGives
    refine (fullyConnected_eq_ok shape (first? joins.shape) wholeSize.symm).mpr ⟨fits, ?_⟩
    rw [Array.toList_append, List.map_append, firstValues, secondValues, joins.data, joins.batch]
    exact (flatMap_range_add
      (fun entry inside => List.map_congr_left fun output _ =>
        denseOutput_append_left firstSize inside)
      (fun entry _ => List.map_congr_left fun output _ =>
        denseOutput_append_right firstSize entry)).symm
  · right
    have large : (Shape.mk (b :: tail)).isStorable = false := by simpa using storable
    exact ⟨fullyConnected_of_large (joins.shape ▸ inferred b) joins.fills.full large,
      _, List.mem_singleton_self _, large⟩

end Dense

section Convolution

variable {convolution : Convolution} {weights : Constant} {bias : Option Constant}
  {data other : Array Float32} {channels height width : Nat}

/-- A convolution reads its input at the planes of one batch entry. -/
theorem convolutionOutput_congr {batch otherBatch entry otherEntry : Nat}
    (same : ∀ channel < channels, ∀ y < height, ∀ x < width,
      fetch data ((Planes.mk batch channels height width).index entry channel y x) =
        fetch other ((Planes.mk otherBatch channels height width).index otherEntry channel y x))
    (kernelHeight kernelWidth : Nat) (start : Float32) (output row column : Nat) :
    convolutionOutput convolution data ⟨batch, channels, height, width⟩ weights kernelHeight
        kernelWidth start entry output row column =
      convolutionOutput convolution other ⟨otherBatch, channels, height, width⟩ weights
        kernelHeight kernelWidth start otherEntry output row column := by
  refine foldPositions_congr (fun sum channel _ within => ?_) start
  refine foldPositions_congr (fun sum offsetY _ _ => ?_) sum
  rw [Nat.zero_add] at within
  cases vertical : tap? convolution.strideY.toNat convolution.padTop.toNat height row offsetY with
  | none => rfl
  | some y =>
    refine foldPositions_congr (fun sum offsetX _ _ => ?_) sum
    cases horizontal : tap? convolution.strideX.toNat convolution.padLeft.toNat width column
        offsetX with
    | none => rfl
    | some x => simp only [same channel within y (tap?_lt vertical) x (tap?_lt horizontal)]

section Append

variable {batch more all entry output kernelHeight kernelWidth : Nat}

theorem convolutionOutput_append_left (size : data.size = batch * channels * height * width)
    (within : entry < batch) (start : Float32) (row column : Nat) :
    convolutionOutput convolution (data ++ other) ⟨all, channels, height, width⟩ weights
        kernelHeight kernelWidth start entry output row column =
      convolutionOutput convolution data ⟨batch, channels, height, width⟩ weights kernelHeight
        kernelWidth start entry output row column :=
  convolutionOutput_congr (fun _ plane _ below _ inside => fetch_append_left (size ▸
    @index_lt ⟨batch, channels, height, width⟩ _ _ _ _ within plane below inside)) _ _ _ _ _ _

theorem convolutionOutput_append_right (size : data.size = batch * channels * height * width)
    (start : Float32) (row column : Nat) :
    convolutionOutput convolution (data ++ other) ⟨all, channels, height, width⟩ weights
        kernelHeight kernelWidth start (batch + entry) output row column =
      convolutionOutput convolution other ⟨more, channels, height, width⟩ weights kernelHeight
        kernelWidth start entry output row column := by
  refine convolutionOutput_congr (fun channel _ y _ x _ => ?_) _ _ _ _ _ _
  have past : (Planes.mk all channels height width).index (batch + entry) channel y x =
      data.size + (Planes.mk more channels height width).index entry channel y x := by
    simp only [Planes.index, size, Nat.add_mul, Nat.add_assoc]
  rw [past, fetch_append_right]

end Append

theorem convolution2d_joins (joins : Joins b₁ b₂ b rest first second whole)
    (inferred : ∀ batch, convolution.inferShape weights bias ⟨batch :: rest⟩ =
      .ok ⟨batch :: tail⟩)
    (firstGives : convolution2d convolution first weights bias ⟨b₁ :: tail⟩ = .ok firstResult)
    (secondGives : convolution2d convolution second weights bias ⟨b₂ :: tail⟩ =
      .ok secondResult) :
    Yields [⟨b :: tail⟩] (convolution2d convolution whole weights bias ⟨b :: tail⟩)
      (firstResult ++ secondResult) := by
  obtain ⟨_, channels, height, width, outputs, kernelHeight, kernelWidth, rows, columns, images,
    filters, shapes, out⟩ := Convolution.inferShape_eq_ok (inferred b)
  obtain ⟨rfl, rfl⟩ := List.cons_eq_cons.mp (congrArg Shape.extents images)
  obtain ⟨_, rfl⟩ := List.cons_eq_cons.mp (congrArg Shape.extents out)
  by_cases storable : (Shape.mk [b, outputs, rows, columns]).isStorable = true
  · left
    obtain ⟨_, firstValues⟩ := (convolution2d_eq_ok joins.first.shape filters shapes).mp firstGives
    obtain ⟨_, secondValues⟩ :=
      (convolution2d_eq_ok joins.second.shape filters shapes).mp secondGives
    refine (convolution2d_eq_ok joins.shape filters shapes).mpr ⟨storable, ?_⟩
    rw [Array.toList_append, List.map_append, firstValues, secondValues, joins.data, joins.batch,
      Nat.add_mul]
    have size : first.data.size =
        b₁.toNat * channels.toNat * height.toNat * width.toNat := by
      simpa [Nat.mul_assoc] using joins.first.size
    refine (flatMap_range_add (fun plane inside => ?_) fun plane inside => ?_).symm
    · have within : plane / outputs.toNat < b₁.toNat :=
        Nat.div_lt_of_lt_mul (Nat.mul_comm _ _ ▸ inside)
      exact List.flatMap_congr fun row _ => List.map_congr_left fun column _ =>
        congrArg _ (funext fun start => convolutionOutput_append_left size within start row column)
    · have positive : 0 < outputs.toNat := Nat.pos_of_ne_zero fun zero => by simp [zero] at inside
      have entry : (b₁.toNat * outputs.toNat + plane) / outputs.toNat =
          b₁.toNat + plane / outputs.toNat := by
        rw [Nat.mul_comm, Nat.mul_add_div positive]
      have output : (b₁.toNat * outputs.toNat + plane) % outputs.toNat =
          plane % outputs.toNat := by
        rw [Nat.mul_comm, Nat.mul_add_mod]
      rw [entry, output]
      exact List.flatMap_congr fun row _ => List.map_congr_left fun column _ =>
        congrArg _ (funext fun start => convolutionOutput_append_right size start row column)
  · right
    have large : (Shape.mk [b, outputs, rows, columns]).isStorable = false := by
      simpa using storable
    exact ⟨convolution2d_of_large (joins.shape ▸ inferred b) large,
      _, List.mem_singleton_self _, large⟩

end Convolution

section Pooling

variable {pooling : Pooling} {data other : Array Float32} {rows columns : Sweep}

theorem mapM_congr {α β ε : Type} {left right : α → Except ε β} {entries : List α}
    (same : ∀ entry ∈ entries, left entry = right entry) :
    entries.mapM left = entries.mapM right := by
  induction entries with
  | nil => rfl
  | cons entry entries ih =>
    rw [List.mapM_cons, List.mapM_cons, same entry List.mem_cons_self,
      ih fun later member => same later (List.mem_cons_of_mem _ member)]

/-- A window reads its input at the elements of one plane. -/
theorem windowValues_congr {offset otherOffset : Nat}
    (same : ∀ index < rows.extent * columns.extent,
      fetch data (offset + index) = fetch other (otherOffset + index))
    (vertical horizontal : Reach) :
    windowValues data offset rows columns vertical horizontal =
      windowValues other otherOffset rows columns vertical horizontal := by
  have relative : ∀ offset : Nat,
      ((List.range (vertical.last rows.extent - vertical.first)).flatMap fun y =>
        (List.range (horizontal.last columns.extent - horizontal.first)).map fun x =>
          offset + (vertical.first + y) * columns.extent + (horizontal.first + x)) =
      ((List.range (vertical.last rows.extent - vertical.first)).flatMap fun y =>
        (List.range (horizontal.last columns.extent - horizontal.first)).map fun x =>
          (vertical.first + y) * columns.extent + (horizontal.first + x)).map (offset + ·) := by
    intro offset
    simp [List.map_flatMap, Function.comp_def, Nat.add_assoc]
  unfold windowValues
  simp only [relative, List.mapM_map]
  refine if_congr Iff.rfl rfl (mapM_congr fun index member => same index ?_)
  obtain ⟨y, memberY, member⟩ := List.mem_flatMap.mp member
  obtain ⟨x, memberX, rfl⟩ := List.mem_map.mp member
  have below := List.mem_range.mp memberY
  have before := List.mem_range.mp memberX
  have bottom := last_le vertical rows.extent
  have right := last_le horizontal columns.extent
  exact position_lt (by omega) (by omega)

theorem poolingOutput_congr {plane otherPlane : Nat}
    (same : ∀ index < rows.extent * columns.extent,
      fetch data (plane * (rows.extent * columns.extent) + index) =
        fetch other (otherPlane * (rows.extent * columns.extent) + index)) (row column : Nat) :
    poolingOutput pooling data rows columns plane row column =
      poolingOutput pooling other rows columns otherPlane row column := by
  unfold poolingOutput
  simp only [windowValues_congr same]

theorem pooling2d_joins (joins : Joins b₁ b₂ b rest first second whole)
    (inferred : ∀ batch, pooling.inferShape ⟨batch :: rest⟩ = .ok ⟨batch :: tail⟩)
    (firstGives : pooling2d pooling first ⟨b₁ :: tail⟩ = .ok firstResult)
    (secondGives : pooling2d pooling second ⟨b₂ :: tail⟩ = .ok secondResult) :
    Yields [⟨b :: tail⟩] (pooling2d pooling whole ⟨b :: tail⟩) (firstResult ++ secondResult) := by
  obtain ⟨_, channels, height, width, rows, columns, images, out⟩ :=
    Pooling.inferShape_eq_ok (inferred b)
  obtain ⟨rfl, rfl⟩ := List.cons_eq_cons.mp (congrArg Shape.extents images)
  obtain ⟨_, rfl⟩ := List.cons_eq_cons.mp (congrArg Shape.extents out)
  have sizes : ∀ {batch : Extent} {view : View}, view.shape = ⟨[batch, channels, height, width]⟩ →
      view.shape.sizes = [batch.toNat, channels.toNat, height.toNat, width.toNat] :=
    fun shape => by rw [shape]; rfl
  have planes : ∀ {batch : Extent} {view : View}, view.data.size = batch.toNat *
      Shape.volume ([channels, height, width].map UInt32.toNat) →
      view.data.size = batch.toNat * channels.toNat * (height.toNat * width.toNat) :=
    fun size => by simpa [Nat.mul_assoc] using size
  have firstSize := planes joins.first.size
  have wholeSize := planes joins.fills.size
  by_cases storable : (Shape.mk [b, channels, rows, columns]).isStorable = true
  · left
    obtain ⟨_, firstValues⟩ :=
      (pooling2d_eq_ok (sizes joins.first.shape) rfl firstSize).mp firstGives
    obtain ⟨_, secondValues⟩ :=
      (pooling2d_eq_ok (sizes joins.second.shape) rfl (planes joins.second.size)).mp secondGives
    refine (pooling2d_eq_ok (sizes joins.shape) rfl wholeSize).mpr ⟨storable, ?_⟩
    rw [Array.toList_append, List.map_append, firstValues, secondValues, joins.data, joins.batch,
      Nat.add_mul]
    obtain ⟨tall, wide⟩ := extents_sweeps pooling height.toNat width.toNat
    refine (flatMap_range_add (fun plane inside => ?_) fun plane _ => ?_).symm
    · refine List.flatMap_congr fun row _ => List.map_congr_left fun column _ => ?_
      refine poolingOutput_congr (fun index below => fetch_append_left ?_) _ _
      rw [tall, wide] at below ⊢
      exact firstSize ▸ position_lt inside below
    · refine List.flatMap_congr fun row _ => List.map_congr_left fun column _ => ?_
      refine poolingOutput_congr (fun index below => ?_) _ _
      rw [tall, wide, Nat.add_mul, ← firstSize, Nat.add_assoc, fetch_append_right]
  · right
    have large : (Shape.mk [b, channels, rows, columns]).isStorable = false := by
      simpa using storable
    exact ⟨pooling2d_eq_outOfBounds (sizes joins.shape) rfl wholeSize (.inl large),
      _, List.mem_singleton_self _, large⟩

end Pooling

section Lstm

variable {cell : Lstm.Cell} {params : Lstm.Params} {activation : Lstm.Activation}
  {inputSize outputSize units : Extent} {shapes : List Shape}
  {input₁ input₂ input output₁ output₂ output state₁ state₂ state : View}

/-- What two steps give, buffer by buffer behind each other. -/
def LstmOutputs.append (first second : LstmOutputs) : LstmOutputs where
  scratch := first.scratch ++ second.scratch
  outputState := first.outputState ++ second.outputState
  cellState := first.cellState ++ second.cellState
  output := first.output ++ second.output

theorem lstmRows_append {dims : Lstm.Dims} {extras : LstmExtras} {rows more : Nat}
    {input output state : Array Float32} (moreInput moreOutput moreState : Array Float32)
    (inputFull : input.size = rows * dims.inputSize.toNat)
    (outputFull : output.size = rows * dims.outputSize.toNat)
    (stateFull : state.size = rows * dims.units.toNat) :
    lstmRows cell params activation dims extras (rows + more) (input ++ moreInput)
        (output ++ moreOutput) (state ++ moreState) =
      lstmRows cell params activation dims extras rows input output state ++
        lstmRows cell params activation dims extras more moreInput moreOutput moreState := by
  refine map_range_add (fun index inside => ?_) fun index _ => ?_
  · rw [row_append_left inputFull inside, row_append_left outputFull inside,
      row_append_left stateFull inside]
  · rw [row_append_right inputFull, row_append_right outputFull, row_append_right stateFull]

theorem stepOperands_of_fills {batch : Extent} (inputs : Fills batch [inputSize] input)
    (outputs : Fills batch [outputSize] output) (states : Fills batch [units] state) :
    StepOperands batch inputSize outputSize units input output state :=
  .of_full inputs.shape outputs.shape states.shape inputs.full outputs.full states.full

theorem lstm_joins (inputs : Joins b₁ b₂ b [inputSize] input₁ input₂ input)
    (outputs : Joins b₁ b₂ b [outputSize] output₁ output₂ output)
    (states : Joins b₁ b₂ b [units] state₁ state₂ state)
    (groups : params.checkGroups cell = .ok ())
    (inferred : Lstm.inferMatrices cell params b inputSize b outputSize b units = .ok shapes)
    {firstResult secondResult : LstmOutputs}
    (firstGives : lstm cell params activation input₁ output₁ state₁ = .ok firstResult)
    (secondGives : lstm cell params activation input₂ output₂ state₂ = .ok secondResult) :
    Yields shapes (lstm cell params activation input output state)
      (firstResult.append secondResult) := by
  obtain ⟨_, known, checked, _⟩ := Lstm.inferMatrices_eq_ok.mp inferred
  have ops₁ := stepOperands_of_fills inputs.first outputs.first states.first
  have ops₂ := stepOperands_of_fills inputs.second outputs.second states.second
  have ops := stepOperands_of_fills inputs.fills outputs.fills states.fills
  by_cases large : ∃ shape ∈ shapes, shape.isStorable = false
  · exact .inr ⟨lstm_eq_outOfBounds groups inferred ops (.inl large), large⟩
  have storable : ∀ shape ∈ shapes, shape.isStorable = true := by simpa using large
  left
  obtain ⟨extras, found, _, room₁, rfl⟩ := (lstm_eq_ok known checked ops₁).mp firstGives
  obtain ⟨_, same, _, room₂, rfl⟩ := (lstm_eq_ok known checked ops₂).mp secondGives
  obtain rfl := Except.ok.inj (found.symm.trans same)
  refine (lstm_eq_ok known checked ops).mpr ⟨extras, found,
    (bufferSizes_fit_iff inferred).mpr storable, fun occupied => ?_, ?_⟩
  · by_cases empty : b₁ = 0
    · refine room₂ fun none => occupied (UInt32.toNat_inj.mp ?_)
      rw [inputs.batch, empty, none]
      rfl
    · exact room₁ empty
  · rw [inputs.data, outputs.data, states.data, inputs.batch, lstmRows_append _ _ _ ops₁.inputFull
      ops₁.outputFull ops₁.cellFull]
    simp only [LstmOutputs.append, List.flatMap_append, List.append_toArray]

end Lstm

/-- The values of two views behind each other, as a view with another batch. -/
def View.append (batch : Extent) (first second : View) : View where
  shape := ⟨batch :: first.shape.extents.tail⟩
  data := first.data ++ second.data

/-- A layer that treats the entries of a batch apart, full inputs for two batches, and the output
shapes that follow for each batch and for both in one. -/
structure Batches (kind : LayerKind) (rests : List (List Extent)) (b₁ b₂ b : Extent)
    (firsts seconds : List View) (shapes₁ shapes₂ shapes : List Shape) : Prop where
  rowwise : kind.IsRowwise rests
  parameters : kind.checkParameters = .ok ()
  batch : b.toNat = b₁.toNat + b₂.toNat
  firsts : List.Forall₂ (Fills b₁) rests firsts
  seconds : List.Forall₂ (Fills b₂) rests seconds
  firstInferred : kind.inferShapes (batched b₁ rests) = .ok shapes₁
  secondInferred : kind.inferShapes (batched b₂ rests) = .ok shapes₂
  inferred : kind.inferShapes (batched b rests) = .ok shapes

theorem joins_append (batch : b.toNat = b₁.toNat + b₂.toNat) (firstFills : Fills b₁ rest first)
    (secondFills : Fills b₂ rest second) :
    Joins b₁ b₂ b rest first second (first.append b second) where
  batch := batch
  first := firstFills
  second := secondFills
  shape := by rw [View.append, firstFills.shape, List.tail_cons]
  data := rfl

/-- What inference gives for a single input and output, for every batch. -/
theorem single_inferred {infer : Shape → Except ShapeError Shape} {tails : List (List Extent)}
    (inferred : ∀ batch, (do return [← infer ⟨batch :: rest⟩]) = Except.ok (batched batch tails)) :
    ∃ tail, tails = [tail] ∧ ∀ batch, infer ⟨batch :: rest⟩ = .ok ⟨batch :: tail⟩ := by
  obtain ⟨tail, rfl⟩ : ∃ tail, tails = [tail] := by
    obtain ⟨_, _, same⟩ := bind_eq_ok.mp (inferred 0)
    have length := congrArg List.length (pure_eq_ok.mp same)
    rw [length_batched] at length
    exact List.length_eq_one_iff.mp length.symm
  refine ⟨tail, rfl, fun batch => ?_⟩
  obtain ⟨_, given, same⟩ := bind_eq_ok.mp (inferred batch)
  rw [given, (List.cons.inj (pure_eq_ok.mp same)).1]

namespace Batches

variable {kind : LayerKind} {rests : List (List Extent)} {firsts seconds : List View}
  {shapes₁ shapes₂ shapes : List Shape}

/-- The output shapes of the three batches differ in the batch alone. -/
theorem tails (batches : Batches kind rests b₁ b₂ b firsts seconds shapes₁ shapes₂ shapes) :
    ∃ tails, (∀ batch, kind.inferChecked (batched batch rests) = .ok (batched batch tails)) ∧
      shapes₁ = batched b₁ tails ∧ shapes₂ = batched b₂ tails ∧ shapes = batched b tails := by
  obtain ⟨tails, infers⟩ := LayerKind.inferShapes_batch batches.rowwise batches.inferred
  exact ⟨tails, fun batch => (LayerKind.inferShapes_eq_ok.mp (infers batch)).2,
    Except.ok.inj (batches.firstInferred.symm.trans (infers b₁)),
    Except.ok.inj (batches.secondInferred.symm.trans (infers b₂)),
    Except.ok.inj (batches.inferred.symm.trans (infers b))⟩

/-- A layer with one input joins its two views. -/
theorem single (batches : Batches kind rests b₁ b₂ b firsts seconds shapes₁ shapes₂ shapes)
    (one : kind.inputCount = 1) :
    ∃ rest first second, rests = [rest] ∧ firsts = [first] ∧ seconds = [second] ∧
      Joins b₁ b₂ b rest first second (first.append b second) := by
  have count := (LayerKind.inferShapes_eq_ok.mp batches.inferred).1
  rw [length_batched] at count
  obtain ⟨rest, rfl⟩ := List.length_eq_one_iff.mp (count.trans one)
  obtain _ | ⟨firstFills, ⟨⟩⟩ := batches.firsts
  obtain _ | ⟨secondFills, ⟨⟩⟩ := batches.seconds
  exact ⟨rest, _, _, rfl, rfl, rfl, joins_append batches.batch firstFills secondFills⟩

end Batches

/-- A layer that treats the entries of a batch apart gives on two batches behind each other what it
gives on each of them, one behind the other, unless no buffer can hold that. -/
theorem evaluate_batches {kind : LayerKind} {rests : List (List Extent)}
    {firsts seconds : List View} {shapes₁ shapes₂ shapes : List Shape}
    {results₁ results₂ : List (Array Float32)}
    (batches : Batches kind rests b₁ b₂ b firsts seconds shapes₁ shapes₂ shapes)
    (firstGives : evaluate kind firsts shapes₁ = .ok results₁)
    (secondGives : evaluate kind seconds shapes₂ = .ok results₂) :
    Yields shapes (evaluate kind (List.zipWith (View.append b) firsts seconds) shapes)
      (List.zipWith (· ++ ·) results₁ results₂) := by
  obtain ⟨tails, infers, rfl, rfl, rfl⟩ := batches.tails
  cases batches.rowwise with
  | activation =>
    obtain ⟨rest, first, second, rfl, rfl, rfl, joins⟩ := batches.single rfl
    cases firstGives
    cases secondGives
    exact .inl (congrArg (fun data => Except.ok [data]) (activation_joins joins _))
  | softmax deep =>
    obtain ⟨rest, first, second, rfl, rfl, rfl, joins⟩ := batches.single rfl
    obtain ⟨_, firstData, rfl⟩ := evaluate_softmax_eq_ok.mp firstGives
    obtain ⟨_, secondData, rfl⟩ := evaluate_softmax_eq_ok.mp secondGives
    have vector : rest ≠ [] := fun scalar => deep (scalar ▸ List.mem_singleton_self _)
    exact .inl (evaluate_softmax_eq_ok.mpr
      ⟨_, softmax_joins joins vector firstData secondData, rfl⟩)
  | fullyConnected =>
    obtain ⟨rest, first, second, rfl, rfl, rfl, joins⟩ := batches.single rfl
    obtain ⟨tail, rfl, each⟩ := single_inferred infers
    obtain ⟨_, firstData, rfl⟩ := evaluate_fullyConnected_eq_ok.mp firstGives
    obtain ⟨_, secondData, rfl⟩ := evaluate_fullyConnected_eq_ok.mp secondGives
    exact (fullyConnected_joins joins each firstData secondData).single
  | convolution2d =>
    obtain ⟨rest, first, second, rfl, rfl, rfl, joins⟩ := batches.single rfl
    obtain ⟨tail, rfl, each⟩ := single_inferred infers
    obtain ⟨_, firstData, rfl⟩ := evaluate_convolution2d_eq_ok.mp firstGives
    obtain ⟨_, secondData, rfl⟩ := evaluate_convolution2d_eq_ok.mp secondGives
    exact (convolution2d_joins joins each firstData secondData).single
  | pooling2d =>
    obtain ⟨rest, first, second, rfl, rfl, rfl, joins⟩ := batches.single rfl
    obtain ⟨tail, rfl, each⟩ := single_inferred infers
    obtain ⟨_, firstData, rfl⟩ := evaluate_pooling2d_eq_ok.mp firstGives
    obtain ⟨_, secondData, rfl⟩ := evaluate_pooling2d_eq_ok.mp secondGives
    exact (pooling2d_joins joins each firstData secondData).single
  | lstm =>
    obtain ⟨inputSize, outputSize, units, rfl, matrices⟩ :=
      Lstm.inferMatrices_of_batched (infers b)
    obtain _ | ⟨inputs₁, _ | ⟨outputs₁, _ | ⟨states₁, ⟨⟩⟩⟩⟩ := batches.firsts
    obtain _ | ⟨inputs₂, _ | ⟨outputs₂, _ | ⟨states₂, ⟨⟩⟩⟩⟩ := batches.seconds
    obtain ⟨_, _, code, firstStep, rfl⟩ := evaluate_lstm_eq_ok.mp firstGives
    obtain ⟨_, _, same, secondStep, rfl⟩ := evaluate_lstm_eq_ok.mp secondGives
    obtain rfl := Except.ok.inj (code.symm.trans same)
    have joins := lstm_joins (joins_append batches.batch inputs₁ inputs₂)
      (joins_append batches.batch outputs₁ outputs₂) (joins_append batches.batch states₁ states₂)
      (checkGroups_of_parameters batches.parameters) matrices firstStep secondStep
    rcases joins with joined | ⟨failed, unstorable⟩
    · exact .inl (evaluate_lstm_eq_ok.mpr ⟨_, _, code, joined, rfl⟩)
    · refine .inr ⟨?_, unstorable⟩
      simp only [evaluate, requireInput, List.zipWith_cons_cons, List.getElem?_cons_zero,
        List.getElem?_cons_succ, code, bind_ok, failed]
      rfl

/-- Weights for two inputs and three outputs. -/
def wideWeights : Constant where
  info := { shape := ⟨[2, 3]⟩ }
  data := #[1, 2, 3, 4, 5, 6]
  storage := 0
  size_eq := rfl
  storable := by decide

/-- One row and two rows are multiplied as their three rows are. -/
theorem wideWeights_rows :
    let kind := LayerKind.fullyConnected {} wideWeights none
    ∃ row rows, evaluate kind [⟨⟨[1, 2]⟩, #[7, 8]⟩] [⟨[1, 3]⟩] = .ok [row] ∧
      evaluate kind [⟨⟨[2, 2]⟩, #[9, 10, 11, 12]⟩] [⟨[2, 3]⟩] = .ok [rows] ∧
      evaluate kind [⟨⟨[3, 2]⟩, #[7, 8, 9, 10, 11, 12]⟩] [⟨[3, 3]⟩] = .ok [row ++ rows] := by
  intro kind
  have batches : Batches kind [[2]] 1 2 3 [⟨⟨[1, 2]⟩, #[7, 8]⟩] [⟨⟨[2, 2]⟩, #[9, 10, 11, 12]⟩]
      [⟨[1, 3]⟩] [⟨[2, 3]⟩] [⟨[3, 3]⟩] :=
    { rowwise := .fullyConnected, parameters := rfl, batch := rfl
      firsts := .cons ⟨rfl, rfl⟩ .nil, seconds := .cons ⟨rfl, rfl⟩ .nil
      firstInferred := rfl, secondInferred := rfl, inferred := rfl }
  exact ⟨_, _, rfl, rfl, (evaluate_batches batches rfl rfl).of_storable (by decide)⟩

/-- A window of one value that moves along a column of padding. -/
def tallPooling : Pooling where
  padTop := 4294967294
  padRight := 1
  poolWidth := 1
  poolHeight := 1
  strideX := 1
  strideY := 1

/-- Empty planes pool to empty planes, but those of two such batches cannot be counted any more. -/
theorem tallPooling_uncountable :
    ¬∀ (kind : LayerKind) (rests : List (List Extent)) (b₁ b₂ b : Extent)
      (firsts seconds : List View) (shapes₁ shapes₂ shapes : List Shape)
      (results₁ results₂ : List (Array Float32)),
      Batches kind rests b₁ b₂ b firsts seconds shapes₁ shapes₂ shapes →
      evaluate kind firsts shapes₁ = .ok results₁ →
      evaluate kind seconds shapes₂ = .ok results₂ →
      evaluate kind (List.zipWith (View.append b) firsts seconds) shapes =
        .ok (List.zipWith (· ++ ·) results₁ results₂) := by
  intro claim
  have batches : Batches (.pooling2d tallPooling) [[4294967295, 1, 0]] 1 1 2
      [⟨⟨[1, 4294967295, 1, 0]⟩, #[]⟩] [⟨⟨[1, 4294967295, 1, 0]⟩, #[]⟩]
      [⟨[1, 4294967295, 4294967295, 0]⟩] [⟨[1, 4294967295, 4294967295, 0]⟩]
      [⟨[2, 4294967295, 4294967295, 0]⟩] :=
    { rowwise := .pooling2d, parameters := rfl, batch := rfl
      firsts := .cons ⟨rfl, rfl⟩ .nil, seconds := .cons ⟨rfl, rfl⟩ .nil
      firstInferred := rfl, secondInferred := rfl, inferred := rfl }
  have joined := claim _ _ _ _ _ _ _ _ _ _ [#[]] [#[]] batches rfl rfl
  cases joined

end NeuralGraph.Reference
