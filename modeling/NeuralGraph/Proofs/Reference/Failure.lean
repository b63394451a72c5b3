import NeuralGraph.Proofs.Reference.Progress

/-! Where the reference kernels fail. A layer whose shapes pass inference has a value on every full
input but for a few causes; each of them is told by the shapes, and so is the error. -/

namespace NeuralGraph

/-- A computation that fails in no way but by leaving its bounds. -/
abbrev Bounded {α : Type} (result : Except Error α) : Prop := Avoids (· ≠ .outOfBounds) result

namespace Bounded

variable {α : Type}

theorem outOfBounds : Bounded (.error .outOfBounds : Except Error α) :=
  Avoids.error fun other => other rfl

theorem eq_of_failed {result : Except Error α} (bounded : Bounded result)
    (failed : ∀ value, result ≠ .ok value) : result = .error .outOfBounds := by
  cases result with
  | ok value => exact absurd rfl (failed value)
  | error error => rw [not_not.mp (bounded.spares error rfl)]

end Bounded

/-- Whether a number is a signed machine word. -/
def Capacity.IsSigned (value : Int) : Prop := -signedLimit ≤ value ∧ value < signedLimit

instance (value : Int) : Decidable (Capacity.IsSigned value) := inferInstanceAs (Decidable (_ ∧ _))

namespace Reference

/-- Why a layer has no value on full inputs of shapes that have passed inference, by the shapes of
its inputs and outputs, and the error that it ends with. -/
inductive Fails : LayerKind → List Shape → List Shape → Error → Prop where
  /-- A scalar has no axis to take softmax along. -/
  | scalar {beta : Float32} {outputs : List Shape} :
      Fails (.softmax beta) [⟨[]⟩] outputs Fault.scalarSoftmax.error
  /-- The scratch row of a cell without units has no room for its gates. -/
  | noUnits {cell : Lstm.Cell} {params : Lstm.Params} {input outputState : Shape} {batch : Extent}
      {outputs : List Shape} (occupied : batch ≠ 0) :
      Fails (.lstm cell params) [input, outputState, ⟨[batch, 0]⟩] outputs .outOfBounds
  /-- A window that covers rows starts right of the plane. -/
  | beyond {pooling : Pooling} {batch channels height width rows columns : Extent}
      {row column : Nat} (moves : pooling.isGlobal = false) (occupied : batch ≠ 0 ∧ channels ≠ 0)
      (below : row < rows.toNat) (inside : column < columns.toNat)
      (covers : ((sweeps pooling height.toNat width.toNat).1.reach row).first <
        ((sweeps pooling height.toNat width.toNat).1.reach row).last height.toNat)
      (right : (width.toNat : Int) <
        ((sweeps pooling height.toNat width.toNat).2.reach column).start) :
      Fails (.pooling2d pooling) [⟨[batch, channels, height, width]⟩]
        [⟨[batch, channels, rows, columns]⟩] .outOfBounds
  /-- The number of positions that a window covers in the padded plane is no signed word. -/
  | vast {pooling : Pooling} {batch channels height width rows columns : Extent}
      {row column : Nat} (moves : pooling.isGlobal = false) (occupied : batch ≠ 0 ∧ channels ≠ 0)
      (below : row < rows.toNat) (inside : column < columns.toNat)
      (overflows : ¬Capacity.IsSigned
        (((sweeps pooling height.toNat width.toNat).1.reach row).padded *
          ((sweeps pooling height.toNat width.toNat).2.reach column).padded)) :
      Fails (.pooling2d pooling) [⟨[batch, channels, height, width]⟩]
        [⟨[batch, channels, rows, columns]⟩] .outOfBounds
  /-- There is no buffer for an output: its elements cannot be counted, or there are too many. -/
  | storage {kind : LayerKind} {inputs outputs : List Shape} {shape : Shape}
      (member : shape ∈ outputs) (large : shape.isStorable = false) :
      Fails kind inputs outputs .outOfBounds

/-- A layer that computes something, on inputs in memory, with the output shapes that follow from
theirs. -/
structure Posed (kind : LayerKind) (views : List View) (shapes : List Shape) : Prop
    extends Applied kind views shapes where
  stored : ∀ view ∈ views, view.shape.isStorable = true

theorem tabulate_of_large {count : Nat} (value : Nat → Except Error Float32)
    (large : Capacity.fitsBuffer count = false) : tabulate count value = .error .outOfBounds := by
  simp [tabulate, large]

/-- Where an output has no buffer, either its elements cannot be counted or there are too many. -/
theorem fitsBuffer_of_unstorable {out : Shape} (large : out.isStorable = false)
    (countable : out.isCountable = true) : Capacity.fitsBuffer out.elementCount = false := by
  simpa [Shape.isStorable, countable] using large

theorem addition_of_large {a b : View} {out : Shape} (large : out.isStorable = false) :
    addition a b out = .error .outOfBounds := by
  unfold addition Shape.count
  by_cases countable : out.isCountable = true
  · rw [if_pos countable, bind_ok]
    exact tabulate_of_large _ (fitsBuffer_of_unstorable large countable)
  · rw [if_neg countable]
    rfl

theorem fullyConnected_of_large {dense : Dense} {weights : Constant} {bias : Option Constant}
    {input : View} {out : Shape} (inferred : dense.inferShape weights bias input.shape = .ok out)
    (full : input.data.size = input.shape.elementCount) (large : out.isStorable = false) :
    fullyConnected dense input weights bias = .error .outOfBounds := by
  obtain ⟨batch, rest, rows, columns, extents, matrix, flattened, _, rfl⟩ :=
    Dense.inferShape_eq_ok inferred
  have first : input.shape.dim? 0 = some batch := by simp [Shape.dim?, extents]
  have count : batch.toNat * (dense.sides rows columns).1.toNat = input.data.size := by
    rw [full, flattened, Shape.elementCount, Shape.sizes, extents]
    rfl
  have unfit : Capacity.fitsBuffer (batch.toNat * (dense.sides rows columns).2.toNat) = false := by
    rw [← Bool.not_eq_true]
    intro fits
    rw [Shape.isStorable_matrix.mpr fits] at large
    cases large
  unfold fullyConnected
  simp only [matrix, first, count, if_true]
  exact tabulate_of_large _ unfit

theorem convolution2d_of_large {convolution : Convolution} {weights : Constant}
    {bias : Option Constant} {input : View} {out : Shape}
    (inferred : convolution.inferShape weights bias input.shape = .ok out)
    (large : out.isStorable = false) :
    convolution2d convolution input weights bias out = .error .outOfBounds := by
  obtain ⟨batch, channels, height, width, outputs, kernelHeight, kernelWidth, rows, columns,
    inputShape, filterShape, _, rfl⟩ := Convolution.inferShape_eq_ok inferred
  have kernel : kernelSize weights = .ok (kernelHeight.toNat, kernelWidth.toNat) := by
    simp [kernelSize, filterShape, Shape.dim?]
  unfold convolution2d
  simp only [inputShape, Planes.ofShape?, Shape.sizes, List.map_cons, List.map_nil, kernel, bind_ok]
  unfold Shape.count
  by_cases countable : (Shape.mk [batch, outputs, rows, columns]).isCountable = true
  · simp only [countable, if_true, bind_ok]
    split
    · rfl
    · split
      · rfl
      · exact tabulate_of_large _ (fitsBuffer_of_unstorable large countable)
  · simp only [countable]
    rfl

theorem bounded_fetch (data : Array Float32) (index : Nat) : Bounded (fetch data index) := by
  unfold fetch
  split
  · exact .ok _
  · exact .outOfBounds

theorem bounded_foldPositions {α : Type} {step : α → Nat → Except Error α}
    (steps : ∀ value position, Bounded (step value position)) (start count : Nat) (value : α) :
    Bounded (foldPositions step start count value) := by
  induction count generalizing start value with
  | zero => exact .ok value
  | succ count ih =>
    rw [foldPositions]
    split
    · rename_i error failed
      exact .error ((steps value start).spares error failed)
    · exact ih _ _

theorem bounded_tabulate {value : Nat → Except Error Float32}
    (each : ∀ index, Bounded (value index)) (count : Nat) : Bounded (tabulate count value) := by
  unfold tabulate
  split
  · exact bounded_foldPositions (fun _ index => (each index).bind fun _ => .ok _) _ _ _
  · exact .outOfBounds

theorem bounded_poolingOutput (pooling : Pooling) (data : Array Float32) (rows columns : Sweep)
    (plane row column : Nat) :
    Bounded (poolingOutput pooling data rows columns plane row column) := by
  have counted (vertical horizontal : Reach) : Bounded (paddedCount vertical horizontal) := by
    unfold paddedCount
    dsimp only
    split
    · exact .ok _
    · exact .outOfBounds
  have read (offset : Nat) (vertical horizontal : Reach) :
      Bounded (windowValues data offset rows columns vertical horizontal) := by
    unfold windowValues
    dsimp only
    split
    · exact .outOfBounds
    · exact .mapM (bounded_fetch data) _
  exact (counted _ _).bind fun _ => (read _ _ _).bind fun _ => .ok _

section Pooling

variable {pooling : Pooling} {input : View} {out : Shape}
  {batch channels height width rows columns : Nat}

theorem bounded_pooling2d (inputSizes : input.shape.sizes = [batch, channels, height, width])
    (outSizes : out.sizes = [batch, channels, rows, columns]) :
    Bounded (pooling2d pooling input out) := by
  have counted : Bounded out.count := by
    unfold Shape.count
    split
    · exact .ok _
    · exact .outOfBounds
  unfold pooling2d Planes.ofShape?
  simp only [inputSizes, outSizes]
  refine counted.bind fun count => .guard (fun other => other rfl) ?_
  refine bounded_tabulate (fun index => ?_) count
  split
  · exact bounded_poolingOutput _ _ _ _ _ _ _
  · exact .ok _

/-- Pooling stops at its bounds where it has no value. -/
theorem pooling2d_eq_outOfBounds (inputSizes : input.shape.sizes = [batch, channels, height, width])
    (outSizes : out.sizes = [batch, channels, rows, columns])
    (full : input.data.size = batch * channels * (height * width))
    (stops : out.isStorable = false ∨
      batch * channels ≠ 0 ∧ PoolingStuck pooling height width rows columns) :
    pooling2d pooling input out = .error .outOfBounds := by
  refine (bounded_pooling2d inputSizes outSizes).eq_of_failed fun value computed => ?_
  have storable := ((pooling2d_eq_ok inputSizes outSizes full).mp computed).1
  rcases stops with large | stuck
  · rw [storable] at large
    cases large
  · exact (pooling2d_total_iff inputSizes outSizes full storable).mp ⟨value, computed⟩ stuck

end Pooling

/-- One window over the whole of a plane in memory stops nowhere. -/
theorem not_poolingStuck_of_global {pooling : Pooling} (whole : pooling.isGlobal = true)
    {height width : Nat} (small : Capacity.fitsBuffer (height * width) = true) :
    ¬PoolingStuck pooling height width 1 1 := by
  rintro ⟨row, below, column, inside, stuck⟩
  obtain rfl : row = 0 := by omega
  obtain rfl : column = 0 := by omega
  have few := of_decide_eq_true small
  simp only [Capacity.scalarBytes] at few
  have area : ((height * width : Nat) : Int) = (height : Int) * width := by push_cast; rfl
  simp [WindowStuck, sweeps, whole, Sweep.reach, Reach.padded] at stuck
  omega

section Step

variable {cell : Lstm.Cell} {params : Lstm.Params} {activation : Lstm.Activation}
  {input outputState cellState : View} {batch inputSize outputSize units : Extent}
  {shapes : List Shape}

theorem bounded_lstm (groups : params.checkGroups cell = .ok ())
    (inferred : Lstm.inferMatrices cell params batch inputSize batch outputSize batch units =
      .ok shapes)
    (operands : StepOperands batch inputSize outputSize units input outputState cellState) :
    Bounded (lstm cell params activation input outputState cellState) := by
  obtain ⟨_, known, checked, _⟩ := Lstm.inferMatrices_eq_ok.mp inferred
  obtain ⟨extras, found⟩ := lstmExtras_total groups
  rw [operands.lstm_eq known checked, lstmStep, found, bind_ok]
  exact .guard (fun other => other rfl) (.guard (fun other => other rfl) (.ok _))

/-- A step stops at its bounds where it has no result. -/
theorem lstm_eq_outOfBounds (groups : params.checkGroups cell = .ok ())
    (inferred : Lstm.inferMatrices cell params batch inputSize batch outputSize batch units =
      .ok shapes)
    (operands : StepOperands batch inputSize outputSize units input outputState cellState)
    (stops : (∃ shape ∈ shapes, shape.isStorable = false) ∨ (batch ≠ 0 ∧ units = 0)) :
    lstm cell params activation input outputState cellState = .error .outOfBounds := by
  refine (bounded_lstm groups inferred operands).eq_of_failed fun result stepped => ?_
  obtain ⟨storable, room⟩ := (lstm_total_iff groups inferred operands).mp ⟨result, stepped⟩
  rcases stops with ⟨shape, member, large⟩ | empty
  · rw [storable shape member] at large
    cases large
  · exact room empty

end Step

variable {kind : LayerKind} {views : List View} {shapes : List Shape} {error : Error}

theorem fails_of_poolingStuck {pooling : Pooling}
    {batch channels height width rows columns : Extent} (occupied : batch ≠ 0 ∧ channels ≠ 0)
    (whole : pooling.isGlobal = true → rows = 1 ∧ columns = 1)
    (small : Capacity.fitsBuffer (batch.toNat * channels.toNat * (height.toNat * width.toNat)) =
      true) (window : PoolingStuck pooling height.toNat width.toNat rows.toNat columns.toNat) :
    ∃ error, Fails (.pooling2d pooling) [⟨[batch, channels, height, width]⟩]
      [⟨[batch, channels, rows, columns]⟩] error := by
  have moves : pooling.isGlobal = false := by
    rw [← Bool.not_eq_true]
    intro global
    obtain ⟨rfl, rfl⟩ := whole global
    refine not_poolingStuck_of_global global (decide_eq_true ?_) window
    have plane : 1 * (height.toNat * width.toNat) ≤
        batch.toNat * channels.toNat * (height.toNat * width.toNat) :=
      Nat.mul_le_mul_right _ (Nat.pos_of_ne_zero (mul_toNat_ne_zero.mpr occupied))
    have few := of_decide_eq_true small
    simp only [Capacity.scalarBytes] at few ⊢
    omega
  obtain ⟨tall, wide⟩ := extents_sweeps pooling height.toNat width.toNat
  obtain ⟨row, below, column, inside, ⟨covers, right⟩ | overflows⟩ := window
  · rw [tall] at covers
    rw [wide] at right
    exact ⟨_, .beyond moves occupied below inside covers right⟩
  · exact ⟨_, .vast moves occupied below inside overflows⟩

/-- What stops a kernel is one of the causes. -/
theorem Stuck.fails (stuck : Stuck kind (views.map (·.shape)) shapes)
    (posed : Posed kind views shapes) : ∃ error, Fails kind (views.map (·.shape)) shapes error := by
  generalize inputs : views.map (·.shape) = sources at stuck
  cases stuck with
  | softmax => exact ⟨_, .scalar⟩
  | lstm occupied => exact ⟨_, .noUnits occupied⟩
  | pooling2d occupied window =>
    obtain ⟨view, _, _, _, _, _, _, rfl, shape, same, _, whole⟩ := posed.planes
    have small := (Shape.isStorable_iff.mp (posed.stored view List.mem_cons_self)).2
    rw [shape, Shape.elementCount_planes] at small
    simp only [List.map_cons, List.map_nil, shape, List.cons.injEq, Shape.mk.injEq,
      and_true] at inputs same
    obtain ⟨rfl, rfl, rfl, rfl⟩ := inputs
    obtain ⟨_, _, rfl, rfl⟩ := same
    exact fails_of_poolingStuck occupied whole small window

/-- Pooling fails where its result has no buffer or a plane needs a window that cannot be taken. -/
theorem Posed.evaluate_pooling2d_stops {pooling : Pooling}
    {batch channels height width rows columns : Extent}
    (posed : Posed (.pooling2d pooling) views shapes)
    (inputs : views.map (·.shape) = [⟨[batch, channels, height, width]⟩])
    (outputs : shapes = [⟨[batch, channels, rows, columns]⟩])
    (stops : (Shape.mk [batch, channels, rows, columns]).isStorable = false ∨
      (batch ≠ 0 ∧ channels ≠ 0) ∧
        PoolingStuck pooling height.toNat width.toNat rows.toNat columns.toNat) :
    evaluate (.pooling2d pooling) views shapes = .error .outOfBounds := by
  obtain ⟨view, rfl, shape⟩ := List.map_eq_singleton_iff.mp inputs
  subst outputs
  have full := posed.full view List.mem_cons_self
  rw [shape, Shape.elementCount_planes] at full
  have sizes : view.shape.sizes = [batch.toNat, channels.toNat, height.toNat, width.toNat] := by
    rw [shape]
    rfl
  have pooled : pooling2d pooling view ⟨[batch, channels, rows, columns]⟩ = .error .outOfBounds :=
    pooling2d_eq_outOfBounds sizes rfl full (stops.imp_right (.imp_left mul_toNat_ne_zero.mpr))
  simp [evaluate, requireInput, requireOutput, pooled, bind, Except.bind]

/-- A cell fails where an output has no buffer or a row has no units for its gates. -/
theorem Posed.evaluate_lstm_stops {cell : Lstm.Cell} {params : Lstm.Params}
    (posed : Posed (.lstm cell params) views shapes)
    (stops : ∀ batch units, (views.map (·.shape))[2]? = some ⟨[batch, units]⟩ →
      (∃ shape ∈ shapes, shape.isStorable = false) ∨ (batch ≠ 0 ∧ units = 0)) :
    evaluate (.lstm cell params) views shapes = .error .outOfBounds := by
  obtain ⟨_, _, cellState, batch, _, _, units, rfl, groups, inferred, operands⟩ := posed.step
  obtain ⟨activation, code⟩ := posed.activation cell params rfl
  have stepped := fun activation => @lstm_eq_outOfBounds _ _ activation _ _ _ _ _ _ _ _ groups
    inferred operands (stops batch units (congrArg some operands.cellShape))
  simp only [evaluate, requireInput, List.getElem?_cons_zero, List.getElem?_cons_succ, code,
    bind_ok, stepped]
  rfl

/-- An output that no buffer can hold stops every kernel. -/
theorem Posed.evaluate_of_large (posed : Posed kind views shapes) {shape : Shape}
    (member : shape ∈ shapes) (large : shape.isStorable = false) :
    evaluate kind views shapes = .error .outOfBounds := by
  obtain ⟨count, checked⟩ := posed.inferChecked
  cases kind with
  | input _ | output _ => cases posed.operation
  | activation curve | softmax beta =>
    obtain ⟨view, rfl, _⟩ := posed.single rfl
    cases checked
    rw [List.mem_singleton.mp member, posed.stored view List.mem_cons_self] at large
    cases large
  | addition =>
    obtain ⟨a, b, rfl⟩ := List.length_eq_two.mp count
    simp only [LayerKind.inferChecked, List.map_cons, List.map_nil] at checked
    split at checked
    · cases checked
      obtain rfl := List.mem_singleton.mp member
      simp [evaluate, requireInput, requireOutput, addition_of_large large, bind, Except.bind]
    · cases checked
  | fullyConnected dense weights bias =>
    obtain ⟨view, rfl, full⟩ := posed.single rfl
    obtain ⟨out, inferred, same⟩ := bind_eq_ok.mp checked
    obtain rfl := pure_eq_ok.mp same
    obtain rfl := List.mem_singleton.mp member
    simp [evaluate, requireInput, fullyConnected_of_large inferred full large, bind, Except.bind]
  | convolution2d convolution weights bias =>
    obtain ⟨view, rfl, _⟩ := posed.single rfl
    obtain ⟨out, inferred, same⟩ := bind_eq_ok.mp checked
    obtain rfl := pure_eq_ok.mp same
    obtain rfl := List.mem_singleton.mp member
    simp [evaluate, requireInput, requireOutput, convolution2d_of_large inferred large, bind,
      Except.bind]
  | pooling2d pooling =>
    obtain ⟨view, _, _, _, _, _, _, rfl, shape, rfl, _⟩ := posed.planes
    obtain rfl := List.mem_singleton.mp member
    exact posed.evaluate_pooling2d_stops (congrArg ([·]) shape) rfl (.inl large)
  | lstm cell params =>
    exact posed.evaluate_lstm_stops fun _ _ _ => .inl ⟨shape, member, large⟩

/-- Every cause makes the kernel fail, with the error that it names. -/
theorem Fails.evaluate_eq_error (fails : Fails kind (views.map (·.shape)) shapes error)
    (posed : Posed kind views shapes) : evaluate kind views shapes = .error error := by
  generalize inputs : views.map (·.shape) = sources at fails
  cases fails with
  | @scalar beta =>
    obtain ⟨⟨shape, data⟩, rfl, scalar⟩ := List.map_eq_singleton_iff.mp inputs
    cases scalar
    have stops : softmax beta ⟨⟨[]⟩, data⟩ = .error Fault.scalarSoftmax.error := rfl
    simp [evaluate, requireInput, stops, bind, Except.bind]
  | @noUnits cell params _ _ _ _ occupied =>
    refine posed.evaluate_lstm_stops fun batch units last => .inr ?_
    rw [inputs] at last
    cases last
    exact ⟨occupied, rfl⟩
  | @beyond pooling _ _ height width _ _ row column _ occupied below inside covers right =>
    obtain ⟨tall, wide⟩ := extents_sweeps pooling height.toNat width.toNat
    refine posed.evaluate_pooling2d_stops inputs rfl
      (.inr ⟨occupied, row, below, column, inside, .inl ?_⟩)
    rw [tall, wide]
    exact ⟨covers, right⟩
  | vast _ occupied below inside overflows =>
    exact posed.evaluate_pooling2d_stops inputs rfl
      (.inr ⟨occupied, _, below, _, inside, .inr overflows⟩)
  | storage member large => exact posed.evaluate_of_large member large

/-- A layer without a cause to fail has a value of the inferred shapes. -/
theorem Posed.evaluate_total (posed : Posed kind views shapes)
    (free : ∀ error, ¬Fails kind (views.map (·.shape)) shapes error) :
    ∃ results, evaluate kind views shapes = .ok results ∧
      List.Forall₂ (fun data shape => data.size = shape.elementCount) results shapes := by
  have storable : ∀ shape ∈ shapes, shape.isStorable = true := by
    intro shape member
    by_contra large
    exact free _ (.storage member (by simpa using large))
  refine progress { toApplied := posed.toApplied, storable } fun stuck => ?_
  obtain ⟨error, fails⟩ := stuck.fails posed
  exact free error fails

/-- The reference kernels fail for the listed causes and for no other: without one the layer has a
value for each output, of the inferred shape, and with one it fails as listed. -/
theorem evaluate_exact (posed : Posed kind views shapes) :
    ((∃ results, evaluate kind views shapes = .ok results ∧
        List.Forall₂ (fun data shape => data.size = shape.elementCount) results shapes) ↔
      ∀ error, ¬Fails kind (views.map (·.shape)) shapes error) ∧
    ∀ error, evaluate kind views shapes = .error error ↔
      Fails kind (views.map (·.shape)) shapes error := by
  have causes : ∀ error, evaluate kind views shapes = .error error ↔
      Fails kind (views.map (·.shape)) shapes error := by
    refine fun error => ⟨fun failed => ?_, fun fails => fails.evaluate_eq_error posed⟩
    by_contra spared
    have free : ∀ other, ¬Fails kind (views.map (·.shape)) shapes other := by
      intro other fails
      have same := Except.error.inj (failed.symm.trans (fails.evaluate_eq_error posed))
      exact spared (same ▸ fails)
    obtain ⟨results, evaluated, _⟩ := posed.evaluate_total free
    rw [failed] at evaluated
    cases evaluated
  refine ⟨⟨?_, posed.evaluate_total⟩, causes⟩
  rintro ⟨results, evaluated, _⟩ error fails
  rw [fails.evaluate_eq_error posed] at evaluated
  cases evaluated

/-- A window that is as wide as the padded plane, which has one element. -/
def wideWindow : Pooling where
  poolWidth := 3037000500
  poolHeight := 3037000500
  strideX := 1
  strideY := 1
  padRight := 3037000499
  padBottom := 3037000499

/-- The only window starts at the element, and the kernel cannot take it. -/
theorem wideWindow_fails :
    evaluate (.pooling2d wideWindow) [⟨⟨[1, 1, 1, 1]⟩, #[1]⟩] [⟨[1, 1, 1, 1]⟩] =
        .error .outOfBounds ∧
      ((sweeps wideWindow 1 1).2.reach 0).start = 0 := by
  have inferred : (LayerKind.pooling2d wideWindow).inferShapes [⟨[1, 1, 1, 1]⟩] =
      .ok [⟨[1, 1, 1, 1]⟩] := by decide +kernel
  have posed : Posed (.pooling2d wideWindow) [⟨⟨[1, 1, 1, 1]⟩, #[1]⟩] [⟨[1, 1, 1, 1]⟩] := {
    operation := rfl
    parameters := rfl
    inferred
    activation := fun _ _ same => LayerKind.noConfusion same
    full := by simp [Shape.elementCount, Shape.sizes]
    stored := by decide }
  have inside : 0 < (1 : Extent).toNat := by decide
  have overflows : ¬Capacity.IsSigned
      (((sweeps wideWindow (1 : Extent).toNat (1 : Extent).toNat).1.reach 0).padded *
        ((sweeps wideWindow (1 : Extent).toNat (1 : Extent).toNat).2.reach 0).padded) := by
    decide +kernel
  have fails : Fails (.pooling2d wideWindow) [⟨[1, 1, 1, 1]⟩] [⟨[1, 1, 1, 1]⟩] .outOfBounds :=
    .vast rfl (by decide) inside inside overflows
  exact ⟨((evaluate_exact posed).2 _).mpr fails, by decide +kernel⟩

end Reference

end NeuralGraph
