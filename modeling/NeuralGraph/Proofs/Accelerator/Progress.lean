import NeuralGraph.Proofs.Accelerator.Backend
import NeuralGraph.Proofs.Reference.Progress

/-! Progress of the accelerator. Of the layers on which the reference kernels are stuck it builds
none but pooling, and native pooling runs whatever its windows are: its spans never leave the
plane. -/

namespace NeuralGraph.Accelerator

open Staging (Keeps)

variable {descriptor : QueueDescriptor} {info : WorkloadInfo}

namespace PoolingFunction

variable {pooling : Pooling} {function : PoolingFunction} {input output : Handle}
  {data : Array Float32}

/-- Native pooling has a value for each position of its output. -/
theorem size_poolAll {batch channels height width rows columns : Extent}
    (configured : configure pooling (.imported input) (.imported output) = .ok function)
    (inputShape : input.shape = ⟨[batch, channels, height, width]⟩)
    (outputShape : output.shape = ⟨[batch, channels, rows, columns]⟩)
    (full : data.size = input.shape.elementCount) :
    (function.poolAll data).size = output.shape.elementCount := by
  obtain ⟨_, _, _, _, _, _, _, _, inputSizes, outputSizes, _, tall, wide, rfl⟩ :=
    configure_eq_ok configured
  simp only [Operand.shape, inputShape, outputShape, Shape.sizes, List.map_cons, List.map_nil,
    List.cons.injEq, and_true] at inputSizes outputSizes
  obtain ⟨rfl, rfl, rfl, rfl⟩ := inputSizes
  obtain ⟨_, _, rfl, rfl⟩ := outputSizes
  have area : 0 < height.toNat * width.toNat :=
    Nat.mul_pos (Nat.pos_of_ne_zero tall) (Nat.pos_of_ne_zero wide)
  have size : data.size = batch.toNat * channels.toNat * (height.toNat * width.toNat) := by
    rw [full, inputShape, Shape.elementCount_planes]
  have count : output.shape.elementCount =
      batch.toNat * channels.toNat * (rows.toNat * columns.toNat) := by
    rw [outputShape, Shape.elementCount_planes]
  simp only [poolAll, size, Nat.mul_div_cancel _ area, Nat.min_self, List.size_toArray, count]
  apply length_flatMap_range
  intro plane _
  rw [pool, List.flatMap_map]
  apply length_flatMap_range
  intro row _
  simp

/-- Native pooling overwrites its output, whatever its windows are. -/
theorem run_total {device : Device} {batch channels height width rows columns : Extent}
    (configured : configure pooling (.imported input) (.imported output) = .ok function)
    (inputShape : input.shape = ⟨[batch, channels, height, width]⟩)
    (outputShape : output.shape = ⟨[batch, channels, rows, columns]⟩)
    (read : device.host.read? input = some data) (full : data.size = input.shape.elementCount)
    (written : ∃ held, device.host.read? output = some held ∧
      held.size = output.shape.elementCount) :
    ∃ host, function.run device = ({ device with host }, .ok ()) ∧
      host.SameSizes device.host := by
  have operands := operands_of_configure configured
  have fits : device.host.Fits output (function.poolAll data) := by
    obtain ⟨held, found, size⟩ := written
    exact ⟨held, found, (size_poolAll configured inputShape outputShape full).trans size.symm⟩
  refine ⟨_, ?_, HostMemory.sameSizes_replace fits⟩
  rw [run_eq_store, operands.1, operands.2]
  refine Operand.store_imported ?_ fits
  rw [Operand.read_imported_eq_ok.mpr read]
  rfl

end PoolingFunction

/-- A cell that has been built has units. -/
theorem units_of_created {cell : Lstm.Cell} {params : Lstm.Params} {device next : Device}
    {workload : Workload} (kind : descriptor.kind = .lstm cell params)
    (created : create descriptor info device = (next, .ok workload)) :
    ∃ dims, params.dims = .ok dims ∧ dims.units ≠ 0 := by
  obtain ⟨_, _, built, _⟩ := (create_lstm_eq_ok kind).mp created
  obtain ⟨_, _, _, weights, _, allocated, _⟩ := (LstmWorkload.create_eq_ok kind).mp built
  obtain ⟨held, _⟩ := LstmWeights.allocate_eq_ok allocated
  refine ⟨weights.dims, held.dims, fun none => held.dims_ne_zero.1 ?_⟩
  rw [none]
  rfl

/-- Softmax of a scalar is not supported. -/
theorem SoftmaxFunction.axis_of_supported {beta : Float32} {inputs outputs : List TensorInfo}
    (supported : supports (.softmax beta) inputs outputs = .supported) :
    inputs.map (·.shape) ≠ [⟨[]⟩] := by
  obtain ⟨_, single⟩ := andThen_eq_supported.mp supported
  obtain ⟨input, output, rfl, rfl, valid⟩ := checkSingle_eq_supported.mp single
  intro scalar
  have shape : input.shape = ⟨[]⟩ := by simpa using scalar
  simp [validate, shape, Shape.rank] at valid

/-- Of the layers on which a reference kernel is stuck, only pooling is built. -/
theorem pooling_of_stuck {device next : Device} {workload : Workload}
    (supported : supports descriptor.kind info.inputs info.outputs = .supported)
    (created : create descriptor info device = (next, .ok workload))
    (fits : descriptor.validate info = .ok ()) (checked : descriptor.Checked)
    (stuck : descriptor.Stuck) :
    ∃ pooling, descriptor.kind = .pooling2d pooling ∧
      buildSingle descriptor info = .ok workload := by
  obtain ⟨⟨_, inputShapes⟩, _, _⟩ := QueueDescriptor.validate_eq_ok.mp fits
  have inferred := checked.inferred
  unfold QueueDescriptor.Stuck at stuck
  generalize kind : descriptor.kind = operation at stuck supported inferred
  generalize inputs : descriptor.inputs.map (·.shape) = sources at stuck inferred
  generalize descriptor.outputs.map (·.shape) = shapes at stuck inferred
  cases stuck with
  | softmax =>
    exact absurd (inputShapes.symm.trans inputs) (SoftmaxFunction.axis_of_supported supported)
  | @pooling2d pooling _ _ _ _ _ _ _ _ =>
    rw [create_of_not_lstm (by simp [kind])] at created
    exact ⟨pooling, rfl, (Prod.mk.inj created).2⟩
  | lstm _ =>
    obtain ⟨_, cellChecked⟩ := LayerKind.inferShapes_eq_ok.mp inferred
    obtain ⟨_, _, _, _, _, units, operands, matrices⟩ := Lstm.inferShapes_eq_ok.mp cellChecked
    obtain ⟨_, known, _⟩ := Lstm.inferMatrices_eq_ok.mp matrices
    obtain ⟨dims, same, occupied⟩ := units_of_created kind created
    rw [known, Except.ok.injEq] at same
    subst dims
    simp only [List.cons.injEq, Shape.mk.injEq, and_true] at operands
    exact absurd operands.2.2.2.symm occupied

/-- What the accelerator has accepted and built runs. -/
theorem create_progress {device next : Device} {workload : Workload} {host : HostMemory}
    {staging : Staging} (supported : supports descriptor.kind info.inputs info.outputs = .supported)
    (created : create descriptor info device = (next, .ok workload))
    (fits : descriptor.validate info = .ok ()) (checked : descriptor.Checked)
    (backed : descriptor.Backed host) (keeps : Keeps next.staging.slots.size next.staging staging) :
    ∃ after, workload.execute { host, staging } = ({ host := after, staging }, .ok ()) ∧
      after.SameSizes host := by
  by_cases stuck : descriptor.Stuck
  · obtain ⟨pooling, kind, built⟩ := pooling_of_stuck supported created fits checked stuck
    obtain ⟨input, output, function, batch, channels, height, width, rows, columns, inputs, outputs,
      configured, inputShape, outputShape, execution⟩ := buildSingle_pooling kind supported built
    obtain ⟨data, read, full⟩ := backed.inputs input (by simp [inputs])
    obtain ⟨after, ran, same⟩ := @PoolingFunction.run_total _ _ _ _ _ { host, staging } _ _ _ _ _ _
      configured inputShape outputShape read full (backed.written output (by simp [outputs]))
    exact ⟨after, execution ▸ @execute_prepared (.pooling function) _ _ ran, same⟩
  · obtain ⟨_, _, follows⟩ := create_follows supported created
    obtain ⟨after, executed, same⟩ :=
      @Reference.execute_progress _ { host, staging } checked backed stuck
    exact ⟨after, follows staging keeps host _ backed.toReady executed, same⟩

end NeuralGraph.Accelerator
