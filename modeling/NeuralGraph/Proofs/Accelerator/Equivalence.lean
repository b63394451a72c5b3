import NeuralGraph.Proofs.Accelerator.Retention
import NeuralGraph.Proofs.Reference.Progress

/-! Native functions in place of the reference kernels they were written apart from. Wherever the
kernel gives a result, the function can be configured and prepared, and what it writes is that
result. -/

namespace NeuralGraph.Accelerator

variable {device : Device}

namespace PoolingFunction

variable {pooling : Pooling} {source target : TensorInfo} {input output : Operand}
  {data result : Array Float32}

/-- Supported pooling writes what the reference kernel gives, wherever its windows lie. -/
theorem run_writes_pooling2d (supported : validate pooling source target = .supported)
    (inputShape : input.shape = source.shape) (outputShape : output.shape = target.shape)
    (read : input.read device = .ok data) (full : data.size = source.shape.elementCount)
    (room : ∃ held, output.read device = .ok held ∧ held.size = target.shape.elementCount)
    (pooled : Reference.pooling2d pooling ⟨source.shape, data⟩ target.shape = .ok result) :
    ∃ function prepared after, configure pooling input output = .ok function ∧
      NativeFunction.prepare { plan := .pooling function } device.staging =
        .ok (prepared, device.staging) ∧
      prepared.run device = (after, .ok ()) ∧
      output.write device result = .ok after ∧ output.read after = .ok result := by
  obtain ⟨batch, channels, height, width, rows, columns, sourceExtents, targetExtents⟩ :=
    validate_eq_supported supported
  obtain ⟨function, configured⟩ := configure_total supported inputShape outputShape
  have operands := operands_of_configure configured
  have computed : function.poolAll data = result := by
    rw [← inputShape] at full
    rw [← inputShape, ← outputShape] at pooled
    exact poolAll_eq configured (inputShape.trans sourceExtents) (outputShape.trans targetExtents)
      full pooled
  have size : result.size = target.shape.elementCount := by
    refine Reference.size_pooling2d (by rw [sourceExtents]; rfl) (by rw [targetExtents]; rfl) ?_
      pooled
    rw [full, sourceExtents, Shape.elementCount_planes]
  obtain ⟨held, heldRead, heldSize⟩ := room
  obtain ⟨after, written, stored⟩ := Operand.write_total heldRead (size.trans heldSize.symm)
  refine ⟨function, { plan := .pooling function, prepared := true }, after, configured, rfl, ?_,
    written, stored⟩
  have runs : function.run device = (after, .ok ()) := by
    rw [run_eq_store, operands.1, operands.2, read, bind_ok, computed]
    simp only [Operand.store, pure, Except.pure, written]
  simp only [NativeFunction.run, if_true, Plan.run, runs]

/-- Padded averages over windows of two by two that move down the plane only. The first lies in
the padding, the others partly. -/
def fallingWindows : Pooling where
  algorithm := .average
  padLeft := 1
  padTop := 2
  padBottom := 1
  poolWidth := 2
  poolHeight := 2
  strideY := 2
  padding := .ignoreValue

/-- A plane of two by two and room for three rows of two averages. -/
def fallingDevice : Device where
  host := { buffers := #[#[1, 2, 3, 4], Array.replicate 6 0] }

theorem fallingWindows_pool : (Reference.pooling2d fallingWindows
    ⟨⟨[1, 1, 2, 2]⟩, #[1, 2, 3, 4]⟩ ⟨[1, 1, 3, 2]⟩).toOption.isSome = true := by
  decide +kernel

theorem fallingWindows_written :
    ∃ result function prepared after,
      Reference.pooling2d fallingWindows ⟨⟨[1, 1, 2, 2]⟩, #[1, 2, 3, 4]⟩ ⟨[1, 1, 3, 2]⟩ =
        .ok result ∧
      configure fallingWindows (.imported { info := { shape := ⟨[1, 1, 2, 2]⟩ }, buffer := some 0 })
        (.imported { info := { shape := ⟨[1, 1, 3, 2]⟩ }, buffer := some 1 }) = .ok function ∧
      NativeFunction.prepare { plan := .pooling function } fallingDevice.staging =
        .ok (prepared, fallingDevice.staging) ∧
      prepared.run fallingDevice = (after, .ok ()) ∧
      after.host.read? { info := { shape := ⟨[1, 1, 3, 2]⟩ }, buffer := some 1 } = some result := by
  obtain ⟨function, prepared, after, configured, prepares, ran, _, stored⟩ :=
    @run_writes_pooling2d fallingDevice fallingWindows { shape := ⟨[1, 1, 2, 2]⟩ }
      { shape := ⟨[1, 1, 3, 2]⟩ }
      (.imported { info := { shape := ⟨[1, 1, 2, 2]⟩ }, buffer := some 0 })
      (.imported { info := { shape := ⟨[1, 1, 3, 2]⟩ }, buffer := some 1 }) #[1, 2, 3, 4] _
      rfl rfl rfl rfl rfl ⟨_, rfl, rfl⟩ (eq_ok_get fallingWindows_pool)
  exact ⟨_, function, prepared, after, eq_ok_get fallingWindows_pool, configured, prepares, ran,
    Operand.read_imported_eq_ok.mp stored⟩

end PoolingFunction

namespace LstmWorkload

variable {cell : Lstm.Cell} {params : Lstm.Params} {descriptor : QueueDescriptor}
  {info : WorkloadInfo} {workload : LstmWorkload} {staging next : Staging}

/-- What a workload keeps after its creation is what its function reads. -/
theorem create_prepared (kind : descriptor.kind = .lstm cell params)
    (created : create descriptor info staging = (next, .ok workload)) :
    ∃ function input outputIn stateIn scratch outputOut stateOut output,
      workload.function = { plan := .lstm function, prepared := true } ∧
      descriptor.inputs = [input, outputIn, stateIn] ∧
      descriptor.outputs = [scratch, outputOut, stateOut, output] ∧
      function.operands = ⟨.imported input, .imported outputIn, .imported stateIn,
        .imported scratch, .imported outputOut, .imported stateOut, .imported output⟩ ∧
      function.cell = cell ∧
      Lstm.Activation.ofCode function.cell.activationCode = .ok function.activation ∧
      params.checkGroups cell = .ok () ∧
      (cell.projection = true ∨ function.dims.outputSize = function.dims.units) ∧
      checkTensors function.dims cell.gates [input.shape, outputIn.shape, stateIn.shape]
        [scratch.shape, outputOut.shape, stateOut.shape, output.shape] = .ok () ∧
      ∀ later : Staging, (∀ entry ∈ workload.weights.staged,
          later.read entry.2.tensor = next.read entry.2.tensor) →
        function.Prepared params later := by
  obtain ⟨_, activation, after, weights, code, allocated, bound⟩ := (create_eq_ok kind).mp created
  obtain ⟨held, width, _⟩ := LstmWeights.allocate_eq_ok allocated
  obtain ⟨_, checked, _⟩ := LstmWeights.allocate_eq_ok_iff.mp allocated
  obtain ⟨groups, known, _⟩ := stagingPlan_eq_ok.mp checked
  obtain ⟨function, input, outputIn, stateIn, scratch, outputOut, stateOut, output, plan, inputs,
    outputs, operands, sameCell, rfl, fits, prepared, _, _⟩ := bind_eq_ok held bound
  have dims : weights.dims = function.dims := Except.ok.inj (known.symm.trans prepared.reads.dims)
  refine ⟨function, input, outputIn, stateIn, scratch, outputOut, stateOut, output, plan, inputs,
    outputs, operands, sameCell, sameCell ▸ code, groups, dims ▸ width, fits,
    fun later stays => ?_⟩
  obtain ⟨_, _, owns, _⟩ := create_retains kind created ⟨rfl, rfl, rfl⟩
  refine { prepared with holds := fun constant member => ?_ }
  have read : constant ∈ workload.function.plan.constants := by
    rw [plan]
    exact member
  obtain ⟨entry, kept, rfl⟩ := List.mem_map.mp (owns.reads.mem_iff.mp read)
  rw [StagedConstant.Holds, stays entry kept]
  exact prepared.holds _ member

/-- The operands of a configured function are those of a cell that can be inferred, as long as the
width of the scratch output is not cut. -/
theorem step_inferred {function : LstmFunction}
    {input outputIn stateIn scratch outputOut stateOut output : Shape}
    (reads : function.Reads params)
    (width : function.cell.projection = true ∨ function.dims.outputSize = function.dims.units)
    (scratchFits : function.dims.units.toNat * function.cell.gates < UInt32.size)
    (fits : checkTensors function.dims function.cell.gates [input, outputIn, stateIn]
      [scratch, outputOut, stateOut, output] = .ok ()) :
    ∃ batch, input = ⟨[batch, function.dims.inputSize]⟩ ∧
      outputIn = ⟨[batch, function.dims.outputSize]⟩ ∧ stateIn = ⟨[batch, function.dims.units]⟩ ∧
      Lstm.inferMatrices function.cell params batch function.dims.inputSize batch
        function.dims.outputSize batch function.dims.units =
          .ok [scratch, outputOut, stateOut, output] := by
  obtain ⟨batch, inputs, outputs⟩ := (LstmFunction.checkTensors_eq_ok ⟨rfl, rfl⟩).mp fits
  simp only [tensorShapes, List.cons.injEq, and_true] at inputs
  obtain ⟨inputShape, outputShape, stateShape⟩ := inputs
  have uncut : Extent.ofNat? (function.dims.units.toNat * function.cell.gates) = some _ :=
    if_pos scratchFits
  refine ⟨batch, inputShape, outputShape, stateShape, Lstm.inferMatrices_eq_ok.mpr ⟨⟨rfl, rfl⟩,
    reads.dims, reads.shapes, width, _, uncut, ?_⟩⟩
  rw [outputs, tensorShapes, saturatingProduct, uncut, Option.getD_some]

/-- The reference step runs on the operands of a bound cell and fills its outputs. -/
theorem step_executes {function : LstmFunction} {device : Device}
    {input outputIn stateIn scratch outputOut stateOut output : Handle}
    (kind : descriptor.kind = .lstm function.cell params)
    (inputs : descriptor.inputs = [input, outputIn, stateIn])
    (outputs : descriptor.outputs = [scratch, outputOut, stateOut, output])
    (code : Lstm.Activation.ofCode function.cell.activationCode = .ok function.activation)
    (groups : params.checkGroups function.cell = .ok ())
    (width : function.cell.projection = true ∨ function.dims.outputSize = function.dims.units)
    (scratchFits : function.dims.units.toNat * function.cell.gates < UInt32.size)
    (fits : checkTensors function.dims function.cell.gates
      [input.shape, outputIn.shape, stateIn.shape]
      [scratch.shape, outputOut.shape, stateOut.shape, output.shape] = .ok ())
    (prepared : function.Prepared params device.staging)
    (distinct : (descriptor.outputs.map (·.buffer)).Nodup)
    (full : device.host.Full (descriptor.inputs ++ descriptor.outputs)) :
    ∃ x h state result host, device.host.read? input = some x ∧
      device.host.read? outputIn = some h ∧ device.host.read? stateIn = some state ∧
      Reference.lstm function.cell params function.activation ⟨input.shape, x⟩
        ⟨outputIn.shape, h⟩ ⟨stateIn.shape, state⟩ = .ok result ∧
      Reference.execute descriptor device = ({ device with host }, .ok ()) ∧
      host.SameSizes device.host ∧
      host.read? scratch = some result.scratch ∧ host.read? outputOut = some result.outputState ∧
      host.read? stateOut = some result.cellState ∧ host.read? output = some result.output := by
  have written : device.host.Full descriptor.outputs :=
    full.of_subset (List.subset_append_right _ _)
  obtain ⟨batch, inputShape, outputShape, stateShape, inferred⟩ :=
    step_inferred prepared.reads width scratchFits fits
  obtain ⟨x, readInput, sizeInput⟩ := full.held input (by simp [inputs])
  obtain ⟨h, readOutput, sizeOutput⟩ := full.held outputIn (by simp [inputs])
  obtain ⟨state, readState, sizeState⟩ := full.held stateIn (by simp [inputs])
  have operands : Reference.StepOperands batch function.dims.inputSize
      function.dims.outputSize function.dims.units ⟨input.shape, x⟩ ⟨outputIn.shape, h⟩
      ⟨stateIn.shape, state⟩ :=
    ⟨inputShape, outputShape, stateShape, HostMemory.size_of_matrix sizeInput inputShape,
      HostMemory.size_of_matrix sizeOutput outputShape,
      HostMemory.size_of_matrix sizeState stateShape⟩
  have occupied : ¬(batch ≠ 0 ∧ function.dims.units = 0) := fun empty =>
    prepared.units (by rw [empty.2]; rfl)
  have small : ∀ shape ∈ [scratch.shape, outputOut.shape, stateOut.shape, output.shape],
      shape.isStorable = true := by simpa [outputs] using written.storable
  obtain ⟨result, stepped⟩ := (@Reference.lstm_total_iff _ _ function.activation _ _ _ _ _ _ _ _
    groups inferred operands).mpr ⟨small, occupied⟩
  obtain ⟨host, stored, same, shown, _⟩ := Reference.writeResults_of_fits distinct
    (Reference.fits_of_sizes written.held
      (by rw [outputs]; exact Reference.size_lstm inferred operands stepped))
  rw [outputs] at shown
  simp only [List.map_cons, List.map_nil, List.cons.injEq, and_true] at shown
  obtain ⟨scratchShown, outputStateShown, stateShown, outputShown⟩ := shown
  refine ⟨x, h, state, result, host, readInput, readOutput, readState, stepped, ?_, same,
    scratchShown.symm, outputStateShown.symm, stateShown.symm, outputShown.symm⟩
  refine Reference.execute_eq_ok.mpr ⟨[⟨input.shape, x⟩, ⟨outputIn.shape, h⟩,
    ⟨stateIn.shape, state⟩], _, host, ?_, ?_, stored, rfl⟩
  · simp [inputs, HostMemory.view?, readInput, readOutput, readState]
  · rw [kind]
    exact Reference.evaluate_lstm_eq_ok.mpr ⟨_, result, code, stepped, rfl⟩

/-- The staged step writes what the reference step gives, in every run, as long as what the
workload keeps stays as it is. -/
theorem execute_writes_lstm (kind : descriptor.kind = .lstm cell params)
    (created : create descriptor info staging = (next, .ok workload))
    (scratchFits : ∀ dims, params.dims = .ok dims → dims.units.toNat * cell.gates < UInt32.size)
    (distinct : (descriptor.outputs.map (·.buffer)).Nodup)
    {device : Device} (full : device.host.Full (descriptor.inputs ++ descriptor.outputs))
    (stays : ∀ entry ∈ workload.weights.staged,
      device.staging.read entry.2.tensor = next.read entry.2.tensor) :
    ∃ input outputIn stateIn scratch outputOut stateOut output x h state activation result after,
      descriptor.inputs = [input, outputIn, stateIn] ∧
      descriptor.outputs = [scratch, outputOut, stateOut, output] ∧
      device.host.read? input = some x ∧ device.host.read? outputIn = some h ∧
      device.host.read? stateIn = some state ∧
      Lstm.Activation.ofCode cell.activationCode = .ok activation ∧
      Reference.lstm cell params activation ⟨input.shape, x⟩ ⟨outputIn.shape, h⟩
        ⟨stateIn.shape, state⟩ = .ok result ∧
      workload.toWorkload.execute device = (after, .ok ()) ∧
      after.host.read? scratch = some result.scratch ∧
      after.host.read? outputOut = some result.outputState ∧
      after.host.read? stateOut = some result.cellState ∧
      after.host.read? output = some result.output ∧
      after.staging = device.staging ∧
      after.host.Full (descriptor.inputs ++ descriptor.outputs) := by
  obtain ⟨function, input, outputIn, stateIn, scratch, outputOut, stateOut, output, plan, inputs,
    outputs, operands, rfl, code, groups, width, fits, prepares⟩ := create_prepared kind created
  have prepared := prepares device.staging stays
  obtain ⟨x, h, state, result, host, readInput, readOutput, readState, stepped, success, same,
    shown⟩ := step_executes kind inputs outputs code groups width
      (scratchFits _ prepared.reads.dims) fits prepared distinct full
  have ready : descriptor.Ready device.host :=
    ⟨fun handle member => full.held handle (List.mem_append_left _ member), distinct⟩
  have ran : function.run device = ({ device with host }, .ok ()) :=
    LstmFunction.run_follows kind inputs outputs prepared code operands fits ready success
  obtain ⟨scratchShown, outputStateShown, stateShown, outputShown⟩ := shown
  refine ⟨input, outputIn, stateIn, scratch, outputOut, stateOut, output, x, h, state,
    function.activation, result, { device with host }, inputs, outputs, readInput, readOutput,
    readState, code, stepped, ?_, scratchShown, outputStateShown, stateShown, outputShown, rfl,
    full.of_sameSizes same⟩
  rw [toWorkload, plan]
  exact @execute_prepared (.lstm function) _ _ ran

-- A cell of two units with a projection to one value and with peepholes.

def ones (extents : List Extent) (storable : (Shape.mk extents).isStorable = true) : Constant where
  info := { shape := ⟨extents⟩ }
  data := Array.replicate (Shape.mk extents).elementCount 1
  storage := 0
  size_eq := by simp [TensorInfo.elementCount]
  storable := storable

def oneGate : Lstm.Gate where
  inputWeights := ones [2, 1] (by decide)
  recurrentWeights := ones [2, 1] (by decide)
  bias := ones [2] (by decide)

def peepedParams : Lstm.Params where
  forget := oneGate
  cell := oneGate
  output := oneGate
  inputToInputWeights := some (ones [2, 1] (by decide))
  recurrentToInputWeights := some (ones [2, 1] (by decide))
  inputGateBias := some (ones [2] (by decide))
  projectionWeights := some (ones [1, 2] (by decide))
  cellToForgetWeights := some (ones [2] (by decide))
  cellToOutputWeights := some (ones [2] (by decide))

def peepedCell : Lstm.Cell where
  activationCode := 4
  coupled := false
  peephole := true
  projection := true

/-- The cell on host memory, for a batch of one. -/
def peepedDescriptor : QueueDescriptor where
  kind := .lstm peepedCell peepedParams
  inputs :=
    [{ info := { shape := ⟨[1, 1]⟩ }, buffer := some 0 },
     { info := { shape := ⟨[1, 1]⟩ }, buffer := some 1 },
     { info := { shape := ⟨[1, 2]⟩ }, buffer := some 2 }]
  outputs :=
    [{ info := { shape := ⟨[1, 8]⟩ }, buffer := some 3 },
     { info := { shape := ⟨[1, 1]⟩ }, buffer := some 4 },
     { info := { shape := ⟨[1, 2]⟩ }, buffer := some 5 },
     { info := { shape := ⟨[1, 1]⟩ }, buffer := some 6 }]

def peepedInfo : WorkloadInfo where
  inputs := peepedDescriptor.inputs.map (·.info)
  outputs := peepedDescriptor.outputs.map (·.info)

def peepedHost : HostMemory where
  buffers := #[#[1], #[2], #[3, 4], Array.replicate 8 0, #[0], #[0, 0], #[0]]

theorem peepedCell_created :
    (create peepedDescriptor peepedInfo {}).2.toOption.isSome = true := by
  decide +kernel

theorem peepedHost_full :
    peepedHost.Full (peepedDescriptor.inputs ++ peepedDescriptor.outputs) := by
  refine ⟨?_, by decide⟩
  simp only [peepedDescriptor, List.cons_append, List.nil_append, List.forall_mem_cons]
  exact ⟨⟨_, rfl, rfl⟩, ⟨_, rfl, rfl⟩, ⟨_, rfl, rfl⟩, ⟨_, rfl, rfl⟩, ⟨_, rfl, rfl⟩, ⟨_, rfl, rfl⟩,
    ⟨_, rfl, rfl⟩, by simp⟩

theorem peepedCell_written :
    ∃ next workload activation result after,
      create peepedDescriptor peepedInfo {} = (next, .ok workload) ∧
      Reference.lstm peepedCell peepedParams activation ⟨⟨[1, 1]⟩, #[1]⟩ ⟨⟨[1, 1]⟩, #[2]⟩
        ⟨⟨[1, 2]⟩, #[3, 4]⟩ = .ok result ∧
      workload.toWorkload.execute { host := peepedHost, staging := next } = (after, .ok ()) ∧
      after.host.read? { info := { shape := ⟨[1, 1]⟩ }, buffer := some 6 } =
        some result.output := by
  obtain ⟨next, workload, created⟩ := exists_eq_ok _ peepedCell_created
  have sizes : peepedParams.dims = .ok ⟨2, 1, 1⟩ := rfl
  let device : Device := { host := peepedHost, staging := next }
  have stays : ∀ entry ∈ workload.weights.staged,
      device.staging.read entry.2.tensor = next.read entry.2.tensor := fun _ _ => rfl
  obtain ⟨input, outputIn, stateIn, scratch, outputOut, stateOut, output, x, h, state, activation,
    result, after, inputs, outputs, readInput, readOutput, readState, _, stepped, executed, _, _,
    _, shown, _⟩ := execute_writes_lstm rfl created
      (fun _ known => Except.ok.inj (sizes.symm.trans known) ▸ by decide) (by decide)
      peepedHost_full stays
  simp only [peepedDescriptor, List.cons.injEq, and_true] at inputs outputs
  obtain ⟨rfl, rfl, rfl⟩ := inputs
  obtain ⟨_, _, _, rfl⟩ := outputs
  cases readInput
  cases readOutput
  cases readState
  exact ⟨_, _, activation, result, after, created, stepped, executed, shown⟩

end LstmWorkload

end NeuralGraph.Accelerator
