import NeuralGraph.Accelerator.Backend
import NeuralGraph.Proofs.Accelerator.Elementwise
import NeuralGraph.Proofs.Accelerator.Lstm
import NeuralGraph.Proofs.Accelerator.Pooling
import NeuralGraph.Proofs.Backend.Descriptor

/-! Workloads of the accelerator. Whatever it has accepted and built follows the reference kernel,
for as long as nothing touches the slots that it has staged; building other workloads does not. -/

namespace NeuralGraph.Accelerator

open Lstm (Role Params Dims)
open Staging (Keeps)

variable {descriptor : QueueDescriptor} {info : WorkloadInfo} {cell : Lstm.Cell} {params : Params}

theorem asError_eq_ok {α : Type} {result : Except Fault α} {value : α} :
    asError result = .ok value ↔ result = .ok value := by
  cases result <;> simp [asError]

theorem single_eq_ok {side : Side} {handles : List Handle} {operand : Operand} :
    single side handles = .ok operand ↔
      ∃ handle, handles = [handle] ∧ handle.isForeign = false ∧ operand = .imported handle := by
  unfold single
  split
  · simp [ofHandle_eq_ok]
  · rename_i several
    simp only [reduceCtorEq, false_iff]
    rintro ⟨handle, rfl, _⟩
    exact several handle rfl

/-- A cell whose constants are staged has no empty extent. -/
theorem LstmWeights.Staged.dims_ne_zero {weights : LstmWeights} {first : Nat}
    (held : weights.Staged cell params first) :
    weights.dims.units.toNat ≠ 0 ∧ weights.dims.inputSize.toNat ≠ 0 ∧
      weights.dims.outputSize.toNat ≠ 0 := by
  have basic : ∀ {role : Role} {constant : Constant} {rows columns : Extent}, role ∈ Role.basic →
      params.get? role = some constant → weights.dims.expected role = ⟨[rows, columns]⟩ →
      rows.toNat ≠ 0 ∧ columns.toNat ≠ 0 := by
    intro role constant rows columns enabled plays expected
    have member : (role, constant) ∈ planned params (enabledRoles cell) :=
      List.mem_filterMap.mpr ⟨role, by simp [enabledRoles, enabled], by simp [plays]⟩
    have occupied := held.occupied _ member
    rw [Params.checkShapes_eq_ok.mp held.shapes role constant plays, expected] at occupied
    simpa [Nat.mul_ne_zero_iff] using occupied
  obtain ⟨units, inputSize⟩ := @basic .inputToForgetWeights _ _ _ (by decide) rfl rfl
  obtain ⟨_, outputSize⟩ := @basic .recurrentToForgetWeights _ _ _ (by decide) rfl rfl
  exact ⟨units, inputSize, outputSize⟩

theorem mapM_ofHandle_eq_ok {handles : List Handle} {operands : List Operand}
    (bound : handles.mapM Operand.ofHandle = .ok operands) :
    operands = handles.map .imported := by
  have each := mapM_eq_ok.mp bound
  refine List.map_injective_iff.mpr (fun _ _ => Except.ok.inj) (each.trans ?_)
  rw [List.map_map]
  apply List.map_congr_left
  intro handle member
  have found : Operand.ofHandle handle ∈ operands.map Except.ok :=
    each ▸ List.mem_map_of_mem member
  obtain ⟨operand, _, same⟩ := List.mem_map.mp found
  rw [← same, (ofHandle_eq_ok.mp same.symm).2]
  rfl

theorem ofHandles_eq_ok {inputs outputs : List Handle} {operands : LstmOperands}
    (bound : LstmOperands.ofHandles inputs outputs = .ok operands) :
    ∃ input outputIn stateIn scratch outputOut stateOut output,
      inputs = [input, outputIn, stateIn] ∧
      outputs = [scratch, outputOut, stateOut, output] ∧
      operands = ⟨.imported input, .imported outputIn, .imported stateIn, .imported scratch,
        .imported outputOut, .imported stateOut, .imported output⟩ := by
  unfold LstmOperands.ofHandles at bound
  simp only [guard_eq_ok] at bound
  obtain ⟨threeInputs, fourOutputs, bound⟩ := bound
  obtain ⟨imports, importsBound, bound⟩ := bind_eq_ok.mp bound
  obtain ⟨exports, exportsBound, bound⟩ := bind_eq_ok.mp bound
  obtain rfl := mapM_ofHandle_eq_ok importsBound
  obtain rfl := mapM_ofHandle_eq_ok exportsBound
  obtain ⟨input, outputIn, stateIn, rfl⟩ := List.length_eq_three.mp (not_not.mp threeInputs)
  obtain ⟨scratch, outputOut, stateOut, output, rfl⟩ :=
    List.length_eq_four.mp (not_not.mp fourOutputs)
  cases bound
  exact ⟨_, _, _, _, _, _, _, rfl, rfl, rfl⟩

/-- The references that a function takes when it is bound. -/
def LstmFunction.acquire (function : LstmFunction) (staging : Staging) : Staging :=
  function.constants.foldl (fun staging constant => staging.retain constant.tensor)
    (Operand.retainAll function.operands.toList staging)

/-- A cell is bound in three steps: a function is configured for its handles and takes its
references, the constants without a reader are dropped, and the others are uploaded. -/
theorem LstmWorkload.bind_eq_ok_iff {activation : Lstm.Activation} {weights : LstmWeights}
    {staging after : Staging} {workload : LstmWorkload} :
    bind cell activation descriptor weights staging = .ok (workload, after) ↔
      ∃ operands function,
        LstmOperands.ofHandles descriptor.inputs descriptor.outputs = .ok operands ∧
        LstmFunction.configure cell activation weights operands = .ok function ∧
        LstmFunction.uploadEach function.constants
          (weights.releaseUnreferenced (function.acquire staging)).2.2 = .ok after ∧
        workload = {
          function := { plan := .lstm function, prepared := true }
          weights := (weights.releaseUnreferenced (function.acquire staging)).2.1 } := by
  constructor
  · intro bound
    obtain ⟨operands, handles, bound⟩ := NeuralGraph.bind_eq_ok.mp bound
    obtain ⟨function, configured, bound⟩ := NeuralGraph.bind_eq_ok.mp bound
    dsimp only [NativeFunction.acquire, NativeFunction.prepare, Plan.constants,
      Plan.operands] at bound
    obtain ⟨⟨ready, uploaded⟩, prepares, bound⟩ := NeuralGraph.bind_eq_ok.mp bound
    obtain ⟨rfl, rfl⟩ := Prod.mk.inj (pure_eq_ok.mp bound)
    rw [if_neg (by simp)] at prepares
    obtain ⟨final, upload, same⟩ := NeuralGraph.bind_eq_ok.mp prepares
    obtain ⟨rfl, rfl⟩ := Prod.mk.inj (pure_eq_ok.mp same)
    exact ⟨operands, function, handles, configured, upload, rfl⟩
  · rintro ⟨operands, function, handles, configured, upload, rfl⟩
    have prepares : NativeFunction.prepare { plan := .lstm function }
        (weights.releaseUnreferenced (function.acquire staging)).2.2 =
          .ok ({ plan := .lstm function, prepared := true }, after) := by
      simp only [NativeFunction.prepare, Plan.constants, upload, bind_ok]
      rfl
    have acquired : NativeFunction.acquire (.lstm function) staging =
        ({ plan := .lstm function }, function.acquire staging) := rfl
    simp only [bind, handles, configured, bind_ok, acquired, prepares]
    rfl

/-- Operands on the host are not counted. -/
theorem LstmFunction.acquire_imported {function : LstmFunction} {staging : Staging}
    (imports : Operand.retainAll function.operands.toList staging = staging) :
    function.acquire staging =
      function.constants.foldl (fun staging constant => staging.retain constant.tensor)
        staging := by
  rw [acquire, imports]

/-- A bound cell reads constants that it has uploaded to slots of its own. -/
theorem LstmWorkload.bind_eq_ok {activation : Lstm.Activation} {weights : LstmWeights}
    {staging after : Staging} {workload : LstmWorkload} {first : Nat}
    (held : weights.Staged cell params first)
    (bound : bind cell activation descriptor weights staging = .ok (workload, after)) :
    ∃ function input outputIn stateIn scratch outputOut stateOut output,
      workload.function = { plan := .lstm function, prepared := true } ∧
      descriptor.inputs = [input, outputIn, stateIn] ∧
      descriptor.outputs = [scratch, outputOut, stateOut, output] ∧
      function.operands = ⟨.imported input, .imported outputIn, .imported stateIn,
        .imported scratch, .imported outputOut, .imported stateOut, .imported output⟩ ∧
      function.cell = cell ∧ function.activation = activation ∧
      checkTensors function.dims cell.gates [input.shape, outputIn.shape, stateIn.shape]
        [scratch.shape, outputOut.shape, stateOut.shape, output.shape] = .ok () ∧
      function.Prepared params after ∧ Keeps first staging after ∧
      ∀ constant ∈ function.constants, ∃ role, (role, constant) ∈ weights.staged := by
  obtain ⟨operands, function, handles, configured, upload, rfl⟩ := bind_eq_ok_iff.mp bound
  obtain ⟨input, outputIn, stateIn, scratch, outputOut, stateOut, output, inputs, outputs, rfl⟩ :=
    ofHandles_eq_ok handles
  obtain ⟨reads, sameCell, sameActivation, dims, sameOperands, fits, found⟩ :=
    LstmFunction.configure_eq_ok held configured
  have members := found.staged
  have fresh : ∀ constant ∈ function.constants, first ≤ constant.tensor.index := by
    intro constant member
    obtain ⟨role, staged⟩ := members constant member
    exact held.fresh _ staged
  have apart : ∀ constant ∈ function.constants, ∀ other ∈ function.constants,
      constant.tensor.index = other.tensor.index → constant.source = other.source := by
    intro constant member other memberOther same
    obtain ⟨role, staged⟩ := members constant member
    obtain ⟨otherRole, stagedOther⟩ := members other memberOther
    exact congrArg (·.2.source) (held.apart _ staged _ stagedOther same)
  obtain ⟨keepsUpload, holds, _⟩ := uploadEach_eq_ok upload fresh apart
  rw [LstmFunction.acquire_imported (by rw [sameOperands]; rfl)] at keepsUpload
  obtain ⟨units, inputSize, outputSize⟩ := held.dims_ne_zero
  refine ⟨function, input, outputIn, stateIn, scratch, outputOut, stateOut, output, rfl, inputs,
    outputs, sameOperands, sameCell, sameActivation, dims ▸ fits,
    ⟨reads, holds, dims ▸ units, dims ▸ inputSize, dims ▸ outputSize⟩, ?_, members⟩
  refine ((Staging.retainEach_keeps fresh).trans (Staging.releaseEach_keeps ?_)).trans keepsUpload
  exact fun entry member => held.fresh entry (List.mem_filter.mp member).1

theorem execute_prepared {plan : Plan} {device after : Device}
    (success : plan.run device = (after, .ok ())) :
    execute { plan, prepared := true } device = (after, .ok ()) := by
  simp [execute, NativeFunction.run, success, asError]

theorem buildSingle_eq_ok {workload : Workload}
    (built : buildSingle descriptor info = .ok workload) :
    descriptor.validate info = .ok () ∧ ∃ input output plan,
      descriptor.inputs = [input] ∧ descriptor.outputs = [output] ∧
      planSingle descriptor.kind (.imported input) (.imported output) = .ok plan ∧
      workload.execute = execute { plan, prepared := true } := by
  obtain ⟨fits, built⟩ := seq_eq_ok.mp built
  obtain ⟨input, inputs, built⟩ := bind_eq_ok.mp built
  obtain ⟨output, outputs, built⟩ := bind_eq_ok.mp built
  obtain ⟨plan, planned, finished⟩ := bind_eq_ok.mp built
  obtain rfl := pure_eq_ok.mp finished
  obtain ⟨handleIn, one, _, rfl⟩ := single_eq_ok.mp (asError_eq_ok.mp inputs)
  obtain ⟨handleOut, other, _, rfl⟩ := single_eq_ok.mp (asError_eq_ok.mp outputs)
  exact ⟨fits, handleIn, handleOut, plan, one, other, asError_eq_ok.mp planned, rfl⟩

theorem andThen_eq_supported {first second : Support} :
    first.andThen second = .supported ↔ first = .supported ∧ second = .supported := by
  cases first <;> simp [Support.andThen]

theorem checkSingle_eq_supported {inputs outputs : List TensorInfo}
    {check : TensorInfo → TensorInfo → Support} :
    checkSingle inputs outputs check = .supported ↔
      ∃ input output, inputs = [input] ∧ outputs = [output] ∧ check input output = .supported := by
  unfold checkSingle
  split
  · simp
  · rename_i several
    simp only [reduceCtorEq, false_iff]
    rintro ⟨input, output, rfl, rfl, _⟩
    exact several input output rfl rfl

/-- Supported pooling keeps the planes of its input. -/
theorem PoolingFunction.validate_eq_supported {pooling : Pooling} {input output : TensorInfo}
    (supported : validate pooling input output = .supported) :
    ∃ batch channels height width rows columns,
      input.shape = ⟨[batch, channels, height, width]⟩ ∧
      output.shape = ⟨[batch, channels, rows, columns]⟩ := by
  unfold validate at supported
  split at supported
  · cases supported
  · split at supported
    · rename_i batch channels height width outBatch outChannels rows columns inputs outputs
      split at supported
      · cases supported
      · rename_i same
        obtain ⟨rfl, rfl⟩ : batch = outBatch ∧ channels = outChannels := by simpa using same
        exact ⟨batch, channels, height, width, rows, columns, congrArg Shape.mk inputs,
          congrArg Shape.mk outputs⟩
    · cases supported

/-- A pooling workload runs a function that was configured for the planes of its handles. -/
theorem buildSingle_pooling {workload : Workload} {pooling : Pooling}
    (kind : descriptor.kind = .pooling2d pooling)
    (supported : supports descriptor.kind info.inputs info.outputs = .supported)
    (built : buildSingle descriptor info = .ok workload) :
    ∃ input output function batch channels height width rows columns,
      descriptor.inputs = [input] ∧ descriptor.outputs = [output] ∧
      PoolingFunction.configure pooling (.imported input) (.imported output) = .ok function ∧
      input.shape = ⟨[batch, channels, height, width]⟩ ∧
      output.shape = ⟨[batch, channels, rows, columns]⟩ ∧
      workload.execute = execute { plan := .pooling function, prepared := true } := by
  obtain ⟨fits, input, output, plan, inputs, outputs, planned, execution⟩ :=
    buildSingle_eq_ok built
  obtain ⟨⟨_, inputShapes⟩, _, outputShapes⟩ := QueueDescriptor.validate_eq_ok.mp fits
  rw [kind] at planned supported
  obtain ⟨function, configured, same⟩ := bind_eq_ok.mp planned
  obtain rfl := pure_eq_ok.mp same
  obtain ⟨_, supported⟩ := andThen_eq_supported.mp supported
  simp only [inputs, outputs, List.map_cons, List.map_nil] at inputShapes outputShapes
  obtain ⟨inputInfo, inputInfos, inputShape⟩ := List.map_eq_singleton_iff.mp inputShapes.symm
  obtain ⟨outputInfo, outputInfos, outputShape⟩ := List.map_eq_singleton_iff.mp outputShapes.symm
  rw [inputInfos, outputInfos] at supported
  obtain ⟨batch, channels, height, width, rows, columns, inputExtents, outputExtents⟩ :=
    PoolingFunction.validate_eq_supported supported
  exact ⟨input, output, function, batch, channels, height, width, rows, columns, inputs, outputs,
    configured, inputShape.symm.trans inputExtents, outputShape.symm.trans outputExtents,
    execution⟩

/-- A workload with one input and one output follows its kernel, whatever is staged. -/
theorem buildSingle_follows {workload : Workload}
    (supported : supports descriptor.kind info.inputs info.outputs = .supported)
    (built : buildSingle descriptor info = .ok workload) (staging : Staging) :
    workload.Follows descriptor staging := by
  intro host after ready success
  obtain ⟨_, input, output, plan, inputs, outputs, planned, execution⟩ := buildSingle_eq_ok built
  cases kind : descriptor.kind with
  | activation activation =>
    rw [kind] at planned
    obtain ⟨function, configured, same⟩ := bind_eq_ok.mp planned
    obtain rfl := pure_eq_ok.mp same
    obtain rfl := ElementwiseFunction.configure_eq_ok configured
    exact execution ▸ execute_prepared
      (ElementwiseFunction.run_follows kind inputs outputs success)
  | softmax beta =>
    rw [kind] at planned
    obtain ⟨function, configured, same⟩ := bind_eq_ok.mp planned
    obtain rfl := pure_eq_ok.mp same
    obtain ⟨rows, columns, matrix, wide, rfl⟩ := SoftmaxFunction.configure_eq_ok configured
    exact execution ▸ execute_prepared
      (SoftmaxFunction.run_follows kind inputs outputs matrix wide ready success)
  | pooling2d pooling =>
    obtain ⟨_, _, function, _, _, _, _, _, _, inputs, outputs, configured, inputShape, outputShape,
      execution⟩ := buildSingle_pooling kind supported built
    exact execution ▸ execute_prepared (PoolingFunction.run_follows kind inputs outputs configured
      inputShape outputShape ready success)
  | _ =>
    rw [kind] at planned
    cases planned

/-- A cell is built in three steps: its activation is read, its weights are staged, and a function
is bound to them. -/
theorem LstmWorkload.create_eq_ok {workload : LstmWorkload} {staging next : Staging}
    (kind : descriptor.kind = .lstm cell params) :
    create descriptor info staging = (next, .ok workload) ↔
      descriptor.validate info = .ok () ∧ ∃ activation after weights,
        Lstm.Activation.ofCode cell.activationCode = .ok activation ∧
        LstmWeights.allocate cell params staging = (after, .ok weights) ∧
        bind cell activation descriptor weights after = .ok (workload, next) := by
  constructor
  · intro created
    unfold create at created
    rw [kind] at created
    split at created
    · cases created
    · rename_i fits
      dsimp only at created
      split at created
      · cases created
      · rename_i activation code
        split at created
        · cases created
        · rename_i after weights allocated
          split at created
          · cases created
          · rename_i built final bound
            cases created
            exact ⟨fits, activation, after, weights, code, allocated, bound⟩
  · rintro ⟨fits, activation, after, weights, code, allocated, bound⟩
    simp only [create, fits, kind, code, allocated, bound]

/-- The accelerator builds a cell in staging memory and leaves the host alone. -/
theorem create_lstm_eq_ok {device next : Device} {workload : Workload}
    (kind : descriptor.kind = .lstm cell params) :
    create descriptor info device = (next, .ok workload) ↔ ∃ staging built,
      LstmWorkload.create descriptor info device.staging = (staging, .ok built) ∧
        next = { device with staging } ∧ workload = built.toWorkload := by
  constructor
  · intro created
    unfold create at created
    rw [kind] at created
    dsimp only at created
    split at created
    · cases created
    · rename_i staging built bound
      cases created
      exact ⟨staging, built, bound, rfl, rfl⟩
  · rintro ⟨staging, built, bound, rfl, rfl⟩
    simp only [create, kind, bound]

/-- Any other kind is built without the device. -/
theorem create_of_not_lstm (single : ∀ cell params, descriptor.kind ≠ .lstm cell params)
    (device : Device) : create descriptor info device = (device, buildSingle descriptor info) := by
  unfold create
  split
  · rename_i kind
    exact absurd kind (single _ _)
  · rfl

/-- The workload of a cell follows its kernel while the slots that it has staged are kept. -/
theorem LstmWorkload.create_follows {workload : LstmWorkload} {staging next : Staging}
    (kind : descriptor.kind = .lstm cell params)
    (created : create descriptor info staging = (next, .ok workload)) :
    Keeps staging.slots.size staging next ∧ ∀ later, Keeps next.slots.size next later →
      workload.toWorkload.Follows descriptor later := by
  obtain ⟨_, activation, after, weights, code, allocated, bound⟩ := (create_eq_ok kind).mp created
  obtain ⟨held, _, below, keepsAllocation⟩ := LstmWeights.allocate_eq_ok allocated
  obtain ⟨function, input, outputIn, stateIn, scratch, outputOut, stateOut, output, plan, inputs,
    outputs, operands, rfl, rfl, fits, prepared, keeps, members⟩ := bind_eq_ok held bound
  refine ⟨keepsAllocation.trans keeps, ?_⟩
  intro later keepsLater host last ready success
  have stays : function.Prepared params later :=
    { prepared with
      holds := by
        intro constant member
        obtain ⟨role, staged⟩ := members constant member
        rw [StagedConstant.Holds,
          keepsLater.read (Nat.lt_of_lt_of_le (below _ staged) keeps.grows)]
        exact prepared.holds constant member }
  rw [toWorkload, plan]
  exact @execute_prepared (.lstm function) _ _ (LstmFunction.run_follows kind inputs outputs stays
    code operands fits ready success)

/-- Building a workload keeps what was staged, and what is built follows its kernel while later
builds keep what it has staged itself. -/
theorem create_follows {device next : Device} {workload : Workload}
    (supported : supports descriptor.kind info.inputs info.outputs = .supported)
    (created : create descriptor info device = (next, .ok workload)) :
    next.host = device.host ∧ Keeps device.staging.slots.size device.staging next.staging ∧
      ∀ staging, Keeps next.staging.slots.size next.staging staging →
        workload.Follows descriptor staging := by
  by_cases cell : ∃ cell params, descriptor.kind = .lstm cell params
  · obtain ⟨cell, params, kind⟩ := cell
    obtain ⟨staging, lstm, built, rfl, rfl⟩ := (create_lstm_eq_ok kind).mp created
    obtain ⟨keeps, follows⟩ := LstmWorkload.create_follows kind built
    exact ⟨rfl, keeps, follows⟩
  · rw [create_of_not_lstm (by simpa using cell)] at created
    obtain ⟨rfl, built⟩ := Prod.mk.inj created
    exact ⟨rfl, .refl _ _, fun staging _ => buildSingle_follows supported built staging⟩

end NeuralGraph.Accelerator
