import Mathlib.Algebra.GroupWithZero.Nat
import NeuralGraph.Proofs.Accelerator.Backend

/-! What the accelerator can build. The capability check looks at more than it should let
through: rows and cells without elements pass it, and then nothing can be configured or staged for
them. Everything else that passes is built, as long as the accounts can take what it stages. -/

namespace NeuralGraph

namespace Lstm.Dims

variable {dims : Dims}

/-- One of the sizes of a cell is zero. -/
def HasEmpty (dims : Dims) : Prop :=
  dims.units.toNat = 0 ∨ dims.inputSize.toNat = 0 ∨ dims.outputSize.toNat = 0

theorem elementCount_expected (full : ¬dims.HasEmpty) (role : Role) :
    (dims.expected role).elementCount ≠ 0 := by
  obtain ⟨units, inputSize, outputSize⟩ :
      dims.units.toNat ≠ 0 ∧ dims.inputSize.toNat ≠ 0 ∧ dims.outputSize.toNat ≠ 0 := by
    simpa [HasEmpty, not_or] using full
  cases role <;> simp [expected, units, inputSize, outputSize]

end Lstm.Dims

namespace Accelerator

open Lstm (Role Params Dims)

variable {cell : Lstm.Cell} {params : Params} {staging after : Staging}
  {descriptor : QueueDescriptor} {info : WorkloadInfo}

/-- The bytes that a cell stages. -/
def stagedBytes (cell : Lstm.Cell) (params : Params) : Nat :=
  ((planned params (enabledRoles cell)).map fun entry => Staging.bytes entry.2.shape).sum

/-- A constant in staging memory that nothing else refers to, with as many values as it is to
receive. -/
def StagedConstant.Idle (constant : StagedConstant) (staging : Staging) : Prop :=
  ∃ held, staging.find? constant.tensor = some held ∧ held.references = 1 ∧
    held.data.size = constant.source.data.size

/-- A staged tensor has as many values as its constant. -/
def StagedConstant.Fits (constant : StagedConstant) (staging : Staging) : Prop :=
  constant.source.data.size = (staging.read constant.tensor).size

namespace LstmWeights

variable {plan : List (Role × Constant)} {staged : List (Role × StagedConstant)}

/-- The accounts have to take the bytes of all constants together. -/
theorem allocateEach_total (occupied : ∀ entry ∈ plan, entry.2.shape.elementCount ≠ 0)
    (room : staging.telemetry.liveBytes +
      (plan.map fun entry => Staging.bytes entry.2.shape).sum < Capacity.wordLimit) :
    ∃ after staged, allocateEach plan staging = (after, .ok staged) := by
  induction plan generalizing staging with
  | nil => exact ⟨staging, [], rfl⟩
  | cons entry plan ih =>
    obtain ⟨role, source⟩ := entry
    simp only [List.map_cons, List.sum_cons] at room
    obtain ⟨middle, tensor, allocated⟩ : ∃ middle tensor,
        staging.allocate source.shape = (middle, .ok tensor) := by
      refine ⟨_, _, Staging.allocate_eq_ok_iff.mpr ⟨source.storable,
        occupied _ List.mem_cons_self, ?_, rfl⟩⟩
      simp only [Telemetry.canCharge, decide_eq_true_eq]
      omega
    obtain ⟨charged, _⟩ := Staging.liveBytes_allocate allocated
    obtain ⟨after, staged, later⟩ := ih
      (fun other member => occupied other (List.mem_cons_of_mem _ member))
      (by rw [charged]; omega)
    exact ⟨after, _, allocateEach_cons_eq_ok.mpr ⟨middle, tensor, staged, allocated, later, rfl⟩⟩

theorem allocateEach_room (allocated : allocateEach plan staging = (after, .ok staged))
    (some : plan ≠ []) : staging.telemetry.liveBytes +
      (plan.map fun entry => Staging.bytes entry.2.shape).sum < Capacity.wordLimit := by
  induction plan generalizing staging staged with
  | nil => exact absurd rfl some
  | cons entry plan ih =>
    obtain ⟨_, _, _, head, tail, _⟩ := allocateEach_cons_eq_ok.mp allocated
    obtain ⟨charged, room⟩ := Staging.liveBytes_allocate head
    rw [List.map_cons, List.sum_cons, ← Nat.add_assoc, ← charged]
    by_cases last : plan = []
    · simpa [last] using room
    · exact ih tail last

/-- A constant that has been allocated waits for its upload. -/
theorem allocateEach_idle (allocated : allocateEach plan staging = (after, .ok staged)) :
    ∀ entry ∈ staged, entry.2.Idle after := by
  intro entry member
  refine ⟨_, allocateEach_occupies allocated entry member, rfl, ?_⟩
  rw [StagedConstant.zeros, Array.size_replicate, Constant.size_of_shape rfl]

end LstmWeights

theorem occupied_planned {dims : Dims} (shapes : params.checkShapes dims = .ok ())
    (full : ¬dims.HasEmpty) :
    ∀ entry ∈ planned params (enabledRoles cell), entry.2.shape.elementCount ≠ 0 := by
  intro entry member
  obtain ⟨role, _, plays⟩ := List.mem_filterMap.mp member
  obtain ⟨constant, held, rfl⟩ := Option.map_eq_some_iff.mp plays
  rw [Params.checkShapes_eq_ok.mp shapes role constant held]
  exact Dims.elementCount_expected full role

theorem planned_ne_nil : planned params (enabledRoles cell) ≠ [] := by
  simp [planned, enabledRoles, Role.basic, Params.get?]

/-- Weights are staged for a cell without empty extents, as long as there is room for them. -/
theorem LstmWeights.allocate_isOk_iff {plan : List (Role × Constant)} {dims : Dims}
    (checked : stagingPlan cell params = .ok (plan, dims)) :
    (∃ after weights, LstmWeights.allocate cell params staging = (after, .ok weights)) ↔
      ¬dims.HasEmpty ∧
        staging.telemetry.liveBytes + stagedBytes cell params < Capacity.wordLimit := by
  obtain ⟨_, known, shapes, _, rfl⟩ := stagingPlan_eq_ok.mp checked
  constructor
  · rintro ⟨after, weights, allocated⟩
    obtain ⟨held, _⟩ := LstmWeights.allocate_eq_ok allocated
    obtain ⟨units, inputSize, outputSize⟩ := held.dims_ne_zero
    have same : weights.dims = dims := Except.ok.inj (held.dims.symm.trans known)
    obtain ⟨plan, again, each⟩ := LstmWeights.allocate_eq_ok_iff.mp allocated
    obtain ⟨_, _, _, _, rfl⟩ := stagingPlan_eq_ok.mp again
    exact ⟨by simp [Dims.HasEmpty, ← same, units, inputSize, outputSize],
      allocateEach_room each planned_ne_nil⟩
  · rintro ⟨full, room⟩
    obtain ⟨after, staged, each⟩ := allocateEach_total (occupied_planned shapes full) room
    exact ⟨after, { dims, staged }, LstmWeights.allocate_eq_ok_iff.mpr ⟨_, checked, each⟩⟩

theorem LstmWeights.allocate_idle {weights : LstmWeights}
    (allocated : LstmWeights.allocate cell params staging = (after, .ok weights)) :
    ∀ entry ∈ weights.staged, entry.2.Idle after := by
  obtain ⟨_, _, each⟩ := LstmWeights.allocate_eq_ok_iff.mp allocated
  exact allocateEach_idle each

variable {weights : LstmWeights} {first : Nat}

/-- A role that a cell enables and has a constant for is found among its weights. -/
theorem LstmWeights.Staged.require_total (held : weights.Staged cell params first) {role : Role}
    (enabled : role ∈ enabledRoles cell) (plays : (params.get? role).isSome) :
    ∃ constant, weights.require role = .ok constant := by
  have source := held.find? role
  rw [if_pos enabled] at source
  obtain ⟨constant, found⟩ := Option.isSome_iff_exists.mp plays
  obtain ⟨staged, there, _⟩ := Option.map_eq_some_iff.mp (source.trans found)
  exact ⟨staged, by rw [LstmWeights.require, there]⟩

theorem LstmFunction.takeGate_total {input recurrent bias : Role} {peephole : Option Role}
    (each : ∀ role ∈ [input, recurrent, bias] ++ peephole.toList,
      ∃ constant, weights.require role = .ok constant) :
    ∃ gate, takeGate weights input recurrent bias peephole = .ok gate := by
  obtain ⟨inputWeights, inputFound⟩ := each input (by simp)
  obtain ⟨recurrentWeights, recurrentFound⟩ := each recurrent (by simp)
  obtain ⟨biases, biasFound⟩ := each bias (by simp)
  simp only [takeGate, inputFound, recurrentFound, biasFound, bind_ok]
  cases peephole with
  | none => exact ⟨_, rfl⟩
  | some role =>
    obtain ⟨constant, found⟩ := each role (by simp)
    exact ⟨_, by simp only [found, bind_ok]; rfl⟩

theorem LstmWeights.Staged.require_basic (held : weights.Staged cell params first) {role : Role}
    (basic : role ∈ Role.basic) : ∃ constant, weights.require role = .ok constant := by
  refine held.require_total (by simp [enabledRoles, basic]) ?_
  simp only [Role.basic, List.mem_cons, List.not_mem_nil, or_false] at basic
  rcases basic with rfl | rfl | rfl | rfl | rfl | rfl | rfl | rfl | rfl <;> rfl

/-- The gates of every cell; a peephole is asked for when the cell enables it. -/
theorem LstmFunction.takeBasicGate_total (held : weights.Staged cell params first)
    {input recurrent bias peep : Role} (basic : [input, recurrent, bias] ⊆ Role.basic)
    (plays : cell.peephole = true → peep ∈ enabledRoles cell ∧ (params.get? peep).isSome) :
    ∃ gate, takeGate weights input recurrent bias (if cell.peephole then some peep else none) =
      .ok gate := by
  refine takeGate_total fun role member => ?_
  rcases List.mem_append.mp member with plain | extra
  · exact held.require_basic (basic plain)
  · rw [Option.mem_toList] at extra
    split at extra
    · rename_i enabled
      cases extra
      exact held.require_total (plays enabled).1 (plays enabled).2
    · cases extra

/-- The input gate of a cell that is not coupled. -/
theorem LstmFunction.takeInputGate_total (held : weights.Staged cell params first)
    (groups : params.checkGroups cell = .ok ()) (own : cell.coupled = false) :
    ∃ gate, takeGate weights .inputToInputWeights .recurrentToInputWeights .inputGateBias none =
      .ok gate := by
  obtain ⟨input, recurrent, bias⟩ := (Params.checkGroups_eq_ok.mp groups).1 own
  refine takeGate_total fun role member => ?_
  simp only [Option.toList_none, List.append_nil, List.mem_cons, List.not_mem_nil,
    or_false] at member
  rcases member with rfl | rfl | rfl
  · exact held.require_total (by simp [enabledRoles, own]) input
  · exact held.require_total (by simp [enabledRoles, own]) recurrent
  · exact held.require_total (by simp [enabledRoles, own]) bias

/-- A cell whose constants are all there can be configured for operands that fit it. -/
theorem LstmFunction.configure_total (activation : Lstm.Activation) {operands : LstmOperands}
    (held : weights.Staged cell params first) (groups : params.checkGroups cell = .ok ())
    (fits : checkTensors weights.dims cell.gates (operands.inputs.map (·.shape))
      (operands.outputs.map (·.shape)) = .ok ()) :
    ∃ function, configure cell activation weights operands = .ok function := by
  obtain ⟨_, projection, peephole⟩ := Params.checkGroups_eq_ok.mp groups
  obtain ⟨forget, forgetTaken⟩ := @takeBasicGate_total _ _ _ _ held .inputToForgetWeights
    .recurrentToForgetWeights .forgetGateBias .cellToForgetWeights (by decide) fun enabled =>
      ⟨by simp [enabledRoles, enabled], (peephole enabled).1⟩
  obtain ⟨output, outputTaken⟩ := @takeBasicGate_total _ _ _ _ held .inputToOutputWeights
    .recurrentToOutputWeights .outputGateBias .cellToOutputWeights (by decide) fun enabled =>
      ⟨by simp [enabledRoles, enabled], (peephole enabled).2⟩
  have candidateRoles : [Role.inputToCellWeights, .recurrentToCellWeights, .cellBias] ⊆
      Role.basic := by decide
  obtain ⟨candidate, candidateTaken⟩ : ∃ gate, takeGate weights .inputToCellWeights
      .recurrentToCellWeights .cellBias none = .ok gate :=
    takeGate_total fun role member => held.require_basic (candidateRoles (by simpa using member))
  have matrix : cell.projection = true →
      ∃ constant, weights.require .projectionWeights = .ok constant := fun enabled =>
    held.require_total (by simp [enabledRoles, enabled]) (projection enabled)
  simp only [configure, fits, forgetTaken, candidateTaken, outputTaken, bind_ok]
  cases coupled : cell.coupled with
  | true =>
    cases projected : cell.projection with
    | true =>
      obtain ⟨weights, found⟩ := matrix projected
      exact ⟨_, by simp only [found]; rfl⟩
    | false => exact ⟨_, rfl⟩
  | false =>
    obtain ⟨gate, taken⟩ := takeInputGate_total held groups coupled
    cases projected : cell.projection with
    | true =>
      obtain ⟨weights, found⟩ := matrix projected
      exact ⟨_, by simp only [taken, found]; rfl⟩
    | false => exact ⟨_, by simp only [taken]; rfl⟩

theorem LstmFunction.uploadEach_total {constants : List StagedConstant}
    (fits : ∀ constant ∈ constants, constant.Fits staging) :
    ∃ after, uploadEach constants staging = .ok after := by
  induction constants generalizing staging with
  | nil => exact ⟨staging, rfl⟩
  | cons constant constants ih =>
    obtain ⟨middle, uploaded, sizes⟩ := Staging.upload_total (fits constant List.mem_cons_self)
    obtain ⟨after, later⟩ := @ih middle fun other member => by
      rw [StagedConstant.Fits, sizes]
      exact fits other (List.mem_cons_of_mem _ member)
    exact ⟨after, by simp only [uploadEach, uploaded, ofStaging, bind_ok, later]⟩

/-- What a function refers to survives the release of everything else. -/
theorem LstmWeights.fits_releaseUnreferenced {constants : List StagedConstant}
    (idle : ∀ entry ∈ weights.staged, entry.2.Idle staging)
    (members : ∀ constant ∈ constants, ∃ role, (role, constant) ∈ weights.staged) :
    ∀ constant ∈ constants, constant.Fits (weights.releaseUnreferenced
      (constants.foldl (fun staging constant => staging.retain constant.tensor) staging)).2.2 := by
  intro constant member
  obtain ⟨role, staged⟩ := members constant member
  obtain ⟨held, found, single, size⟩ := idle _ staged
  have retained := Staging.find?_retainEach found constants (·.tensor)
  have counted : 0 < constants.countP fun other => constant.tensor.index = other.tensor.index :=
    List.countP_pos_iff.mpr ⟨constant, member, by simp⟩
  generalize constants.foldl (fun staging constant => staging.retain constant.tensor) staging =
    acquired at retained
  generalize constants.countP _ = count at counted retained
  have kept : (weights.releaseUnreferenced acquired).2.2.find? constant.tensor =
      some { held with references := held.references + count } := by
    refine (Staging.find?_releaseEach_of_ne fun entry dropped same => ?_).trans retained
    have unreferenced : isReferenced acquired entry = false := by
      simpa using (List.mem_filter.mp dropped).2
    have live : acquired.find? entry.2.tensor =
        some { held with references := held.references + count } := by
      rw [← retained, Staging.find?, Staging.find?, same]
    simp only [isReferenced, Staging.references, live, Option.map_some, Option.getD_some,
      decide_eq_false_iff_not] at unreferenced
    omega
  rw [StagedConstant.Fits, Staging.read, kept, Option.map_some, Option.getD_some, size]

/-- Weights that have just been allocated can be bound to operands that fit the cell. -/
theorem LstmWorkload.bind_isOk {activation : Lstm.Activation} {operands : LstmOperands}
    (allocated : LstmWeights.allocate cell params staging = (after, .ok weights))
    (groups : params.checkGroups cell = .ok ())
    (handles : LstmOperands.ofHandles descriptor.inputs descriptor.outputs = .ok operands)
    (fits : checkTensors weights.dims cell.gates (operands.inputs.map (·.shape))
      (operands.outputs.map (·.shape)) = .ok ()) :
    ∃ workload final, bind cell activation descriptor weights after = .ok (workload, final) := by
  obtain ⟨held, _⟩ := LstmWeights.allocate_eq_ok allocated
  obtain ⟨function, configured⟩ := LstmFunction.configure_total activation held groups fits
  obtain ⟨_, _, _, _, sameOperands, _, found⟩ := LstmFunction.configure_eq_ok held configured
  obtain ⟨uploaded, upload⟩ := LstmFunction.uploadEach_total
    (LstmWeights.fits_releaseUnreferenced (LstmWeights.allocate_idle allocated) found.staged)
  refine ⟨_, uploaded, bind_eq_ok_iff.mpr ⟨operands, function, handles, configured, ?_, rfl⟩⟩
  obtain ⟨_, _, _, _, _, _, _, _, _, rfl⟩ := ofHandles_eq_ok handles
  rw [LstmFunction.acquire_imported (by rw [sameOperands]; rfl)]
  exact upload

theorem LstmFunction.validate_eq_supported {inputs outputs : List TensorInfo} :
    validate cell params inputs outputs = .supported ↔
      ∃ activation plan dims, Lstm.Activation.ofCode cell.activationCode = .ok activation ∧
        stagingPlan cell params = .ok (plan, dims) ∧
        (inputs.length = 3 ∧ outputs.length = 4) ∧
        checkTensors dims cell.gates (inputs.map (·.shape)) (outputs.map (·.shape)) = .ok () := by
  unfold validate
  constructor
  · intro supported
    split at supported
    · cases supported
    · rename_i activation code
      dsimp only at supported
      split at supported
      · rename_i checked
        obtain ⟨⟨plan, dims⟩, planned, checked⟩ := bind_eq_ok.mp checked
        obtain ⟨counts, fits⟩ := guard_eq_ok.mp checked
        exact ⟨activation, plan, dims, code, planned, by omega, fits⟩
      · cases supported
  · rintro ⟨activation, plan, dims, code, planned, counts, fits⟩
    simp only [code, planned, bind_ok, counts, fits, ne_eq, not_true_eq_false, or_self, ↓reduceIte]

/-- Whether the accounts can take what a kind stages. -/
def HasRoom (staging : Staging) : LayerKind → Prop
  | .lstm cell params =>
    staging.telemetry.liveBytes + stagedBytes cell params < Capacity.wordLimit
  | _ => True

variable {input output : TensorInfo} {source target : Operand}

theorem ElementwiseFunction.configure_total {activation : Activation}
    (supported : validate activation input output = .supported)
    (sourceShape : source.shape = input.shape) (targetShape : target.shape = output.shape) :
    ∃ function, configure activation source target = .ok function := by
  unfold validate at supported
  split at supported
  · cases supported
  · rename_i native
    split at supported
    · cases supported
    · rename_i same
      rw [configure, if_neg native, sourceShape, targetShape, if_neg same]
      exact ⟨_, rfl⟩

theorem PoolingFunction.configure_total {pooling : Pooling}
    (supported : validate pooling input output = .supported)
    (sourceShape : source.shape = input.shape) (targetShape : target.shape = output.shape) :
    ∃ function, configure pooling source target = .ok function := by
  unfold validate at supported
  split at supported
  · cases supported
  · rename_i algorithm
    split at supported
    · rename_i batch channels height width outBatch outChannels rows columns planes results
      split at supported
      · cases supported
      · split at supported
        · cases supported
        · rename_i full
          have occupied : ¬(height.toNat = 0 ∨ width.toNat = 0) := by
            simpa [← UInt32.toNat_inj] using full
          simp only [configure, sourceShape, targetShape, Shape.sizes, planes, results,
            List.map_cons, List.map_nil, if_neg algorithm, if_neg occupied]
          exact ⟨_, rfl⟩
    · cases supported

end Accelerator

end NeuralGraph
