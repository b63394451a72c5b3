import NeuralGraph.Proofs.Accelerator.Retention

/-! How building a workload fails. Only an allocation asks for memory, so a lack of it means that
the accounts cannot take what the cell stages. Every other failure leaves staging memory as it
was. -/

namespace NeuralGraph.Accelerator

open Lstm (Role Params Dims)
open Staging (Keeps Restored)

/-- A fault that stands for a lack of memory. -/
def Fault.Shortage (fault : Fault) : Prop := fault.error = .outOfBounds

/-- Only a tensor that is too large tells of a lack of memory. -/
theorem avoids_fault {α : Type} {fault : Fault}
    (other : ∀ shape, fault ≠ .staging (.tooLarge shape)) :
    Avoids Fault.Shortage (.error fault : Except Fault α) := by
  refine .error fun shortage => ?_
  unfold Fault.Shortage Fault.error at shortage
  split at shortage
  · exact other _ rfl
  · cases shortage

theorem avoids_ofHandle (handle : Handle) : Avoids Fault.Shortage (Operand.ofHandle handle) := by
  unfold Operand.ofHandle
  split
  · exact avoids_fault nofun
  · exact .ok _

theorem avoids_ofHandles (inputs outputs : List Handle) :
    Avoids Fault.Shortage (LstmOperands.ofHandles inputs outputs) := by
  unfold LstmOperands.ofHandles
  dsimp only
  split
  · exact avoids_fault nofun
  · split
    · exact avoids_fault nofun
    · refine .bind (.mapM avoids_ofHandle _) fun imports =>
        .bind (.mapM avoids_ofHandle _) fun exports => ?_
      split
      · exact .ok _
      · exact avoids_fault nofun

theorem avoids_require (weights : LstmWeights) (role : Role) :
    Avoids Fault.Shortage (weights.require role) := by
  unfold LstmWeights.require
  split
  · exact .ok _
  · exact avoids_fault nofun

theorem avoids_takeGate (weights : LstmWeights) (input recurrent bias : Role)
    (peephole : Option Role) :
    Avoids Fault.Shortage (LstmFunction.takeGate weights input recurrent bias peephole) := by
  unfold LstmFunction.takeGate
  refine .bind (avoids_require _ _) fun _ => .bind (avoids_require _ _) fun _ =>
    .bind (avoids_require _ _) fun _ => ?_
  cases peephole with
  | none => exact .ok _
  | some role => exact .bind (avoids_require _ _) fun _ => .ok _

theorem avoids_configure (cell : Lstm.Cell) (activation : Lstm.Activation) (weights : LstmWeights)
    (operands : LstmOperands) :
    Avoids Fault.Shortage (LstmFunction.configure cell activation weights operands) := by
  unfold LstmFunction.configure
  dsimp only
  split
  · exact avoids_fault nofun
  · refine .bind (avoids_takeGate ..) fun _ => .bind (avoids_takeGate ..) fun _ =>
      .bind (avoids_takeGate ..) fun _ => ?_
    have projected : ∀ build : Option StagedProjection → LstmFunction, Avoids Fault.Shortage (
        if cell.projection then do
          let matrix ← weights.require .projectionWeights
          return build (some { weights := matrix, bias := weights.find? .projectionBias })
        else return build none) := by
      intro build
      split
      · exact .bind (avoids_require _ _) fun _ => .ok _
      · exact .ok _
    split
    · exact projected _
    · exact .bind (avoids_takeGate ..) fun _ => projected _

theorem avoids_uploadEach (constants : List StagedConstant) (staging : Staging) :
    Avoids Fault.Shortage (LstmFunction.uploadEach constants staging) := by
  induction constants generalizing staging with
  | nil => exact .ok _
  | cons constant constants ih =>
    refine .bind ?_ ih
    unfold Staging.upload Staging.write
    dsimp only
    split
    · exact .ok _
    · exact avoids_fault nofun

theorem avoids_bind (cell : Lstm.Cell) (activation : Lstm.Activation) (descriptor : QueueDescriptor)
    (weights : LstmWeights) (staging : Staging) :
    Avoids Fault.Shortage (LstmWorkload.bind cell activation descriptor weights staging) := by
  unfold LstmWorkload.bind
  refine .bind (avoids_ofHandles _ _) fun _ => .bind (avoids_configure ..) fun configured => ?_
  refine .bind ?_ fun _ => .ok _
  unfold NativeFunction.prepare
  split
  · exact .ok _
  · exact .bind (avoids_uploadEach ..) fun _ => .ok _

theorem avoids_planSingle (kind : LayerKind) (input output : Operand) :
    Avoids Fault.Shortage (planSingle kind input output) := by
  unfold planSingle
  split
  · refine .bind ?_ fun _ => .ok _
    unfold PoolingFunction.configure
    split
    · split
      · exact avoids_fault nofun
      · split
        · exact avoids_fault nofun
        · exact .ok _
    · exact avoids_fault nofun
  · refine .bind ?_ fun _ => .ok _
    unfold ElementwiseFunction.configure
    split
    · exact avoids_fault nofun
    · split
      · exact avoids_fault nofun
      · exact .ok _
  · refine .bind ?_ fun _ => .ok _
    unfold SoftmaxFunction.configure
    split
    · split
      · exact avoids_fault nofun
      · split
        · exact avoids_fault nofun
        · exact .ok _
    · exact avoids_fault nofun
  · exact avoids_fault nofun

theorem avoids_single (side : Side) (handles : List Handle) :
    Avoids Fault.Shortage (single side handles) := by
  unfold single
  split
  · exact avoids_ofHandle _
  · exact avoids_fault nofun

theorem avoids_checkShapes (operation : Operation) (side : Side) (index : Nat)
    (handles : List Handle) (infos : List TensorInfo) :
    Avoids (· = .outOfBounds) (QueueDescriptor.checkShapes operation side index handles infos) := by
  induction handles generalizing index infos with
  | nil => exact .ok _
  | cons handle handles ih =>
    cases infos with
    | nil => exact .ok _
    | cons info infos =>
      unfold QueueDescriptor.checkShapes
      split
      · exact ih _ _
      · exact .error (by simp)

theorem avoids_validate (descriptor : QueueDescriptor) (info : WorkloadInfo) :
    Avoids (· = .outOfBounds) (descriptor.validate info) := by
  have side : ∀ operation side expected handles infos, Avoids (· = .outOfBounds)
      (QueueDescriptor.checkSide operation side expected handles infos) := by
    intro operation side expected handles infos
    unfold QueueDescriptor.checkSide
    split
    · exact avoids_checkShapes _ _ _ _ _
    · exact .error (by simp)
  exact .bind (side _ _ _ _ _) fun _ => side _ _ _ _ _

theorem avoids_asError {α : Type} {result : Except Fault α}
    (spares : Avoids Fault.Shortage result) :
    Avoids (· = .outOfBounds) (asError result) := by
  cases result with
  | ok value => exact .ok value
  | error fault => exact .error (spares.spares fault rfl)

theorem avoids_buildSingle (descriptor : QueueDescriptor) (info : WorkloadInfo) :
    Avoids (· = .outOfBounds) (buildSingle descriptor info) :=
  .bind (avoids_validate _ _) fun _ => .bind (avoids_asError (avoids_single _ _)) fun _ =>
    .bind (avoids_asError (avoids_single _ _)) fun _ =>
      .bind (avoids_asError (avoids_planSingle _ _ _)) fun _ => .ok _

theorem avoids_ofCode (code : UInt32) :
    Avoids (· = .outOfBounds) (Lstm.Activation.ofCode code) := by
  unfold Lstm.Activation.ofCode
  split
  · exact .ok _
  · exact .error (by simp)

namespace LstmWeights

variable {cell : Lstm.Cell} {params : Params} {staging after : Staging}
  {plan : List (Role × Constant)} {fault : Fault}

/-- A plan that cannot be staged either overflows the accounts or leaves nothing behind. -/
theorem allocateEach_eq_error (refused : allocateEach plan staging = (after, .error fault)) :
    (∃ shape, fault = .staging (.tooLarge shape)) ∧
        Capacity.wordLimit ≤ staging.telemetry.liveBytes +
          (plan.map fun entry => Staging.bytes entry.2.shape).sum ∨
      fault = .staging .zeroLength ∧ Restored staging after := by
  induction plan generalizing staging after with
  | nil => cases refused
  | cons entry plan ih =>
    obtain ⟨role, source⟩ := entry
    rw [List.map_cons, List.sum_cons]
    dsimp only
    unfold allocateEach at refused
    split at refused
    · rename_i refusal
      cases refused
      rcases @Staging.allocate_eq_error _ _ source.shape _ source.storable refusal with
        ⟨rfl, rfl⟩ | ⟨rfl, full⟩
      · exact .inr ⟨rfl, .refl _⟩
      · exact .inl ⟨⟨_, rfl⟩, Nat.le_trans full (by omega)⟩
    · rename_i middle tensor head
      obtain ⟨_, index, size, keeps⟩ := Staging.allocate_eq_ok head
      obtain ⟨charged, _⟩ := Staging.liveBytes_allocate head
      split at refused
      · rename_i rest later
        cases refused
        rcases ih later with ⟨shortage, full⟩ | ⟨empty, restored⟩
        · exact .inl ⟨shortage, by rw [charged] at full; omega⟩
        · refine .inr ⟨empty, ?_, fun stands => ?_⟩
          · have fresh : staging.slots.size ≤ tensor.index := Nat.le_of_eq index.symm
            exact (keeps.trans (restored.keeps.weaken (by omega))).trans
              (Staging.release_keeps fresh)
          · have found := (restored.keeps.find? (by omega)).trans (Staging.find?_allocate head)
            rw [Staging.telemetry_release found, if_pos (Nat.le_refl _)]
            exact (restored.stands (Staging.stands_allocate head stands)).discharge
      · cases refused

/-- Weights that cannot be staged either overflow the accounts or leave nothing behind. -/
theorem allocate_eq_error (refused : allocate cell params staging = (after, .error fault)) :
    (∃ shape, fault = .staging (.tooLarge shape)) ∧
        Capacity.wordLimit ≤ staging.telemetry.liveBytes + stagedBytes cell params ∨
      fault.error ≠ .outOfBounds ∧ Restored staging after := by
  unfold allocate at refused
  split at refused
  · cases refused
    exact .inr ⟨by simp [Fault.error], .refl _⟩
  · rename_i plan dims checked
    obtain ⟨_, _, _, _, rfl⟩ := stagingPlan_eq_ok.mp checked
    split at refused
    · rename_i refusal
      cases refused
      rcases allocateEach_eq_error refusal with shortage | ⟨rfl, restored⟩
      · exact .inl shortage
      · exact .inr ⟨by simp [Fault.error], restored⟩
    · cases refused

end LstmWeights

variable {cell : Lstm.Cell} {params : Params} {staging after : Staging}
  {descriptor : QueueDescriptor} {info : WorkloadInfo} {error : Error}

/-- Weights that have just been staged are given back without a trace. -/
theorem LstmWeights.restored_release {weights : LstmWeights}
    (allocated : LstmWeights.allocate cell params staging = (after, .ok weights)) :
    Restored staging (weights.release after) := by
  obtain ⟨held, _, _, keeps⟩ := LstmWeights.allocate_eq_ok allocated
  obtain ⟨plan, checked, each⟩ := LstmWeights.allocate_eq_ok_iff.mp allocated
  obtain ⟨_, _, _, _, rfl⟩ := stagingPlan_eq_ok.mp checked
  refine ⟨keeps.trans (Staging.releaseEach_keeps held.fresh), fun stands => ?_⟩
  have charged := LstmWeights.stands_allocateEach each stands
  rw [← held.length_eq, ← stagedBytes, ← held.bytes_eq] at charged
  refine Staging.releaseEach_last (fun entry => entry.2.source.shape) held.nodup_slots
    (fun entry member => ?_) charged
  exact ⟨_, LstmWeights.allocateEach_occupies each entry member, rfl, rfl⟩

/-- Building a cell fails when it does not fit its handles or has no activation, when its weights
cannot be staged, or when they cannot be bound; then they are given back. -/
theorem LstmWorkload.create_eq_error (kind : descriptor.kind = .lstm cell params)
    (refused : create descriptor info staging = (after, .error error)) :
    descriptor.validate info = .error error ∧ after = staging ∨
      Lstm.Activation.ofCode cell.activationCode = .error error ∧ after = staging ∨
      (∃ fault, LstmWeights.allocate cell params staging = (after, .error fault) ∧
        error = fault.error) ∨
      ∃ activation middle weights fault,
        LstmWeights.allocate cell params staging = (middle, .ok weights) ∧
        bind cell activation descriptor weights middle = .error fault ∧
        error = fault.error ∧ after = weights.release middle := by
  unfold create at refused
  rw [kind] at refused
  split at refused
  · cases refused
    exact .inl ⟨‹_›, rfl⟩
  · dsimp only at refused
    split at refused
    · cases refused
      exact .inr (.inl ⟨‹_›, rfl⟩)
    · split at refused
      · cases refused
        exact .inr (.inr (.inl ⟨_, ‹_›, rfl⟩))
      · split at refused
        · cases refused
          exact .inr (.inr (.inr ⟨_, _, _, _, ‹_›, ‹_›, rfl, rfl⟩))
        · cases refused

/-- A cell that cannot be built overflows the accounts or leaves everything as it was. -/
theorem LstmWorkload.create_restores (kind : descriptor.kind = .lstm cell params)
    (refused : create descriptor info staging = (after, .error error)) :
    error = .outOfBounds ∧
        Capacity.wordLimit ≤ staging.telemetry.liveBytes + stagedBytes cell params ∨
      error ≠ .outOfBounds ∧ Restored staging after := by
  rcases create_eq_error kind refused with ⟨misfit, rfl⟩ | ⟨unknown, rfl⟩ |
    ⟨fault, unstaged, rfl⟩ | ⟨activation, middle, weights, fault, allocated, unbound, rfl, rfl⟩
  · exact .inr ⟨(avoids_validate descriptor info).spares error misfit, .refl _⟩
  · exact .inr ⟨(avoids_ofCode cell.activationCode).spares error unknown, .refl _⟩
  · rcases LstmWeights.allocate_eq_error unstaged with ⟨⟨shape, rfl⟩, full⟩ | other
    · exact .inl ⟨rfl, full⟩
    · exact .inr other
  · exact .inr ⟨(avoids_bind cell activation descriptor weights middle).spares fault unbound,
      LstmWeights.restored_release allocated⟩

/-- A workload that cannot be built overflows the accounts or leaves everything as it was. -/
theorem create_restores {device next : Device}
    (refused : create descriptor info device = (next, .error error)) :
    error = .outOfBounds ∧ ¬HasRoom device.staging descriptor.kind ∨
      error ≠ .outOfBounds ∧ next.host = device.host ∧
        Restored device.staging next.staging := by
  by_cases cell : ∃ cell params, descriptor.kind = .lstm cell params
  · obtain ⟨cell, params, kind⟩ := cell
    unfold create at refused
    rw [kind] at refused
    dsimp only at refused
    split at refused
    · rename_i staging error failed
      cases refused
      rcases LstmWorkload.create_restores kind failed with ⟨rfl, full⟩ | ⟨other, restored⟩
      · exact .inl ⟨rfl, by simpa [HasRoom, kind] using full⟩
      · exact .inr ⟨other, rfl, restored⟩
    · cases refused
  · rw [create_of_not_lstm (by simpa using cell)] at refused
    obtain ⟨rfl, failed⟩ := Prod.mk.inj refused
    exact .inr ⟨(avoids_buildSingle descriptor info).spares error failed, rfl, .refl _⟩

end NeuralGraph.Accelerator
