import NeuralGraph.Proofs.Accelerator.Equivalence
import NeuralGraph.Proofs.Accelerator.Influence
import NeuralGraph.Proofs.Accelerator.Retention

/-! Constants of disabled groups on the accelerator. What a cell has no use for is not kept, not
booked, not uploaded and not read. It can still get in the way of building: the peephole of an input
gate is staged before the cell finds that it has no peepholes, and the accounts have to take it. -/

namespace NeuralGraph

/-- The operands of a descriptor, for a cell and its constants. -/
def QueueDescriptor.withCell (descriptor : QueueDescriptor) (cell : Lstm.Cell)
    (params : Lstm.Params) : QueueDescriptor :=
  { descriptor with kind := .lstm cell params }

namespace Accelerator

open Lstm (Alike Params Role Dims)

variable {cell : Lstm.Cell} {params other : Params}

/-- The roles that are staged are the active ones, and the peephole of any input gate. -/
theorem mem_enabledRoles {role : Role} : role ∈ enabledRoles cell ↔
    role ∈ cell.activeRoles ∨ (role = .cellToInputWeights ∧ cell.coupled = false) := by
  cases coupled : cell.coupled with
  | true => simp [enabledRoles, Lstm.Cell.activeRoles, coupled]
  | false =>
    cases peeps : cell.peephole <;>
      simp [enabledRoles, Lstm.Cell.activeRoles, coupled, peeps, or_assoc, or_left_comm, or_comm]

theorem retainedRoles_subset (params : Params) : retainedRoles cell params ⊆ cell.activeRoles := by
  intro role retained
  unfold retainedRoles at retained
  unfold Lstm.Cell.activeRoles
  grind

theorem isSome_of_alike (alike : Alike cell params other) {role : Role}
    (active : role ∈ cell.activeRoles) : (params.get? role).isSome = (other.get? role).isSome := by
  simpa [Params.value?] using congrArg Option.isSome (alike.agree role active)

theorem retainedRoles_alike (alike : Alike cell params other) :
    retainedRoles cell params = retainedRoles cell other := by
  have toInput : cell.coupled = false → cell.peephole = true →
      params.cellToInputWeights.isSome = other.cellToInputWeights.isSome := fun own peeps =>
    @isSome_of_alike _ _ _ alike .cellToInputWeights (by simp [Lstm.Cell.activeRoles, own, peeps])
  have bias : cell.projection = true →
      params.projectionBias.isSome = other.projectionBias.isSome := fun projected =>
    @isSome_of_alike _ _ _ alike .projectionBias (by simp [Lstm.Cell.activeRoles, projected])
  unfold retainedRoles
  cases coupled : cell.coupled <;> cases peeps : cell.peephole <;>
    cases projected : cell.projection <;> simp [*]

/-- The bytes that a cell stages, by the roles that it fills. -/
theorem stagedBytes_eq {dims : Dims} (shapes : params.checkShapes dims = .ok ()) :
    stagedBytes cell params = (((enabledRoles cell).filter fun role =>
      (params.get? role).isSome).map fun role => Staging.bytes (dims.expected role)).sum := by
  rw [stagedBytes, ← map_fst_planned, List.map_map]
  refine congrArg List.sum (List.map_congr_left fun entry member => ?_)
  obtain ⟨role, _, plays⟩ := List.mem_filterMap.mp member
  obtain ⟨constant, held, rfl⟩ := Option.map_eq_some_iff.mp plays
  exact congrArg Staging.bytes (Params.checkShapes_eq_ok.mp shapes role constant held)

/-- The peephole of the input gate is used, is never staged, or is there for both or for neither. -/
def StagesAlike (cell : Lstm.Cell) (params other : Params) : Prop :=
  cell.coupled = true ∨ cell.peephole = true ∨
    params.cellToInputWeights.isSome = other.cellToInputWeights.isSome

theorem stagedBytes_alike (alike : Alike cell params other)
    (stages : StagesAlike cell params other) :
    stagedBytes cell params = stagedBytes cell other := by
  obtain ⟨dims, _, _, shapes, otherShapes⟩ := alike.exists_dims
  have filled : ∀ role ∈ enabledRoles cell,
      (params.get? role).isSome = (other.get? role).isSome := by
    intro role enabled
    rcases mem_enabledRoles.mp enabled with active | ⟨rfl, own⟩
    · exact isSome_of_alike alike active
    · rcases stages with coupled | peeps | same
      · exact absurd (own.symm.trans coupled) (by simp)
      · exact isSome_of_alike alike (by simp [Lstm.Cell.activeRoles, own, peeps])
      · exact same
  rw [stagedBytes_eq shapes, stagedBytes_eq otherShapes, List.filter_congr filled]

namespace LstmWorkload

variable {descriptor : QueueDescriptor} {info : WorkloadInfo} {staging next twinNext : Staging}
  {workload twin : LstmWorkload}

/-- A cell can be built. -/
def Builds (descriptor : QueueDescriptor) (info : WorkloadInfo) (staging : Staging)
    (cell : Lstm.Cell) (params : Params) : Prop :=
  ∃ next workload, create (descriptor.withCell cell params) info staging = (next, .ok workload)

/-- What is built has found room for everything that it stages. -/
theorem Builds.hasRoom (builds : Builds descriptor info staging cell params) :
    HasRoom staging (.lstm cell params) := by
  obtain ⟨_, _, created⟩ := builds
  obtain ⟨_, _, _, _, _, allocated, _⟩ := (create_eq_ok rfl).mp created
  obtain ⟨_, checked, _⟩ := LstmWeights.allocate_eq_ok_iff.mp allocated
  exact ((LstmWeights.allocate_isOk_iff checked).mp ⟨_, _, allocated⟩).2

/-- Room is all that alike constants can still be short of. -/
theorem Builds.of_alike (builds : Builds descriptor info staging cell params)
    (alike : Alike cell params other) (room : HasRoom staging (.lstm cell other)) :
    Builds descriptor info staging cell other := by
  obtain ⟨_, workload, created⟩ := builds
  obtain ⟨fits, activation, middle, weights, code, allocated, bound⟩ :=
    (create_eq_ok rfl).mp created
  obtain ⟨held, width, _⟩ := LstmWeights.allocate_eq_ok allocated
  obtain ⟨_, checked, _⟩ := LstmWeights.allocate_eq_ok_iff.mp allocated
  obtain ⟨full, _⟩ := (LstmWeights.allocate_isOk_iff checked).mp ⟨_, _, allocated⟩
  obtain ⟨dims, known, otherKnown, _, otherShapes⟩ := alike.exists_dims
  obtain rfl : dims = weights.dims := Except.ok.inj (known.symm.trans held.dims)
  have otherChecked : stagingPlan cell other = .ok (planned other (enabledRoles cell),
      weights.dims) :=
    stagingPlan_eq_ok.mpr ⟨alike.otherPasses.1, otherKnown, otherShapes, width, rfl⟩
  obtain ⟨after, otherWeights, otherAllocated⟩ :=
    (LstmWeights.allocate_isOk_iff otherChecked).mpr ⟨full, room⟩
  obtain ⟨otherHeld, _⟩ := LstmWeights.allocate_eq_ok otherAllocated
  have same : otherWeights.dims = weights.dims :=
    Except.ok.inj (otherHeld.dims.symm.trans otherKnown)
  obtain ⟨operands, function, handles, configured, _⟩ := bind_eq_ok_iff.mp bound
  obtain ⟨_, _, _, _, _, tensors, _⟩ := LstmFunction.configure_eq_ok held configured
  obtain ⟨twin, final, otherBound⟩ := @bind_isOk _ _ _ _ (descriptor.withCell cell other) _
    activation _ otherAllocated alike.otherPasses.1 handles (same ▸ tensors)
  exact ⟨final, twin, (create_eq_ok rfl).mpr
    ⟨fits, activation, after, otherWeights, code, otherAllocated, otherBound⟩⟩

/-- The values that a workload keeps, with their roles. -/
def kept (workload : LstmWorkload) : List (Role × ConstantValue) :=
  workload.weights.staged.map fun entry => (entry.1, entry.2.source.value)

/-- A cell keeps the values of its retained roles. -/
theorem map_kept (created : create (descriptor.withCell cell params) info staging =
      (next, .ok workload)) :
    workload.kept.map (fun entry => (entry.1, some entry.2)) =
      (retainedRoles cell params).map fun role => (role, params.value? role) := by
  obtain ⟨retained, sources, _⟩ := create_retains rfl created ⟨rfl, rfl, rfl⟩
  rw [← retained, LstmWorkload.retained, LstmWeights.roles, kept, List.map_map, List.map_map]
  refine List.map_congr_left fun entry member => ?_
  simp only [Function.comp_apply, Params.value?, (sources entry member).1, Option.map_some]

/-- Alike constants leave the same values behind. -/
theorem kept_alike (alike : Alike cell params other)
    (created : create (descriptor.withCell cell params) info staging = (next, .ok workload))
    (twinCreated : create (descriptor.withCell cell other) info staging = (twinNext, .ok twin)) :
    workload.kept = twin.kept := by
  have injective : Function.Injective fun entry : Role × ConstantValue =>
      (entry.1, some entry.2) := by
    rintro ⟨role, value⟩ ⟨otherRole, otherValue⟩ same
    simpa using same
  refine List.map_injective_iff.mpr injective ?_
  rw [map_kept created, map_kept twinCreated, ← retainedRoles_alike alike]
  refine List.map_congr_left fun role member => ?_
  rw [alike.agree role (retainedRoles_subset params member)]

/-- What the accounts and the slots show of a cell that was just built is what it keeps. -/
structure Shows (workload : LstmWorkload) (before after : Staging) : Prop where
  retained : workload.retained = workload.kept.map (·.1)
  held : workload.weights.staged.map (fun entry => (entry.1, after.read entry.2.tensor)) =
    workload.kept.map fun entry => (entry.1, entry.2.data)
  liveBytes : after.telemetry.liveBytes = before.telemetry.liveBytes +
    (workload.kept.map fun entry => Staging.bytes entry.2.info.shape).sum
  liveTensors : after.telemetry.liveTensors = before.telemetry.liveTensors + workload.kept.length
  uploads : after.telemetry.uploads = before.telemetry.uploads + workload.kept.length

theorem create_shows (created : create (descriptor.withCell cell params) info staging =
    (next, .ok workload)) : workload.Shows staging next := by
  obtain ⟨_, _, owns, _, stands⟩ := create_retains rfl created ⟨rfl, rfl, rfl⟩
  refine ⟨?_, ?_, ?_, ?_, ?_⟩
  · rw [retained, LstmWeights.roles, kept, List.map_map]
    rfl
  · rw [kept, List.map_map]
    refine List.map_congr_left fun entry member => ?_
    rw [Staging.read, owns.held entry member]
    rfl
  · rw [stands.liveBytes, kept, List.map_map]
    rfl
  · rw [stands.liveTensors, kept, List.length_map]
  · rw [stands.uploads, kept, List.length_map]

/-- Two workloads on one host do the same, whatever the host holds, as long as what either keeps
stays as it is. -/
def RunAlike (workload twin : LstmWorkload) (next twinNext : Staging) : Prop :=
  ∀ (host : HostMemory) (later twinLater : Staging),
    (∀ entry ∈ workload.weights.staged, later.read entry.2.tensor = next.read entry.2.tensor) →
    (∀ entry ∈ twin.weights.staged,
      twinLater.read entry.2.tensor = twinNext.read entry.2.tensor) →
    ∃ written outcome,
      workload.toWorkload.execute { host, staging := later } =
        ({ host := written, staging := later }, outcome) ∧
      twin.toWorkload.execute { host, staging := twinLater } =
        ({ host := written, staging := twinLater }, outcome)

theorem create_runAlike (alike : Alike cell params other)
    (created : create (descriptor.withCell cell params) info staging = (next, .ok workload))
    (twinCreated : create (descriptor.withCell cell other) info staging = (twinNext, .ok twin)) :
    RunAlike workload twin next twinNext := by
  intro host later twinLater stays twinStays
  obtain ⟨function, input, outputIn, stateIn, scratch, outputOut, stateOut, output, plan, inputs,
    outputs, operands, rfl, code, _, _, _, prepared⟩ := create_prepared rfl created
  obtain ⟨twinFunction, _, _, _, _, _, _, _, twinPlan, twinInputs, twinOutputs, twinOperands,
    sameCell, twinCode, _, _, _, twinPrepared⟩ := create_prepared rfl twinCreated
  obtain ⟨rfl, rfl, rfl⟩ : _ ∧ _ ∧ _ := by simpa using inputs.symm.trans twinInputs
  obtain ⟨rfl, rfl, rfl, rfl⟩ : _ ∧ _ ∧ _ ∧ _ := by simpa using outputs.symm.trans twinOutputs
  rw [sameCell] at twinCode
  have twins : LstmFunction.Twins function twinFunction params other later twinLater :=
    { alike
      prepared := prepared later stays
      twinPrepared := twinPrepared twinLater twinStays
      cell := sameCell
      activation := Except.ok.inj (twinCode.symm.trans code)
      operands := twinOperands.trans operands.symm }
  have imports : ∀ operand ∈ function.operands.toList, ∃ handle, operand = .imported handle := by
    simp [operands, LstmOperands.toList, LstmOperands.inputs, LstmOperands.outputs]
  obtain ⟨written, outcome, ran, twinRan⟩ := twins.run imports host
  refine ⟨written, asError outcome, ?_, ?_⟩
  · rw [toWorkload, plan]
    simp only [execute, NativeFunction.run, if_true, Plan.run, ran]
  · rw [toWorkload, twinPlan]
    simp only [execute, NativeFunction.run, if_true, Plan.run, twinRan]

/-- Two cells that were built on one host and cannot be told apart by what they keep, by the
accounts or by what they run. -/
structure Interchangeable (workload twin : LstmWorkload) (next twinNext : Staging) : Prop where
  retained : workload.retained = twin.retained
  held : workload.weights.staged.map (fun entry => (entry.1, next.read entry.2.tensor)) =
    twin.weights.staged.map fun entry => (entry.1, twinNext.read entry.2.tensor)
  liveBytes : next.telemetry.liveBytes = twinNext.telemetry.liveBytes
  liveTensors : next.telemetry.liveTensors = twinNext.telemetry.liveTensors
  uploads : next.telemetry.uploads = twinNext.telemetry.uploads
  runs : RunAlike workload twin next twinNext

theorem create_interchangeable (alike : Alike cell params other)
    (created : create (descriptor.withCell cell params) info staging = (next, .ok workload))
    (twinCreated : create (descriptor.withCell cell other) info staging = (twinNext, .ok twin)) :
    Interchangeable workload twin next twinNext := by
  have shows := create_shows created
  have twinShows := create_shows twinCreated
  have same := kept_alike alike created twinCreated
  exact {
    retained := by rw [shows.retained, twinShows.retained, same]
    held := by rw [shows.held, twinShows.held, same]
    liveBytes := by rw [shows.liveBytes, twinShows.liveBytes, same]
    liveTensors := by rw [shows.liveTensors, twinShows.liveTensors, same]
    uploads := by rw [shows.uploads, twinShows.uploads, same]
    runs := create_runAlike alike created twinCreated }

/-- Constants of disabled groups have no influence. The reference step is the same with and without
them. On the accelerator they can only take up room while a cell is built, and only the peephole of
an input gate in a cell without peepholes does; a cell that is built keeps, books, uploads and runs
the same. -/
theorem disabledGroups_inert (alike : Alike cell params other) :
    (∀ activation input outputState cellState,
      Reference.lstm cell params activation input outputState cellState =
        Reference.lstm cell other activation input outputState cellState) ∧
    ∀ (descriptor : QueueDescriptor) (info : WorkloadInfo) (staging : Staging),
      (StagesAlike cell params other →
        (Builds descriptor info staging cell params ↔
          Builds descriptor info staging cell other)) ∧
      (Builds descriptor info staging cell params →
        (Builds descriptor info staging cell other ↔ HasRoom staging (.lstm cell other))) ∧
      ∀ next workload twinNext twin,
        create (descriptor.withCell cell params) info staging = (next, .ok workload) →
        create (descriptor.withCell cell other) info staging = (twinNext, .ok twin) →
        Interchangeable workload twin next twinNext := by
  refine ⟨Reference.lstm_alike alike, fun descriptor info staging =>
    ⟨fun stages => ?_, fun builds => ?_, fun _ _ _ _ => create_interchangeable alike⟩⟩
  · have room : HasRoom staging (.lstm cell params) ↔ HasRoom staging (.lstm cell other) := by
      rw [HasRoom, HasRoom, stagedBytes_alike alike stages]
    exact ⟨fun builds => builds.of_alike alike (room.mp builds.hasRoom),
      fun builds => builds.of_alike alike.symm (room.mpr builds.hasRoom)⟩
  · exact ⟨Builds.hasRoom, builds.of_alike alike⟩

-- A cell of one unit with an input gate of its own and nothing else, with just the constants that
-- it needs and with all that there are.

def unitGate : Lstm.Gate where
  inputWeights := ones [1, 1] (by decide)
  recurrentWeights := ones [1, 1] (by decide)
  bias := ones [1] (by decide)

def unitParams : Params where
  forget := unitGate
  cell := unitGate
  output := unitGate
  inputToInputWeights := some (ones [1, 1] (by decide))
  recurrentToInputWeights := some (ones [1, 1] (by decide))
  inputGateBias := some (ones [1] (by decide))

def ladenParams : Params :=
  { unitParams with
    cellToInputWeights := some (ones [1] (by decide))
    cellToForgetWeights := some (ones [1] (by decide))
    cellToOutputWeights := some (ones [1] (by decide))
    projectionWeights := some (ones [1, 1] (by decide))
    projectionBias := some (ones [1] (by decide)) }

def unitCell : Lstm.Cell where
  coupled := false

def unitDescriptor : QueueDescriptor where
  kind := .lstm unitCell unitParams
  inputs :=
    [{ info := { shape := ⟨[1, 1]⟩ }, buffer := some 0 },
     { info := { shape := ⟨[1, 1]⟩ }, buffer := some 1 },
     { info := { shape := ⟨[1, 1]⟩ }, buffer := some 2 }]
  outputs :=
    [{ info := { shape := ⟨[1, 4]⟩ }, buffer := some 3 },
     { info := { shape := ⟨[1, 1]⟩ }, buffer := some 4 },
     { info := { shape := ⟨[1, 1]⟩ }, buffer := some 5 },
     { info := { shape := ⟨[1, 1]⟩ }, buffer := some 6 }]

def unitInfo : WorkloadInfo where
  inputs := unitDescriptor.inputs.map (·.info)
  outputs := unitDescriptor.outputs.map (·.info)

theorem unitCell_alike : Alike unitCell unitParams ladenParams where
  passes := ⟨rfl, ⟨1, 1, 1⟩, rfl, rfl⟩
  otherPasses := ⟨rfl, ⟨1, 1, 1⟩, rfl, rfl⟩
  agree := by
    intro role active
    simp only [Lstm.Cell.activeRoles, Role.basic, unitCell, Bool.false_eq_true, if_false,
      List.append_nil, List.cons_append, List.nil_append, List.mem_cons, List.not_mem_nil,
      or_false] at active
    rcases active with rfl | rfl | rfl | rfl | rfl | rfl | rfl | rfl | rfl | rfl | rfl | rfl <;> rfl

/-- Staging memory whose account is full but for 52 bytes: no tensor of this shape can be held, and
each of them stays booked. -/
def nearlyFull : Staging :=
  (List.replicate 13 ⟨[2147483647, 2147483649]⟩).foldl
    (fun staging shape => (staging.allocate shape).1) {}

theorem liveBytes_nearlyFull : nearlyFull.telemetry.liveBytes + 52 = Capacity.wordLimit := by
  decide +kernel

theorem unitCell_builds (staging : Staging) (fresh : staging = {} ∨ staging = nearlyFull) :
    Builds unitDescriptor unitInfo staging unitCell unitParams := by
  rcases fresh with rfl | rfl
  · exact exists_eq_ok _ (by decide +kernel)
  · exact exists_eq_ok _ (by decide +kernel)

theorem stagedBytes_laden : stagedBytes unitCell ladenParams = 52 := by decide +kernel

/-- The last four bytes of the account would have to hold a peephole that is released again. -/
theorem ladenCell_crowded : ¬∀ (cell : Lstm.Cell) (params other : Params),
    Alike cell params other → ∀ descriptor info staging,
      Builds descriptor info staging cell params ↔ Builds descriptor info staging cell other := by
  intro same
  have builds := (same unitCell unitParams ladenParams unitCell_alike unitDescriptor unitInfo
    nearlyFull).mp (unitCell_builds nearlyFull (.inr rfl))
  have room : nearlyFull.telemetry.liveBytes + stagedBytes unitCell ladenParams <
      Capacity.wordLimit := builds.hasRoom
  rw [stagedBytes_laden, liveBytes_nearlyFull] at room
  exact absurd room (Nat.lt_irrefl _)

/-- In fresh memory the five constants that the cell has no use for leave no trace. -/
theorem ladenCell_interchangeable : ∃ next workload twinNext twin,
    create (unitDescriptor.withCell unitCell unitParams) unitInfo {} = (next, .ok workload) ∧
      create (unitDescriptor.withCell unitCell ladenParams) unitInfo {} = (twinNext, .ok twin) ∧
      Interchangeable workload twin next twinNext := by
  obtain ⟨_, pairs⟩ := disabledGroups_inert unitCell_alike
  obtain ⟨_, transfers, same⟩ := pairs unitDescriptor unitInfo {}
  have builds := unitCell_builds {} (.inl rfl)
  have room : HasRoom {} (.lstm unitCell ladenParams) := by
    rw [HasRoom, stagedBytes_laden]
    decide
  obtain ⟨twinNext, twin, twinCreated⟩ := (transfers builds).mpr room
  obtain ⟨next, workload, created⟩ := builds
  exact ⟨next, workload, twinNext, twin, created, twinCreated,
    same next workload twinNext twin created twinCreated⟩

end LstmWorkload

end Accelerator

end NeuralGraph
