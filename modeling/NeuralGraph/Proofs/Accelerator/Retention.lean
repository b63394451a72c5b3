import NeuralGraph.Proofs.Accelerator.Construction
import NeuralGraph.Proofs.Memory.Accounts

/-! What a cell keeps in staging memory. Every enabled constant is staged, and binding drops those
that the function does not read; what is left has one reference from the weights and one from the
function, and the end of the workload takes both. -/

namespace NeuralGraph.Accelerator

open Lstm (Role Params Dims)
open Staging (Keeps)

variable {cell : Lstm.Cell} {params : Params} {staging after : Staging} {first : Nat}
  {weights : LstmWeights} {roles : List Role} {constants : List StagedConstant}
  {booked live filled : Nat}

/-- The roles that a cell keeps staged. -/
def retainedRoles (cell : Lstm.Cell) (params : Params) : List Role :=
  Role.basic ++
    (if cell.coupled then []
     else [.inputToInputWeights, .recurrentToInputWeights, .inputGateBias] ++
      if cell.peephole && params.cellToInputWeights.isSome then [.cellToInputWeights] else []) ++
    (if cell.projection then
      .projectionWeights :: if params.projectionBias.isSome then [.projectionBias] else []
     else []) ++
    (if cell.peephole then [.cellToForgetWeights, .cellToOutputWeights] else [])

theorem nodup_enabledRoles (cell : Lstm.Cell) : (enabledRoles cell).Nodup := by
  unfold enabledRoles
  cases cell.coupled <;> cases cell.projection <;> cases cell.peephole <;> decide

theorem map_fst_planned (params : Params) (roles : List Role) :
    (planned params roles).map (·.1) = roles.filter fun role => (params.get? role).isSome := by
  induction roles with
  | nil => rfl
  | cons role roles ih =>
    unfold planned at ih ⊢
    cases plays : params.get? role <;> simp [plays, ih]

namespace LstmWeights

theorem nodup_readRoles (weights : LstmWeights) (cell : Lstm.Cell) :
    (weights.readRoles cell).Nodup := by
  unfold readRoles inputRoles projectionRoles optional
  cases cell.coupled <;> cases cell.projection <;> cases cell.peephole <;>
    cases (weights.find? .cellToInputWeights).isSome <;>
      cases (weights.find? .projectionBias).isSome <;> decide

namespace Staged

variable (held : weights.Staged cell params first)
include held

theorem roles_eq :
    weights.roles = (enabledRoles cell).filter fun role => (params.get? role).isSome := by
  rw [← map_fst_planned, ← held.sources, List.map_map]
  rfl

theorem nodup_roles : weights.roles.Nodup :=
  held.roles_eq ▸ (nodup_enabledRoles cell).filter _

theorem nodup_slots : (weights.staged.map (·.2.tensor.index)).Nodup := by
  refine List.Nodup.map_on (fun entry member other memberOther => ?_) held.nodup_roles.of_map
  exact held.apart entry member other memberOther

/-- The entry of a role is what the role finds. -/
theorem find?_of_mem {role : Role} {constant : StagedConstant}
    (member : (role, constant) ∈ weights.staged) : weights.find? role = some constant := by
  have unique : ∀ twin, (role, twin) ∈ weights.staged → twin = constant := fun twin memberTwin =>
    (Prod.mk.inj (List.inj_on_of_nodup_map held.nodup_roles memberTwin member rfl)).2
  cases found : weights.find? role with
  | none => simpa using List.lookup_eq_none_iff.mp found _ member
  | some twin => rw [unique twin (mem_of_find? found)]

/-- Constants found for different roles have slots of their own. -/
theorem nodup_found (found : weights.Found roles constants) (distinct : roles.Nodup) :
    (constants.map (·.tensor.index)).Nodup := by
  induction found with
  | nil => exact List.nodup_nil
  | cons head tail ih =>
    obtain ⟨absent, distinct⟩ := List.nodup_cons.mp distinct
    refine List.nodup_cons.mpr ⟨fun shared => ?_, ih distinct⟩
    obtain ⟨other, member, same⟩ := List.mem_map.mp shared
    obtain ⟨role, inside, there⟩ := Found.exists_role tail member
    have twins := held.apart _ (mem_of_find? head) _ (mem_of_find? there) same.symm
    exact absent ((Prod.mk.inj twins).1 ▸ inside)

/-- A staged constant is among those found exactly when its role is among those asked for. -/
theorem exists_slot_iff (found : weights.Found roles constants) {entry : Role × StagedConstant}
    (member : entry ∈ weights.staged) :
    (∃ constant ∈ constants, entry.2.tensor.index = constant.tensor.index) ↔ entry.1 ∈ roles := by
  constructor
  · intro shared
    obtain ⟨constant, inside, same⟩ := shared
    obtain ⟨role, asked, there⟩ := found.exists_role inside
    rwa [held.apart _ member _ (mem_of_find? there) same]
  · intro asked
    obtain ⟨constant, inside, there⟩ := found.exists_constant asked
    obtain rfl := Option.some.inj ((held.find?_of_mem member).symm.trans there)
    exact ⟨_, inside, rfl⟩

end Staged

/-- A function takes one reference to each constant that it reads. -/
theorem Staged.occupies_retained (held : weights.Staged cell params first)
    (found : weights.Found roles constants) (distinct : roles.Nodup)
    {entry : Role × StagedConstant} (member : entry ∈ weights.staged) {data : Array Float32}
    (occupies : entry.2.Occupies staging data 1) :
    entry.2.Occupies
      (constants.foldl (fun staging constant => staging.retain constant.tensor) staging) data
      (if entry.1 ∈ roles then 2 else 1) := by
  have once : constants.countP (fun constant => entry.2.tensor.index = constant.tensor.index) =
      if entry.1 ∈ roles then 1 else 0 := by
    have counted : constants.countP (fun constant => entry.2.tensor.index = constant.tensor.index) =
        (constants.map (·.tensor.index)).count entry.2.tensor.index := by
      rw [List.count, List.countP_map]
      refine List.countP_congr fun constant _ => ?_
      simp only [decide_eq_true_eq, Function.comp_apply, beq_iff_eq]
      exact eq_comm
    rw [counted, (held.nodup_found found distinct).count]
    refine if_congr ?_ rfl rfl
    rw [← held.exists_slot_iff found member, List.mem_map]
    exact exists_congr fun constant => and_congr_right fun _ => eq_comm
  have retained := Staging.find?_retainEach occupies constants (·.tensor)
  rw [once] at retained
  rw [StagedConstant.Occupies, retained]
  split <;> rfl

/-- The bytes of all staged constants. -/
def bytes (weights : LstmWeights) : Nat :=
  (weights.staged.map fun entry => Staging.bytes entry.2.source.shape).sum

/-- The constants staged for some roles. -/
def only (weights : LstmWeights) (roles : List Role) : LstmWeights :=
  { weights with staged := weights.staged.filter fun entry => entry.1 ∈ roles }

/-- The constants staged for any other role. -/
def except (weights : LstmWeights) (roles : List Role) : LstmWeights :=
  { weights with staged := weights.staged.filter fun entry => !decide (entry.1 ∈ roles) }

theorem perm_only_except (weights : LstmWeights) (roles : List Role) :
    ((weights.only roles).staged ++ (weights.except roles).staged).Perm weights.staged :=
  List.filter_append_perm _ _

theorem bytes_only_except (weights : LstmWeights) (roles : List Role) :
    (weights.only roles).bytes + (weights.except roles).bytes = weights.bytes := by
  have same := ((weights.perm_only_except roles).map fun (entry : Role × StagedConstant) =>
    Staging.bytes entry.2.source.shape).sum_nat
  simpa [bytes] using same

/-- Releasing what nothing else refers to keeps the constants of the roles that are read. -/
theorem Staged.releaseUnreferenced_spec (held : weights.Staged cell params first)
    (occupies : ∀ entry ∈ weights.staged,
      entry.2.Occupies staging entry.2.zeros (if entry.1 ∈ roles then 2 else 1))
    (stands : staging.telemetry.Stands (booked + weights.bytes) (live + weights.staged.length)
      filled) :
    (weights.releaseUnreferenced staging).2.1 = weights.only roles ∧
      (∀ entry ∈ (weights.only roles).staged,
        entry.2.Occupies (weights.releaseUnreferenced staging).2.2 entry.2.zeros 2) ∧
      (weights.releaseUnreferenced staging).2.2.telemetry.Stands
        (booked + (weights.only roles).bytes) (live + (weights.only roles).staged.length)
        filled := by
  have referenced : ∀ entry ∈ weights.staged,
      isReferenced staging entry = decide (entry.1 ∈ roles) := by
    intro entry member
    rw [isReferenced, Staging.references, occupies entry member]
    by_cases read : entry.1 ∈ roles <;> simp [read]
  have kept : weights.staged.filter (isReferenced staging) = (weights.only roles).staged :=
    List.filter_congr referenced
  have dropped : (weights.staged.filter fun entry => !isReferenced staging entry) =
      (weights.except roles).staged :=
    List.filter_congr fun entry member => congrArg (!·) (referenced entry member)
  have released : (weights.releaseUnreferenced staging).2.2 = (weights.except roles).staged.foldl
      (fun staging entry => staging.release entry.2.tensor) staging := by
    simp only [releaseUnreferenced, dropped]
  refine ⟨by simp only [releaseUnreferenced, kept, only], ?_, ?_⟩
  · intro entry member
    obtain ⟨inside, read⟩ := List.mem_filter.mp member
    have full := occupies entry inside
    rw [if_pos (of_decide_eq_true read)] at full
    rw [StagedConstant.Occupies, released, Staging.find?_releaseEach_of_ne, full]
    intro other drop same
    obtain ⟨insideOther, unread⟩ := List.mem_filter.mp drop
    rw [← held.apart entry inside other insideOther same, read] at unread
    cases unread
  · rw [released]
    refine Staging.releaseEach_last (fun entry => entry.2.source.shape) ?_ ?_ ?_
    · exact held.nodup_slots.sublist (List.filter_sublist.map _)
    · intro entry member
      obtain ⟨inside, unread⟩ := List.mem_filter.mp member
      have full := occupies entry inside
      rw [if_neg (by simpa using unread)] at full
      exact ⟨_, full, rfl, rfl⟩
    · have lengths := (weights.perm_only_except roles).length_eq
      rw [List.length_append] at lengths
      rw [← weights.bytes_only_except roles, ← lengths, ← Nat.add_assoc, ← Nat.add_assoc] at stands
      exact stands

end LstmWeights

/-- Uploads fill tensors in place, and each is counted. -/
theorem uploadEach_spec (uploaded : LstmFunction.uploadEach constants staging = .ok after)
    (apart : (constants.map (·.tensor.index)).Nodup)
    (stands : staging.telemetry.Stands booked live filled) :
    (∀ constant ∈ constants, ∀ data references, constant.Occupies staging data references →
      constant.Occupies after constant.source.data references) ∧
      (∀ tensor : StagedRef, (∀ constant ∈ constants, tensor.index ≠ constant.tensor.index) →
        after.find? tensor = staging.find? tensor) ∧
      after.telemetry.Stands booked live (filled + constants.length) := by
  induction constants generalizing staging filled with
  | nil =>
    cases uploaded
    exact ⟨by simp, fun _ _ => rfl, stands⟩
  | cons constant constants ih =>
    obtain ⟨absent, apart⟩ := List.nodup_cons.mp apart
    obtain ⟨middle, stored, later⟩ := bind_eq_ok.mp uploaded
    have upload := ofStaging_eq_ok.mp stored
    obtain ⟨fills, others, counted⟩ := ih later apart (Staging.stands_upload upload stands)
    have untouched : ∀ tensor : StagedRef, tensor.index ≠ constant.tensor.index →
        middle.find? tensor = staging.find? tensor := by
      intro tensor different
      rw [Staging.find?_upload upload]
      simp [different]
    have outside : ∀ other ∈ constants, other.tensor.index ≠ constant.tensor.index :=
      fun other member same => absent (List.mem_map.mpr ⟨other, member, same⟩)
    refine ⟨?_, fun tensor free => ?_, ?_⟩
    · intro other member data references occupies
      rcases List.mem_cons.mp member with rfl | inside
      · rw [StagedConstant.Occupies, others _ fun twin memberTwin same =>
          outside twin memberTwin same.symm, Staging.find?_upload upload, occupies]
        simp
      · refine fills other inside data references ?_
        rw [StagedConstant.Occupies, untouched _ (outside other inside), occupies]
    · rw [others tensor fun other member => free other (List.mem_cons_of_mem _ member),
        untouched tensor (free _ List.mem_cons_self)]
    · rw [List.length_cons, Nat.add_comm constants.length, ← Nat.add_assoc]
      exact counted

/-- Operands on the host are not counted. -/
theorem Operand.releaseAll_imported {operands : List Operand}
    (imports : ∀ operand ∈ operands, ∃ handle, operand = .imported handle) (staging : Staging) :
    Operand.releaseAll operands staging = staging := by
  induction operands with
  | nil => rfl
  | cons operand operands ih =>
    obtain ⟨handle, rfl⟩ := imports operand List.mem_cons_self
    exact ih fun other member => imports other (List.mem_cons_of_mem _ member)

/-- A workload has a filled tensor for each constant that its function reads, with one reference
from its weights and one from the function. -/
structure LstmWorkload.Owns (workload : LstmWorkload) (staging : Staging) : Prop where
  held : ∀ entry ∈ workload.weights.staged, entry.2.Occupies staging entry.2.source.data 2
  apart : (workload.weights.staged.map (·.2.tensor.index)).Nodup
  reads : workload.function.plan.constants.Perm (workload.weights.staged.map (·.2))

/-- The function of a cell reads what its weights are staged for, up to their order. -/
theorem LstmWeights.Staged.perm_found (held : weights.Staged cell params first)
    (found : weights.Found roles constants) (distinct : roles.Nodup) :
    constants.Perm ((weights.only roles).staged.map (·.2)) := by
  refine (List.perm_ext_iff_of_nodup (held.nodup_found found distinct).of_map ?_).mpr ?_
  · have slots : ((weights.only roles).staged.map (·.2.tensor.index)).Nodup :=
      held.nodup_slots.sublist (List.filter_sublist.map _)
    refine List.Nodup.of_map (fun constant => constant.tensor.index) ?_
    rw [List.map_map]
    exact slots
  · intro constant
    rw [List.mem_map]
    constructor
    · intro member
      obtain ⟨role, asked, there⟩ := found.exists_role member
      exact ⟨(role, constant), List.mem_filter.mpr ⟨mem_of_find? there, by simpa⟩, rfl⟩
    · intro member
      obtain ⟨⟨role, _⟩, inside, rfl⟩ := member
      obtain ⟨inside, asked⟩ := List.mem_filter.mp inside
      obtain ⟨constant, member, there⟩ := found.exists_constant (of_decide_eq_true asked)
      obtain rfl := Option.some.inj ((held.find?_of_mem inside).symm.trans there)
      exact member

/-- Binding a cell to constants that have just been staged. -/
theorem LstmWorkload.bind_owns {descriptor : QueueDescriptor} {activation : Lstm.Activation}
    {workload : LstmWorkload} (held : weights.Staged cell params first)
    (blank : ∀ entry ∈ weights.staged, entry.2.Occupies staging entry.2.zeros 1)
    (bound : bind cell activation descriptor weights staging = .ok (workload, after))
    (stands : staging.telemetry.Stands (booked + weights.bytes) (live + weights.staged.length)
      filled) :
    workload.weights = weights.only (weights.readRoles cell) ∧ workload.Owns after ∧
      after.telemetry.Stands (booked + workload.weights.bytes)
        (live + workload.weights.staged.length) (filled + workload.weights.staged.length) := by
  obtain ⟨operands, function, handles, configured, upload, rfl⟩ := bind_eq_ok_iff.mp bound
  obtain ⟨_, _, _, _, _, _, _, _, _, rfl⟩ := ofHandles_eq_ok handles
  obtain ⟨_, _, _, _, sameOperands, _, found⟩ := LstmFunction.configure_eq_ok held configured
  have distinct := weights.nodup_readRoles cell
  rw [LstmFunction.acquire_imported (by rw [sameOperands]; rfl)] at upload ⊢
  rw [← Staging.telemetry_retainEach function.constants (·.tensor)] at stands
  obtain ⟨kept, filledBlank, stands⟩ := held.releaseUnreferenced_spec
    (fun entry member => held.occupies_retained found distinct member (blank entry member)) stands
  have perm := held.perm_found found distinct
  obtain ⟨fills, _, counted⟩ := uploadEach_spec upload (held.nodup_found found distinct) stands
  rw [kept]
  refine ⟨rfl, ⟨fun entry member => ?_, ?_, perm⟩, ?_⟩
  · exact fills _ (perm.mem_iff.mpr (List.mem_map_of_mem member)) _ _ (filledBlank entry member)
  · exact held.nodup_slots.sublist (List.filter_sublist.map _)
  · rw [perm.length_eq, List.length_map] at counted
    exact counted

/-- Whether a role is filled, where only a peephole of the input gate and a projection bias may
be missing. -/
def fills (peephole bias : Bool) : Role → Bool
  | .cellToInputWeights => peephole
  | .projectionBias => bias
  | _ => true

/-- A cell fills every role that it enables, but for these two. -/
theorem isSome_of_enabled (groups : params.checkGroups cell = .ok ()) {role : Role}
    (enabled : role ∈ enabledRoles cell) : (params.get? role).isSome =
      fills params.cellToInputWeights.isSome params.projectionBias.isSome role := by
  obtain ⟨input, projection, peephole⟩ := Params.checkGroups_eq_ok.mp groups
  cases role <;> simp_all [enabledRoles, Role.basic, Params.get?, fills]

namespace LstmWeights.Staged

variable (held : weights.Staged cell params first)
include held

theorem isSome_find? {role : Role} (enabled : role ∈ enabledRoles cell) :
    (weights.find? role).isSome = (params.get? role).isSome := by
  have source := held.find? role
  rw [if_pos enabled] at source
  rw [← source, Option.isSome_map]

/-- The roles that are staged and read are those that the flags of the cell ask for. -/
theorem roles_only (groups : params.checkGroups cell = .ok ()) :
    (weights.only (weights.readRoles cell)).roles = retainedRoles cell params := by
  have filtered : (weights.only (weights.readRoles cell)).roles =
      ((enabledRoles cell).filter
        (fills params.cellToInputWeights.isSome params.projectionBias.isSome)).filter
        (· ∈ weights.readRoles cell) := by
    rw [← List.filter_congr fun role enabled => isSome_of_enabled groups enabled, ← held.roles_eq]
    simp only [LstmWeights.roles, only, List.filter_map]
    rfl
  have input : weights.inputRoles cell = if cell.coupled then []
      else [.inputToInputWeights, .recurrentToInputWeights, .inputGateBias] ++
        if cell.peephole then
          if params.cellToInputWeights.isSome then [.cellToInputWeights] else []
        else [] := by
    unfold inputRoles
    split
    · rfl
    · rename_i own
      rw [optional, held.isSome_find? (by simp [enabledRoles, own])]
      rfl
  have projection : weights.projectionRoles cell = if cell.projection then
      .projectionWeights :: if params.projectionBias.isSome then [.projectionBias] else []
      else [] := by
    unfold projectionRoles
    split
    · rename_i projected
      rw [optional, held.isSome_find? (by simp [enabledRoles, projected])]
      rfl
    · rfl
  rw [filtered, readRoles, input, projection]
  unfold enabledRoles retainedRoles
  generalize params.cellToInputWeights.isSome = peephole
  generalize params.projectionBias.isSome = bias
  cases cell.coupled <;> cases cell.projection <;> cases cell.peephole <;> cases peephole <;>
    cases bias <;> decide

theorem bytes_eq : weights.bytes = stagedBytes cell params := by
  rw [stagedBytes, ← held.sources, List.map_map]
  rfl

theorem length_eq : weights.staged.length = (planned params (enabledRoles cell)).length := by
  rw [← held.sources, List.length_map]

end LstmWeights.Staged

namespace LstmWeights

variable {plan : List (Role × Constant)}

/-- Every constant of a plan is booked. -/
theorem stands_allocateEach {staged : List (Role × StagedConstant)}
    (allocated : allocateEach plan staging = (after, .ok staged))
    (stands : staging.telemetry.Stands booked live filled) :
    after.telemetry.Stands (booked + (plan.map fun entry => Staging.bytes entry.2.shape).sum)
      (live + plan.length) filled := by
  induction plan generalizing staging staged booked live with
  | nil =>
    cases allocated
    exact stands
  | cons entry plan ih =>
    obtain ⟨middle, tensor, rest, head, tail, _⟩ := allocateEach_cons_eq_ok.mp allocated
    have counted := ih tail (Staging.stands_allocate head stands)
    rw [List.map_cons, List.sum_cons, List.length_cons, Nat.add_comm plan.length, ← Nat.add_assoc,
      ← Nat.add_assoc]
    exact counted

end LstmWeights

namespace LstmWorkload

variable {descriptor : QueueDescriptor} {info : WorkloadInfo} {workload : LstmWorkload}

/-- A cell that is built keeps the constants that its flags ask for, each in a slot of its own. -/
theorem create_retains (kind : descriptor.kind = .lstm cell params)
    (created : create descriptor info staging = (after, .ok workload))
    (stands : staging.telemetry.Stands booked live filled) :
    workload.retained = retainedRoles cell params ∧
      (∀ entry ∈ workload.weights.staged, params.get? entry.1 = some entry.2.source ∧
        staging.slots.size ≤ entry.2.tensor.index) ∧
      workload.Owns after ∧ Keeps staging.slots.size staging after ∧
      after.telemetry.Stands (booked + workload.weights.bytes)
        (live + workload.weights.staged.length) (filled + workload.weights.staged.length) := by
  obtain ⟨keeps, _⟩ := create_follows kind created
  obtain ⟨_, activation, middle, weights, _, allocated, bound⟩ := (create_eq_ok kind).mp created
  obtain ⟨held, _⟩ := LstmWeights.allocate_eq_ok allocated
  obtain ⟨plan, checked, each⟩ := LstmWeights.allocate_eq_ok_iff.mp allocated
  obtain ⟨groups, _, _, _, rfl⟩ := stagingPlan_eq_ok.mp checked
  have charged := LstmWeights.stands_allocateEach each stands
  rw [← held.length_eq, ← stagedBytes, ← held.bytes_eq] at charged
  obtain ⟨kept, owns, counted⟩ :=
    bind_owns held (LstmWeights.allocateEach_occupies each) bound charged
  refine ⟨?_, fun entry member => ?_, owns, keeps, counted⟩
  · rw [retained, kept, held.roles_only groups]
  · rw [kept] at member
    have inside := (List.mem_filter.mp member).1
    have source := held.find? entry.1
    rw [held.find?_of_mem inside] at source
    split at source
    · exact ⟨source.symm, held.fresh entry inside⟩
    · cases source

/-- The end of a workload gives back what it keeps, and nothing else. -/
theorem release_spec {device : Device} (owns : workload.Owns device.staging)
    (imports : ∀ operand ∈ workload.function.plan.operands, ∃ handle, operand = .imported handle)
    (stands : device.staging.telemetry.Stands (booked + workload.weights.bytes)
      (live + workload.weights.staged.length) filled) :
    (workload.release device).host = device.host ∧
      (workload.release device).staging.telemetry.Stands booked live filled ∧
      ∀ tensor : StagedRef,
        (∀ entry ∈ workload.weights.staged, tensor.index ≠ entry.2.tensor.index) →
        (workload.release device).staging.find? tensor = device.staging.find? tensor := by
  have slots : (workload.function.plan.constants.map (·.tensor.index)).Nodup := by
    refine ((owns.reads.map (·.tensor.index)).nodup_iff).mpr ?_
    rw [List.map_map]
    exact owns.apart
  have held : ∀ constant ∈ workload.function.plan.constants,
      constant.Occupies device.staging constant.source.data 2 := by
    intro constant member
    obtain ⟨entry, inside, rfl⟩ := List.mem_map.mp (owns.reads.mem_iff.mp member)
    exact owns.held entry inside
  obtain ⟨telemetry, shared⟩ := Staging.releaseEach_shared slots fun constant member =>
    ⟨_, held constant member, Nat.lt_succ_self 1⟩
  have released : workload.function.release device.staging =
      workload.function.plan.constants.foldl
        (fun staging constant => staging.release constant.tensor) device.staging :=
    Operand.releaseAll_imported imports _
  rw [← telemetry, ← released] at stands
  refine ⟨rfl, ?_, fun tensor free => ?_⟩
  · refine Staging.releaseEach_last (fun entry => entry.2.source.shape) owns.apart ?_ stands
    intro entry member
    have read : entry.2 ∈ workload.function.plan.constants :=
      owns.reads.mem_iff.mpr (List.mem_map_of_mem member)
    exact ⟨_, released ▸ shared _ read _ (held _ read), rfl, rfl⟩
  · refine (Staging.find?_releaseEach_of_ne free).trans ?_
    rw [released]
    refine Staging.find?_releaseEach_of_ne fun constant member => ?_
    obtain ⟨entry, inside, rfl⟩ := List.mem_map.mp (owns.reads.mem_iff.mp member)
    exact free entry inside

end LstmWorkload

end NeuralGraph.Accelerator
