import Mathlib.Algebra.BigOperators.Ring.List
import Mathlib.Algebra.Ring.Nat
import Mathlib.Data.List.Perm.Basic
import NeuralGraph.Proofs.Accelerator.Equivalence
import NeuralGraph.Proofs.Accelerator.Failure

/-! A run of calls on one accelerator: workloads are built, executed and dropped in any order. At
every point the accounts of staging memory stand for what the live cells keep, and the uploads for
what all cells have kept that were ever built. -/

namespace NeuralGraph.Accelerator

open Lstm (Role Params)
open Staging (Keeps Restored)

section Execution

variable {plan : Plan}

theorem staging_writeEach {results : List (Operand × Array Float32)}
    (imports : ∀ entry ∈ results, ∃ handle, entry.1 = .imported handle) (device : Device) :
    (LstmFunction.writeEach results device).1.staging = device.staging := by
  induction results generalizing device with
  | nil => rfl
  | cons entry results ih =>
    obtain ⟨operand, data⟩ := entry
    obtain ⟨handle, imported⟩ := imports _ List.mem_cons_self
    obtain rfl : operand = .imported handle := imported
    unfold LstmFunction.writeEach
    split
    · rfl
    · rename_i stored
      rw [ih fun other member => imports other (List.mem_cons_of_mem _ member)]
      exact Operand.staging_write_imported stored

/-- A function whose operands are caller memory leaves staging memory alone. -/
theorem staging_run (imports : ∀ operand ∈ plan.operands, ∃ handle, operand = .imported handle)
    (device : Device) : (plan.run device).1.staging = device.staging := by
  cases plan with
  | pooling function =>
    obtain ⟨handle, output⟩ := imports function.output (by simp [Plan.operands])
    rw [Plan.run, PoolingFunction.run, output]
    exact Operand.staging_store_imported _
  | elementwise function =>
    obtain ⟨handle, output⟩ := imports function.output (by simp [Plan.operands])
    rw [Plan.run, ElementwiseFunction.run, output]
    exact Operand.staging_store_imported _
  | softmax function =>
    obtain ⟨handle, output⟩ := imports function.output (by simp [Plan.operands])
    rw [Plan.run, SoftmaxFunction.run, output]
    exact Operand.staging_store_imported _
  | lstm function =>
    unfold Plan.run LstmFunction.run
    dsimp only
    split
    · rfl
    · refine staging_writeEach (fun entry member => ?_) device
      simp only [List.mem_cons, List.not_mem_nil, or_false] at member
      rcases member with rfl | rfl | rfl | rfl <;>
        exact imports _ (by simp [Plan.operands, LstmOperands.toList, LstmOperands.outputs])

theorem staging_execute (imports : ∀ operand ∈ plan.operands, ∃ handle, operand = .imported handle)
    (device : Device) :
    (execute { plan, prepared := true } device).1.staging = device.staging :=
  staging_run imports device

theorem planSingle_operands {kind : LayerKind} {input output : Operand}
    (planned : planSingle kind input output = .ok plan) : plan.operands = [input, output] := by
  unfold planSingle at planned
  split at planned
  · obtain ⟨function, configured, same⟩ := bind_eq_ok.mp planned
    obtain rfl := pure_eq_ok.mp same
    obtain ⟨rfl, rfl⟩ := PoolingFunction.operands_of_configure configured
    rfl
  · obtain ⟨function, configured, same⟩ := bind_eq_ok.mp planned
    obtain rfl := pure_eq_ok.mp same
    obtain rfl := ElementwiseFunction.configure_eq_ok configured
    rfl
  · obtain ⟨function, configured, same⟩ := bind_eq_ok.mp planned
    obtain rfl := pure_eq_ok.mp same
    obtain ⟨_, _, _, _, rfl⟩ := SoftmaxFunction.configure_eq_ok configured
    rfl
  · cases planned

end Execution

/-- A workload in use, with what it was built from and, where it is a cell, what it keeps. -/
structure Job where
  descriptor : QueueDescriptor
  workload : Workload
  cell? : Option LstmWorkload

/-- The staged constants that a job keeps. -/
def Job.kept (job : Job) : List (Role × StagedConstant) :=
  job.cell?.toList.flatMap (·.weights.staged)

/-- A job as it is built: it works on caller memory. A cell keeps what its flags ask for, and any
other workload keeps nothing. -/
structure Job.Sound (job : Job) : Prop where
  spares : ∀ device, (job.workload.execute device).1.staging = device.staging
  single : (∀ cell params, job.descriptor.kind ≠ .lstm cell params) →
    job.cell? = none ∧ job.workload.release = id
  cell : ∀ cell params, job.descriptor.kind = .lstm cell params → ∃ built,
    job.cell? = some built ∧ job.workload = built.toWorkload ∧
    built.retained = retainedRoles cell params ∧
    (∀ entry ∈ built.weights.staged, params.get? entry.1 = some entry.2.source) ∧
    ∀ operand ∈ built.function.plan.operands, ∃ handle, operand = .imported handle

variable {descriptor : QueueDescriptor} {info : WorkloadInfo}

/-- The function of a cell has the caller's handles as its operands. -/
theorem LstmWorkload.create_imports {cell : Lstm.Cell} {params : Params} {staging after : Staging}
    {workload : LstmWorkload} (kind : descriptor.kind = .lstm cell params)
    (created : create descriptor info staging = (after, .ok workload)) :
    ∃ plan, workload.function = { plan, prepared := true } ∧
      ∀ operand ∈ plan.operands, ∃ handle, operand = .imported handle := by
  obtain ⟨_, activation, middle, weights, _, allocated, bound⟩ := (create_eq_ok kind).mp created
  obtain ⟨held, _⟩ := LstmWeights.allocate_eq_ok allocated
  obtain ⟨function, _, _, _, _, _, _, _, plan, _, _, operands, _⟩ := bind_eq_ok held bound
  refine ⟨_, plan, ?_⟩
  simp [Plan.operands, operands, LstmOperands.toList, LstmOperands.inputs, LstmOperands.outputs]

/-- The job that starts when a workload is built. -/
def Job.ofCreate (descriptor : QueueDescriptor) (info : WorkloadInfo) (device : Device)
    (workload : Workload) : Job where
  descriptor
  workload
  cell? := (LstmWorkload.create descriptor info device.staging).2.toOption

theorem LstmWorkload.create_of_not_lstm {staging : Staging}
    (single : ∀ cell params, descriptor.kind ≠ .lstm cell params) :
    (create descriptor info staging).2.toOption = none := by
  unfold create
  split
  · rfl
  · split
    · rename_i kind
      exact absurd kind (single _ _)
    · rfl

theorem buildSingle_sound {job : Job}
    (single : ∀ cell params, job.descriptor.kind ≠ .lstm cell params) (nothing : job.cell? = none)
    (built : buildSingle job.descriptor info = .ok job.workload) : job.Sound := by
  obtain ⟨_, built⟩ := seq_eq_ok.mp built
  obtain ⟨input, inputs, built⟩ := bind_eq_ok.mp built
  obtain ⟨output, outputs, built⟩ := bind_eq_ok.mp built
  obtain ⟨plan, planned, finished⟩ := bind_eq_ok.mp built
  have workload := pure_eq_ok.mp finished
  obtain ⟨source, _, _, rfl⟩ := single_eq_ok.mp (asError_eq_ok.mp inputs)
  obtain ⟨target, _, _, rfl⟩ := single_eq_ok.mp (asError_eq_ok.mp outputs)
  have operands := planSingle_operands (asError_eq_ok.mp planned)
  exact {
    spares := workload ▸ staging_execute (by simp [operands])
    single := fun _ => ⟨nothing, workload ▸ rfl⟩
    cell := fun cell params kind => absurd kind (single cell params) }

/-- Every workload that is built starts a job as it should be. -/
theorem Job.ofCreate_sound {device next : Device} {workload : Workload}
    (created : create descriptor info device = (next, .ok workload)) :
    (Job.ofCreate descriptor info device workload).Sound := by
  by_cases lstm : ∃ cell params, descriptor.kind = .lstm cell params
  · obtain ⟨cell, params, kind⟩ := lstm
    obtain ⟨staging, built, bound, rfl, rfl⟩ := (create_lstm_eq_ok kind).mp created
    obtain ⟨retained, sources, _⟩ := LstmWorkload.create_retains kind bound ⟨rfl, rfl, rfl⟩
    obtain ⟨plan, ready, imports⟩ := LstmWorkload.create_imports kind bound
    refine {
      spares := ?_
      single := fun single => absurd kind (single cell params)
      cell := fun other otherParams same => ?_ }
    · rw [ofCreate, LstmWorkload.toWorkload, ready]
      exact staging_execute imports
    · obtain ⟨rfl, rfl⟩ := LayerKind.lstm.inj (kind.symm.trans same)
      refine ⟨built, by rw [ofCreate, bound]; rfl, rfl, retained,
        fun entry member => (sources entry member).1, ?_⟩
      rw [ready]
      exact imports
  · have single : ∀ cell params, descriptor.kind ≠ .lstm cell params := by simpa using lstm
    rw [create_of_not_lstm single] at created
    obtain ⟨rfl, built⟩ := Prod.mk.inj created
    exact buildSingle_sound single (LstmWorkload.create_of_not_lstm single) built

/-- The staged constants that jobs keep. -/
def kept (jobs : List Job) : List (Role × StagedConstant) := jobs.flatMap Job.kept

/-- The accounts stand for what the live jobs keep: each staged constant has a slot of its own. -/
structure Accounts (live : List Job) (uploads : Nat) (staging : Staging) : Prop where
  owns : ∀ job ∈ live, ∀ cell, job.cell? = some cell → cell.Owns staging
  apart : ((kept live).map (·.2.tensor.index)).Nodup
  stands : staging.telemetry.Stands
    ((kept live).map fun entry => Staging.bytes entry.2.source.shape).sum (kept live).length uploads

section Accounts

variable {live rest : List Job} {job : Job} {uploads : Nat} {staging after : Staging}

theorem LstmWorkload.Owns.of_find? {workload : LstmWorkload} (owns : workload.Owns staging)
    (same : ∀ entry ∈ workload.weights.staged,
      after.find? entry.2.tensor = staging.find? entry.2.tensor) : workload.Owns after where
  held := fun entry member => (same entry member).trans (owns.held entry member)
  apart := owns.apart
  reads := owns.reads

namespace Accounts

/-- What a live job keeps is held. -/
theorem held (accounts : Accounts live uploads staging) {entry : Role × StagedConstant}
    (member : entry ∈ kept live) : entry.2.Occupies staging entry.2.source.data 2 := by
  obtain ⟨job, inside, member⟩ := List.mem_flatMap.mp member
  obtain ⟨cell, found, member⟩ := List.mem_flatMap.mp member
  exact (accounts.owns job inside cell (Option.mem_toList.mp found)).held entry member

theorem perm (accounts : Accounts live uploads staging) (same : live.Perm rest) :
    Accounts rest uploads staging := by
  have keeps : (kept live).Perm (kept rest) := same.flatMap_right Job.kept
  refine ⟨fun job member => accounts.owns job (same.mem_iff.mpr member),
    (keeps.map _).nodup_iff.mp accounts.apart, ?_⟩
  rw [← (keeps.map _).sum_nat, ← keeps.length_eq]
  exact accounts.stands

/-- A job that keeps nothing. -/
theorem cons (accounts : Accounts live uploads staging) (nothing : job.cell? = none) :
    Accounts (job :: live) uploads staging := by
  have same : kept (job :: live) = kept live := by simp [kept, Job.kept, nothing]
  refine ⟨fun other member cell found => ?_, same ▸ accounts.apart, same ▸ accounts.stands⟩
  rcases List.mem_cons.mp member with rfl | member
  · rw [nothing] at found
    cases found
  · exact accounts.owns other member cell found

/-- The end of a job that keeps nothing. -/
theorem uncons (accounts : Accounts (job :: live) uploads staging) (nothing : job.cell? = none) :
    Accounts live uploads staging := by
  have same : kept (job :: live) = kept live := by simp [kept, Job.kept, nothing]
  exact ⟨fun other member => accounts.owns other (List.mem_cons_of_mem _ member),
    same ▸ accounts.apart, same ▸ accounts.stands⟩

/-- What could not be built leaves no trace. -/
theorem restored (accounts : Accounts live uploads staging) (restored : Restored staging after) :
    Accounts live uploads after where
  owns := fun job member cell found =>
    have owns := accounts.owns job member cell found
    owns.of_find? fun entry inside =>
      restored.keeps.find? (Staging.lt_size_of_find? (owns.held entry inside))
  apart := accounts.apart
  stands := restored.stands accounts.stands

/-- A cell that was just built takes slots of its own. -/
theorem create {cell : Lstm.Cell} {params : Params} {built : LstmWorkload}
    (accounts : Accounts live uploads staging) (kind : descriptor.kind = .lstm cell params)
    (created : LstmWorkload.create descriptor info staging = (after, .ok built))
    (found : job.cell? = some built) :
    Accounts (job :: live) (uploads + built.retained.length) after := by
  obtain ⟨_, fresh, owns, keeps, stands⟩ :=
    LstmWorkload.create_retains kind created accounts.stands
  have same : kept (job :: live) = built.weights.staged ++ kept live := by
    simp [kept, Job.kept, found]
  refine ⟨fun other member cell foundOther => ?_, ?_, ?_⟩
  · rcases List.mem_cons.mp member with rfl | member
    · obtain rfl := Option.some.inj (found.symm.trans foundOther)
      exact owns
    · have earlier := accounts.owns other member cell foundOther
      exact earlier.of_find? fun entry inside =>
        keeps.find? (Staging.lt_size_of_find? (earlier.held entry inside))
  · rw [same, List.map_append, List.nodup_append]
    refine ⟨owns.apart, accounts.apart, ?_⟩
    intro index new other old clash
    obtain ⟨entry, inside, rfl⟩ := List.mem_map.mp new
    obtain ⟨earlier, insideEarlier, rfl⟩ := List.mem_map.mp old
    have below := Staging.lt_size_of_find? (accounts.held insideEarlier)
    exact absurd clash (Nat.ne_of_gt (Nat.lt_of_lt_of_le below (fresh entry inside).2))
  · rw [same, List.map_append, List.sum_append, List.length_append, Nat.add_comm _ (List.sum _),
      Nat.add_comm built.weights.staged.length, LstmWorkload.retained, LstmWeights.roles,
      List.length_map]
    exact stands

/-- A cell that is dropped gives its slots back. -/
theorem release {device : Device} {built : LstmWorkload}
    (accounts : Accounts (job :: live) uploads device.staging) (found : job.cell? = some built)
    (imports : ∀ operand ∈ built.function.plan.operands, ∃ handle, operand = .imported handle) :
    Accounts live uploads (built.release device).staging := by
  have same : kept (job :: live) = built.weights.staged ++ kept live := by
    simp [kept, Job.kept, found]
  obtain ⟨owns, apart, stands⟩ := accounts
  rw [same, List.map_append, List.nodup_append] at apart
  rw [same, List.map_append, List.sum_append, List.length_append, Nat.add_comm _ (List.sum _),
    Nat.add_comm built.weights.staged.length] at stands
  obtain ⟨_, stands, others⟩ :=
    LstmWorkload.release_spec (owns job List.mem_cons_self built found) imports stands
  refine ⟨fun other member cell foundOther => ?_, apart.2.1, stands⟩
  have earlier := owns other (List.mem_cons_of_mem _ member) cell foundOther
  refine earlier.of_find? fun entry inside => ?_
  have stays : entry ∈ kept live :=
    List.mem_flatMap.mpr ⟨other, member, List.mem_flatMap.mpr
      ⟨cell, Option.mem_toList.mpr foundOther, inside⟩⟩
  refine others entry.2.tensor fun twin insideTwin clash => ?_
  exact apart.2.2 _ (List.mem_map_of_mem insideTwin) _ (List.mem_map_of_mem stays) clash.symm

end Accounts

end Accounts

/-- An accelerator at work: its memory, the workloads in use, and every cell that was built. -/
structure Workshop where
  device : Device := {}
  live : List Job := []
  built : List LstmWorkload := []

/-- What a caller may do. Jobs are named by their place among those in use; caller memory may change
at any time. -/
inductive Call where
  | create (descriptor : QueueDescriptor) (info : WorkloadInfo)
  | execute (job : Nat)
  | drop (job : Nat)
  | lend (host : HostMemory)

namespace Workshop

/-- One call. A build that finds no memory does not come back. -/
def serve (shop : Workshop) : Call → Option Workshop
  | .create descriptor info =>
    match Accelerator.create descriptor info shop.device with
    | (_, .error .outOfBounds) => none
    | (device, .error _) => some { shop with device }
    | (device, .ok workload) =>
      let job := Job.ofCreate descriptor info shop.device workload
      some { device, live := job :: shop.live, built := job.cell?.toList ++ shop.built }
  | .execute job =>
    match shop.live[job]? with
    | none => some shop
    | some job => some { shop with device := (job.workload.execute shop.device).1 }
  | .drop index =>
    match shop.live[index]? with
    | none => some shop
    | some job =>
      some { shop with
        device := job.workload.release shop.device
        live := shop.live.eraseIdx index }
  | .lend host => some { shop with device := { shop.device with host } }

/-- Calls one after the other. -/
def run (shop : Workshop) : List Call → Option Workshop
  | [] => some shop
  | call :: calls => (shop.serve call).bind fun next => next.run calls

/-- The uploads of all cells that were built. -/
def uploads (built : List LstmWorkload) : Nat := (built.map (·.retained.length)).sum

structure Sound (shop : Workshop) : Prop where
  jobs : ∀ job ∈ shop.live, job.Sound
  accounts : Accounts shop.live (uploads shop.built) shop.device.staging

variable {shop next : Workshop} {call : Call}

theorem sound_fresh : Sound {} where
  jobs := by simp
  accounts := ⟨by simp, List.nodup_nil, ⟨rfl, rfl, rfl⟩⟩

namespace Sound

/-- A build that succeeds. -/
theorem create {device : Device} {workload : Workload} {job : Job} (sound : shop.Sound)
    (created : Accelerator.create descriptor info shop.device = (device, .ok workload))
    (starts : job = Job.ofCreate descriptor info shop.device workload) :
    Sound { device, live := job :: shop.live, built := job.cell?.toList ++ shop.built } := by
  refine ⟨fun other member => ?_, ?_⟩
  · rcases List.mem_cons.mp member with rfl | member
    · exact starts ▸ Job.ofCreate_sound created
    · exact sound.jobs other member
  · by_cases lstm : ∃ cell params, descriptor.kind = .lstm cell params
    · obtain ⟨cell, params, kind⟩ := lstm
      obtain ⟨staging, built, bound, rfl, rfl⟩ := (create_lstm_eq_ok kind).mp created
      have found : job.cell? = some built := by rw [starts, Job.ofCreate, bound]; rfl
      have counted : uploads (job.cell?.toList ++ shop.built) =
          uploads shop.built + built.retained.length := by
        simp [uploads, found, Nat.add_comm]
      exact counted ▸ sound.accounts.create kind bound found
    · have single : ∀ cell params, descriptor.kind ≠ .lstm cell params := by simpa using lstm
      have nothing : job.cell? = none := starts ▸ LstmWorkload.create_of_not_lstm single
      rw [create_of_not_lstm single] at created
      obtain ⟨rfl, _⟩ := Prod.mk.inj created
      have counted : uploads (job.cell?.toList ++ shop.built) = uploads shop.built := by
        simp [nothing]
      exact counted ▸ sound.accounts.cons nothing

/-- A job that runs. -/
theorem execute {job : Job} (sound : shop.Sound) (member : job ∈ shop.live) :
    Sound { shop with device := (job.workload.execute shop.device).1 } where
  jobs := sound.jobs
  accounts := ((sound.jobs job member).spares shop.device).symm ▸ sound.accounts

/-- A job that ends. -/
theorem drop {job : Job} {live : List Job} (sound : shop.Sound)
    (rest : (job :: live).Perm shop.live) :
    Sound { shop with device := job.workload.release shop.device, live } := by
  have known := sound.jobs job (rest.mem_iff.mp List.mem_cons_self)
  have accounts := sound.accounts.perm rest.symm
  have others : ∀ other ∈ live, other.Sound := fun other member =>
    sound.jobs other (rest.mem_iff.mp (List.mem_cons_of_mem _ member))
  refine ⟨others, ?_⟩
  by_cases lstm : ∃ cell params, job.descriptor.kind = .lstm cell params
  · obtain ⟨cell, params, kind⟩ := lstm
    obtain ⟨built, found, same, _, _, imports⟩ := known.cell cell params kind
    rw [same]
    exact accounts.release found imports
  · obtain ⟨nothing, same⟩ := known.single (by simpa using lstm)
    rw [same]
    exact accounts.uncons nothing

/-- Every call that is answered. -/
theorem serve (sound : shop.Sound) (served : shop.serve call = some next) : next.Sound := by
  cases call with
  | create descriptor info =>
    unfold Workshop.serve at served
    dsimp only at served
    split at served
    · cases served
    · rename_i device error other refused
      cases served
      rcases create_restores refused with ⟨rfl, _⟩ | ⟨_, _, restored⟩
      · exact absurd rfl other
      · exact ⟨sound.jobs, sound.accounts.restored restored⟩
    · rename_i created
      cases served
      exact sound.create created rfl
  | execute index =>
    unfold Workshop.serve at served
    dsimp only at served
    split at served
    · cases served
      exact sound
    · rename_i found
      cases served
      exact sound.execute (List.mem_of_getElem? found)
  | drop index =>
    unfold Workshop.serve at served
    dsimp only at served
    split at served
    · cases served
      exact sound
    · rename_i found
      cases served
      obtain ⟨inside, rfl⟩ := List.getElem?_eq_some_iff.mp found
      exact sound.drop (List.getElem_cons_eraseIdx_perm inside)
  | lend host =>
    cases served
    exact ⟨sound.jobs, sound.accounts⟩

theorem run {calls : List Call} (sound : shop.Sound) (ran : shop.run calls = some next) :
    next.Sound := by
  induction calls generalizing shop with
  | nil =>
    cases ran
    exact sound
  | cons call calls ih =>
    obtain ⟨middle, served, later⟩ := Option.bind_eq_some_iff.mp ran
    exact ih (sound.serve served) later

end Sound

/-- A call goes unanswered when a build finds no memory. -/
theorem serve_eq_none (silent : shop.serve call = none) :
    ∃ descriptor info, call = .create descriptor info ∧
      ¬HasRoom shop.device.staging descriptor.kind := by
  cases call with
  | create descriptor info =>
    refine ⟨descriptor, info, rfl, ?_⟩
    unfold serve at silent
    dsimp only at silent
    split at silent
    · rename_i refused
      rcases create_restores refused with ⟨_, full⟩ | ⟨other, _⟩
      · exact full
      · exact absurd rfl other
    · cases silent
    · cases silent
  | execute index =>
    unfold serve at silent
    dsimp only at silent
    split at silent <;> cases silent
  | drop index =>
    unfold serve at silent
    dsimp only at silent
    split at silent <;> cases silent
  | lend host => cases silent

/-- A run ends early at the first call that goes unanswered. -/
theorem run_eq_none {calls : List Call} (silent : shop.run calls = none) :
    ∃ earlier call later last, calls = earlier ++ call :: later ∧ shop.run earlier = some last ∧
      last.serve call = none := by
  induction calls generalizing shop with
  | nil => cases silent
  | cons call calls ih =>
    cases served : shop.serve call with
    | none => exact ⟨[], call, calls, shop, rfl, rfl, served⟩
    | some next =>
      rw [run, served] at silent
      obtain ⟨earlier, other, later, last, rfl, ran, unanswered⟩ := ih silent
      refine ⟨call :: earlier, other, later, last, rfl, ?_, unanswered⟩
      rw [run, served]
      exact ran

/-- At every point of a run the accounts stand for what the live cells keep. A cell keeps a tensor
for each constant that its flags ask for, with the values of that constant. Neither a build that
fails nor an execution moves the accounts, and a run stops early only where memory ends. -/
theorem run_accounts (calls : List Call) :
    (run {} calls = none → ∃ earlier descriptor info later shop,
      calls = earlier ++ .create descriptor info :: later ∧ run {} earlier = some shop ∧
        ¬HasRoom shop.device.staging descriptor.kind) ∧
    ∀ shop, run {} calls = some shop →
      shop.device.staging.telemetry.liveTensors = (kept shop.live).length ∧
      shop.device.staging.telemetry.liveBytes =
        4 * ((kept shop.live).map fun entry =>
          (shop.device.staging.read entry.2.tensor).size).sum ∧
      shop.device.staging.telemetry.uploads = (shop.built.map (·.retained.length)).sum ∧
      ((kept shop.live).map (·.2.tensor.index)).Nodup ∧
      (∀ job ∈ shop.live,
        (∀ cell params, job.descriptor.kind = .lstm cell params → ∃ built,
          job.cell? = some built ∧ job.workload = built.toWorkload ∧
          built.retained = retainedRoles cell params ∧
          ∀ entry ∈ built.weights.staged, params.get? entry.1 = some entry.2.source ∧
            shop.device.staging.read entry.2.tensor = entry.2.source.data) ∧
        ((∀ cell params, job.descriptor.kind ≠ .lstm cell params) → job.cell? = none) ∧
        ∀ host, (job.workload.execute { shop.device with host }).1.staging =
          shop.device.staging) ∧
      ∀ descriptor info next error,
        Accelerator.create descriptor info shop.device = (next, .error error) →
        error = .outOfBounds ∧ ¬HasRoom shop.device.staging descriptor.kind ∨
          next.staging.telemetry.liveBytes = shop.device.staging.telemetry.liveBytes ∧
          next.staging.telemetry.liveTensors = shop.device.staging.telemetry.liveTensors ∧
          next.staging.telemetry.uploads = shop.device.staging.telemetry.uploads := by
  refine ⟨fun silent => ?_, fun shop ran => ?_⟩
  · obtain ⟨earlier, call, later, shop, rfl, ran, unanswered⟩ := run_eq_none silent
    obtain ⟨descriptor, info, rfl, full⟩ := serve_eq_none unanswered
    exact ⟨earlier, descriptor, info, later, shop, rfl, ran, full⟩
  · obtain ⟨jobs, accounts⟩ := sound_fresh.run ran
    have read : ∀ entry ∈ kept shop.live,
        shop.device.staging.read entry.2.tensor = entry.2.source.data := by
      intro entry member
      rw [Staging.read, accounts.held member]
      rfl
    refine ⟨accounts.stands.liveTensors, ?_, accounts.stands.uploads, accounts.apart, ?_, ?_⟩
    · rw [accounts.stands.liveBytes, ← List.sum_map_mul_left _ _ (4 : Nat)]
      refine congrArg List.sum (List.map_congr_left fun entry member => ?_)
      rw [read entry member, entry.2.source.size_eq]
      rfl
    · intro job member
      refine ⟨fun cell params kind => ?_, fun single => ((jobs job member).single single).1,
        fun host => (jobs job member).spares _⟩
      obtain ⟨built, found, same, retained, sources, _⟩ := (jobs job member).cell cell params kind
      refine ⟨built, found, same, retained, fun entry inside => ⟨sources entry inside, ?_⟩⟩
      exact read entry (List.mem_flatMap.mpr ⟨job, member, List.mem_flatMap.mpr
        ⟨built, Option.mem_toList.mpr found, inside⟩⟩)
    · intro descriptor info next error refused
      rcases create_restores refused with shortage | ⟨_, _, restored⟩
      · exact .inl shortage
      · obtain ⟨bytes, tensors, uploads⟩ := restored.stands ⟨rfl, rfl, rfl⟩
        exact .inr ⟨bytes, tensors, uploads⟩

/-- One build that goes through: a cell with a projection and with two of its three peepholes keeps
fifteen tensors. -/
theorem peepedCell_counted : ∃ shop,
    run {} [.create LstmWorkload.peepedDescriptor LstmWorkload.peepedInfo] = some shop ∧
      shop.device.staging.telemetry.liveTensors = 15 ∧
      shop.device.staging.telemetry.uploads = 15 := by
  obtain ⟨staging, built, created⟩ := exists_eq_ok _ LstmWorkload.peepedCell_created
  let job := Job.ofCreate LstmWorkload.peepedDescriptor LstmWorkload.peepedInfo {}
    built.toWorkload
  have started : create LstmWorkload.peepedDescriptor LstmWorkload.peepedInfo {} =
      ({ staging }, .ok built.toWorkload) :=
    (create_lstm_eq_ok rfl).mpr ⟨staging, built, created, rfl, rfl⟩
  have found : job.cell? = some built := by
    dsimp only [job, Job.ofCreate]
    rw [created]
    rfl
  have ran : run {} [.create LstmWorkload.peepedDescriptor LstmWorkload.peepedInfo] =
      some { device := { staging }, live := [job], built := [built] } := by
    simp [run, serve, started, found, job]
  obtain ⟨_, known⟩ := run_accounts [.create LstmWorkload.peepedDescriptor LstmWorkload.peepedInfo]
  obtain ⟨tensors, _, uploads, _, jobs, _⟩ := known _ ran
  obtain ⟨other, same, _, retained, _⟩ := (jobs job List.mem_cons_self).1 LstmWorkload.peepedCell
    LstmWorkload.peepedParams rfl
  obtain rfl := Option.some.inj (found.symm.trans same)
  have count : built.retained.length = 15 := by
    rw [retained]
    decide
  refine ⟨_, ran, tensors.trans ?_, uploads.trans ?_⟩
  · rw [← count]
    simp [kept, Job.kept, found, LstmWorkload.retained, LstmWeights.roles]
  · simp [count]

end Workshop

end NeuralGraph.Accelerator
