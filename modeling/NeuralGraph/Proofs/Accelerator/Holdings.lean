import Mathlib.Algebra.BigOperators.Ring.Finset
import Mathlib.Order.Bounds.Basic
import NeuralGraph.Proofs.Accelerator.Operand
import NeuralGraph.Proofs.Memory.References

/-! A program that holds operands of one accelerator. It allocates tensors, imports caller memory,
copies and drops operands and writes through them in any order. The accounts are right at every
point unless an allocation was booked for a tensor that never came to be. -/

namespace NeuralGraph.Accelerator

namespace Operand

/-- The staged tensor that an operand refers to. -/
def tensor? : Operand → Option StagedRef
  | imported _ => none
  | staged tensor => some tensor

/-- The caller memory that an operand uses. -/
def handle? : Operand → Option Handle
  | imported handle => some handle
  | staged _ => none

/-- Whether two operands refer to one tensor or to one buffer. -/
def aliases : Operand → Operand → Bool
  | imported first, imported second => first.buffer == second.buffer
  | staged first, staged second => first.index == second.index
  | _, _ => false

variable {device next : Device} {tensor : StagedRef} {data : Array Float32}

theorem write_staged_eq_ok : (staged tensor).write device data = .ok next ↔
    ∃ staging, device.staging.write tensor data = .ok staging ∧
      next = { device with staging } := by
  simp only [write]
  cases stored : device.staging.write tensor data with
  | error fault => simp [ofStaging, bind, Except.bind]
  | ok staging => simp [ofStaging, bind, Except.bind, pure, Except.pure, eq_comm]

end Operand

/-- The memory of an accelerator, the handles that callers have made and the operands in use. -/
structure Holdings where
  device : Device := {}
  handles : List Handle := []
  operands : List Operand := []

namespace Holdings

/-- What a program does; handles and operands are named by their place. -/
inductive Call where
  | provide (source : TensorSource)
  | importHandle (position : Nat)
  | allocate (shape : Shape)
  | clone (position : Nat)
  | drop (position : Nat)
  | write (position : Nat) (data : Array Float32)
  | upload (position : Nat) (data : Array Float32)

/-- How a call ends; a call that names nothing is not answered. -/
abbrev Outcome := Option (Except Fault Unit)

def accounts (holdings : Holdings) : Telemetry := holdings.device.staging.telemetry

def withStaging (holdings : Holdings) (staging : Staging) : Holdings :=
  { holdings with device := { holdings.device with staging } }

def hold (holdings : Holdings) (operand : Operand) : Holdings :=
  { holdings with operands := operand :: holdings.operands }

/-- Goes on with what a step leaves; a step that fails leaves nothing behind. -/
def settle (holdings : Holdings) (step : Except Fault Holdings) : Holdings × Outcome :=
  match step with
  | .ok next => (next, some (.ok ()))
  | .error fault => (holdings, some (.error fault))

def serve (holdings : Holdings) : Call → Holdings × Outcome
  | .provide source =>
    match holdings.device.host.provide source with
    | .error _ => (holdings, none)
    | .ok (handle, host) =>
      ({ holdings with
          device := { holdings.device with host }, handles := handle :: holdings.handles },
        some (.ok ()))
  | .importHandle position =>
    match holdings.handles[position]? with
    | none => (holdings, none)
    | some handle => holdings.settle ((Operand.ofHandle handle).map holdings.hold)
  | .allocate shape =>
    match holdings.device.staging.allocate shape with
    | (booked, .error fault) => (holdings.withStaging booked, some (.error (.staging fault)))
    | (allocated, .ok tensor) =>
      ((holdings.withStaging allocated).hold (.staged tensor), some (.ok ()))
  | .clone position =>
    match holdings.operands[position]? with
    | none => (holdings, none)
    | some operand =>
      ((holdings.withStaging (operand.retain holdings.device.staging)).hold operand, some (.ok ()))
  | .drop position =>
    match holdings.operands[position]? with
    | none => (holdings, none)
    | some operand =>
      ({ holdings.withStaging (operand.release holdings.device.staging) with
          operands := holdings.operands.eraseIdx position }, some (.ok ()))
  | .write position data =>
    match holdings.operands[position]? with
    | none => (holdings, none)
    | some operand =>
      holdings.settle ((operand.write holdings.device data).map fun device =>
        { holdings with device })
  | .upload position data =>
    match holdings.operands[position]? with
    | some (.staged tensor) =>
      holdings.settle ((ofStaging (holdings.device.staging.upload tensor data)).map
        holdings.withStaging)
    | _ => (holdings, none)

def after (holdings : Holdings) (calls : List Call) : Holdings :=
  calls.foldl (fun holdings call => (holdings.serve call).1) holdings

/-- The uploads that one call adds. -/
def uploaded (call : Call) (outcome : Outcome) : Nat :=
  match call, outcome with
  | .upload .., some (.ok ()) => 1
  | _, _ => 0

/-- The uploads that succeed. -/
def uploads (holdings : Holdings) : List Call → Nat
  | [] => 0
  | call :: calls =>
    let (next, outcome) := holdings.serve call
    next.uploads calls + uploaded call outcome

/-- The references to staged tensors. -/
def tensors (holdings : Holdings) : List StagedRef := holdings.operands.filterMap Operand.tensor?

/-- The handles of host memory: those in use, and those that can be imported. -/
def hosted (holdings : Holdings) : List Handle :=
  holdings.operands.filterMap Operand.handle? ++ holdings.handles.filter (!·.isForeign)

/-- The bytes that are live at the points of a run. -/
def levels (calls : List Call) : Set Nat :=
  {bytes | ∃ earlier, earlier <+: calls ∧ (after {} earlier).accounts.liveBytes = bytes}

/-- The accounts after some calls, from the start on. Live tensors are those that an operand
refers to, and the peak is the most bytes that were live after any of the calls. -/
structure Exact (calls : List Call) : Prop where
  liveTensors : (after {} calls).accounts.liveTensors = (after {} calls).tensors.toFinset.card
  liveBytes : (after {} calls).accounts.liveBytes =
    4 * ∑ tensor ∈ (after {} calls).tensors.toFinset, tensor.shape.elementCount
  peakBytes : IsGreatest (levels calls) (after {} calls).accounts.peakBytes
  uploads : (after {} calls).accounts.uploads = uploads {} calls

variable {holdings : Holdings} {calls earlier : List Call} {call : Call} {position : Nat}
  {operand : Operand} {data : Array Float32}

theorem after_concat (calls : List Call) (call : Call) :
    after holdings (calls ++ [call]) = ((after holdings calls).serve call).1 := by
  simp [after]

theorem uploads_concat (holdings : Holdings) (calls : List Call) (call : Call) :
    uploads holdings (calls ++ [call]) = uploads holdings calls +
      uploaded call ((after holdings calls).serve call).2 := by
  induction calls generalizing holdings with
  | nil => simp [uploads, after]
  | cons first calls ih =>
    simp only [List.cons_append, uploads, ih, after, List.foldl_cons]
    omega

/-- One step of staging memory and of the references into it, with the uploads that it counts. -/
inductive Moves (before : Staging) (tensors : List StagedRef) :
    Staging → List StagedRef → Nat → Prop where
  | stay {others : List StagedRef} (same : tensors.Perm others) :
      Moves before tensors before others 0
  | allocate {shape : Shape} {tensor : StagedRef} {after : Staging}
      (allocated : before.allocate shape = (after, .ok tensor)) :
      Moves before tensors after (tensor :: tensors) 0
  | retain {tensor : StagedRef} (member : tensor ∈ tensors) :
      Moves before tensors (before.retain tensor) (tensor :: tensors) 0
  | release {tensor : StagedRef} {others : List StagedRef}
      (rest : tensors.Perm (tensor :: others)) :
      Moves before tensors (before.release tensor) others 0
  | write {tensor : StagedRef} {data : Array Float32} {after : Staging}
      (stored : before.write tensor data = .ok after) : Moves before tensors after tensors 0
  | upload {tensor : StagedRef} {data : Array Float32} {after : Staging}
      (stored : before.upload tensor data = .ok after) : Moves before tensors after tensors 1

namespace Moves

variable {before next : Staging} {tensors others : List StagedRef} {more uploads : Nat}

theorem held (moves : Moves before tensors next others more) (held : before.Held tensors) :
    next.Held others := by
  cases moves with
  | stay same => exact held.perm same
  | allocate allocated => exact held.allocate allocated
  | retain member => exact held.retain member
  | release rest => exact (held.perm rest).release
  | write stored => exact held.write stored
  | upload stored =>
    obtain ⟨written, wrote, rfl⟩ := Staging.upload_eq_write.mp stored
    exact (held.write wrote).rebooked _

theorem booked (moves : Moves before tensors next others more) (held : before.Held tensors)
    (booked : before.Booked tensors uploads) : next.Booked others (uploads + more) := by
  cases moves with
  | stay same => exact booked.perm same
  | allocate allocated => exact booked.allocate held allocated
  | retain member => exact booked.retain member
  | release rest => exact (booked.perm rest).release (held.perm rest)
  | write stored =>
    rw [Staging.Booked, Staging.telemetry_write stored]
    exact booked
  | upload stored => exact booked.upload stored

/-- A step takes the peak to the bytes that are live after it, if these are more. -/
theorem peakBytes (moves : Moves before tensors next others more) (held : before.Held tensors)
    (booked : before.Booked tensors uploads)
    (below : before.telemetry.liveBytes ≤ before.telemetry.peakBytes) :
    next.telemetry.peakBytes = max before.telemetry.peakBytes next.telemetry.liveBytes := by
  cases moves with
  | stay same => exact (Nat.max_eq_left below).symm
  | allocate allocated => exact Staging.peakBytes_allocate allocated
  | retain member =>
    rw [Staging.telemetry_retain]
    exact (Nat.max_eq_left below).symm
  | @release tensor others rest =>
    have less : (before.release tensor).telemetry.liveBytes ≤ before.telemetry.liveBytes := by
      have booked := booked.perm rest
      rw [booked.liveBytes, (booked.release (held.perm rest)).liveBytes, List.toFinset_cons]
      exact Finset.sum_le_sum_of_subset (Finset.subset_insert tensor _)
    rw [Staging.peakBytes_release]
    omega
  | write stored =>
    rw [Staging.telemetry_write stored]
    exact (Nat.max_eq_left below).symm
  | upload stored =>
    rw [Staging.telemetry_upload stored]
    exact (Nat.max_eq_left below).symm

end Moves

theorem tensor_mem_tensors (found : holdings.operands[position]? = some operand) :
    ∀ tensor, operand.tensor? = some tensor → tensor ∈ holdings.tensors := fun _ refers =>
  List.mem_filterMap.mpr ⟨operand, List.mem_of_getElem? found, refers⟩

/-- The operands are the one at a place and the others. -/
theorem perm_eraseIdx (found : holdings.operands[position]? = some operand) :
    holdings.operands.Perm (operand :: holdings.operands.eraseIdx position) := by
  obtain ⟨inside, rfl⟩ := List.getElem?_eq_some_iff.mp found
  exact (List.getElem_cons_eraseIdx_perm inside).symm

/-- Every call takes one step, unless it books a tensor that never comes to be. -/
theorem serve_moves (holdings : Holdings) (call : Call)
    (sound : ∀ shape, call = .allocate shape → ¬holdings.device.staging.Strays shape) :
    Moves holdings.device.staging holdings.tensors (holdings.serve call).1.device.staging
      (holdings.serve call).1.tensors (uploaded call (holdings.serve call).2) := by
  cases call with
  | provide source =>
    simp only [serve]
    split <;> exact .stay (.refl _)
  | importHandle position =>
    simp only [serve]
    split
    · exact .stay (.refl _)
    · rename_i handle found
      unfold Operand.ofHandle
      split <;> exact .stay (.refl _)
  | allocate shape =>
    rcases Staging.allocate_of_not_strays (sound shape rfl) with
      ⟨tensor, after, allocated⟩ | ⟨fault, refused⟩
    · simp only [serve, allocated]
      exact .allocate allocated
    · simp only [serve, refused]
      exact .stay (.refl _)
  | clone position =>
    simp only [serve]
    split
    · exact .stay (.refl _)
    · rename_i operand found
      cases operand with
      | imported handle => exact .stay (.refl _)
      | staged tensor => exact .retain (tensor_mem_tensors found tensor rfl)
  | drop position =>
    simp only [serve]
    split
    · exact .stay (.refl _)
    · rename_i operand found
      have rest := (perm_eraseIdx found).filterMap Operand.tensor?
      cases operand with
      | imported handle => exact .stay rest
      | staged tensor => exact .release rest
  | write position data =>
    simp only [serve]
    split
    · exact .stay (.refl _)
    · rename_i operand found
      cases operand with
      | imported handle =>
        cases stored : (Operand.imported handle).write holdings.device data with
        | error fault => exact .stay (.refl _)
        | ok device =>
          have same : device.staging = holdings.device.staging :=
            Operand.staging_write_imported stored
          change Moves _ _ device.staging _ _
          rw [same]
          exact .stay (.refl _)
      | staged tensor =>
        cases stored : holdings.device.staging.write tensor data with
        | error fault =>
          simp only [Operand.write, stored, ofStaging]
          exact .stay (.refl _)
        | ok staging =>
          simp only [Operand.write, stored, ofStaging]
          exact .write stored
  | upload position data =>
    simp only [serve]
    split
    · rename_i tensor found
      cases stored : holdings.device.staging.upload tensor data with
      | error fault => exact .stay (.refl _)
      | ok staging => exact .upload stored
    · exact .stay (.refl _)

/-- What is in use is there: live tensors that count their references, and full buffers. -/
structure Sound (holdings : Holdings) : Prop where
  held : holdings.device.staging.Held holdings.tensors
  full : holdings.device.host.Full holdings.hosted

/-- Memory that is provided is full, and what was there stays. -/
theorem full_provide {host next : HostMemory} {source : TensorSource} {handle : Handle}
    {handles : List Handle} (full : host.Full handles)
    (provided : host.provide source = .ok (handle, next)) :
    next.Full handles ∧ (handle.isForeign = false → next.Full [handle]) := by
  rcases HostMemory.provide_eq_ok provided with ⟨foreign, rfl⟩ | ⟨values, size, storable, buffer, rfl⟩
  · exact ⟨full, fun addressed => absurd foreign (by simp [addressed])⟩
  · refine ⟨⟨fun older member => ?_, full.storable⟩, fun _ => ⟨?_, ?_⟩⟩
    · obtain ⟨data, read, size⟩ := full.held older member
      exact ⟨data, HostMemory.read?_push read, size⟩
    · exact List.forall_mem_singleton.mpr ⟨values, by simp [HostMemory.read?, buffer], size⟩
    · exact List.forall_mem_singleton.mpr storable

theorem mem_hosted {handle : Handle} : handle ∈ holdings.hosted ↔
    .imported handle ∈ holdings.operands ∨
      (handle ∈ holdings.handles ∧ handle.isForeign = false) := by
  rw [hosted, List.mem_append, List.mem_filter, List.mem_filterMap]
  refine or_congr ⟨fun ⟨operand, member, uses⟩ => ?_, fun member => ⟨_, member, rfl⟩⟩ (by simp)
  cases operand with
  | imported other =>
    cases uses
    exact member
  | staged tensor => cases uses

/-- Holding an operand on known memory brings no handle. -/
theorem hosted_hold (known : ∀ handle, operand = .imported handle → handle ∈ holdings.hosted) :
    (holdings.hold operand).hosted ⊆ holdings.hosted := by
  intro other member
  rcases mem_hosted.mp member with used | made
  · rcases List.mem_cons.mp used with same | used
    · exact known other same.symm
    · exact mem_hosted.mpr (.inl used)
  · exact mem_hosted.mpr (.inr made)

theorem full_serve (full : holdings.device.host.Full holdings.hosted) (call : Call) :
    (holdings.serve call).1.device.host.Full (holdings.serve call).1.hosted := by
  cases call with
  | provide source =>
    simp only [serve]
    split
    · exact full
    · rename_i handle host provided
      obtain ⟨older, own⟩ := full_provide full provided
      have before := HostMemory.full_iff.mp older
      refine HostMemory.full_iff.mpr fun other member => ?_
      rcases mem_hosted.mp member with used | ⟨made, addressed⟩
      · exact before other (mem_hosted.mpr (.inl used))
      · rcases List.mem_cons.mp made with rfl | made
        · exact own addressed
        · exact before other (mem_hosted.mpr (.inr ⟨made, addressed⟩))
  | importHandle position =>
    simp only [serve]
    split
    · exact full
    · rename_i handle found
      cases imported : Operand.ofHandle handle with
      | error fault => exact full
      | ok operand =>
        obtain ⟨addressed, rfl⟩ := ofHandle_eq_ok.mp imported
        refine full.of_subset (hosted_hold fun other same => ?_)
        cases same
        exact mem_hosted.mpr (.inr ⟨List.mem_of_getElem? found, addressed⟩)
  | allocate shape =>
    simp only [serve]
    split
    · exact full
    · exact full.of_subset (hosted_hold fun _ same => nomatch same)
  | clone position =>
    simp only [serve]
    split
    · exact full
    · rename_i operand found
      refine full.of_subset (hosted_hold fun other same => ?_)
      exact mem_hosted.mpr (.inl (same ▸ List.mem_of_getElem? found))
  | drop position =>
    simp only [serve]
    split
    · exact full
    · rename_i operand found
      refine full.of_subset fun other member => ?_
      rcases mem_hosted.mp member with used | made
      · exact mem_hosted.mpr (.inl (List.mem_of_mem_eraseIdx used))
      · exact mem_hosted.mpr (.inr made)
  | write position data =>
    simp only [serve]
    split
    · exact full
    · rename_i operand found
      cases stored : operand.write holdings.device data with
      | error fault => exact full
      | ok device =>
        cases operand with
        | imported handle =>
          obtain ⟨fits, rfl⟩ := Operand.write_imported_eq_ok.mp stored
          exact full.of_sameSizes (HostMemory.sameSizes_replace fits)
        | staged tensor =>
          obtain ⟨staging, _, rfl⟩ := Operand.write_staged_eq_ok.mp stored
          exact full
  | upload position data =>
    simp only [serve]
    split
    · rename_i tensor found
      cases ofStaging (holdings.device.staging.upload tensor data) with
      | error fault => exact full
      | ok staging => exact full
    · exact full

theorem Sound.serve (sound : holdings.Sound) (call : Call) : (holdings.serve call).1.Sound where
  held := by
    by_cases strays : ∃ shape, call = .allocate shape ∧ holdings.device.staging.Strays shape
    · obtain ⟨shape, rfl, strays⟩ := strays
      simp only [Holdings.serve, Staging.allocate_of_strays strays]
      exact sound.held.rebooked _
    · have steady : ∀ shape, call = .allocate shape → ¬holdings.device.staging.Strays shape :=
        fun shape same stray => strays ⟨shape, same, stray⟩
      exact (holdings.serve_moves call steady).held sound.held
  full := full_serve sound.full call

theorem sound_after (calls : List Call) : Sound (after {} calls) := by
  induction calls using List.reverseRecOn with
  | nil =>
    exact ⟨fun _ member => (nomatch member),
      ⟨fun _ member => (nomatch member), fun _ member => (nomatch member)⟩⟩
  | append_singleton calls call ih =>
    rw [after_concat]
    exact ih.serve call

/-- No allocation of some calls is booked for a tensor that never comes to be. -/
def Steady (calls : List Call) : Prop :=
  ∀ earlier shape, earlier ++ [.allocate shape] <+: calls →
    ¬(after {} earlier).device.staging.Strays shape

theorem Steady.of_prefix (steady : Steady calls) (before : earlier <+: calls) : Steady earlier :=
  fun first shape inside => steady first shape (inside.trans before)

theorem levels_concat (calls : List Call) (call : Call) : levels (calls ++ [call]) =
    insert (after {} (calls ++ [call])).accounts.liveBytes (levels calls) := by
  ext bytes
  simp only [levels, List.prefix_concat_iff, Set.mem_ofPred_eq, Set.mem_insert_iff]
  constructor
  · rintro ⟨earlier, rfl | before, rfl⟩
    · exact .inl rfl
    · exact .inr ⟨earlier, before, rfl⟩
  · rintro (rfl | ⟨earlier, before, rfl⟩)
    · exact ⟨_, .inl rfl, rfl⟩
    · exact ⟨earlier, .inr before, rfl⟩

theorem booked_of_steady (steady : Steady calls) :
    (after {} calls).device.staging.Booked (after {} calls).tensors (uploads {} calls) ∧
      IsGreatest (levels calls) (after {} calls).accounts.peakBytes := by
  induction calls using List.reverseRecOn with
  | nil =>
    refine ⟨⟨rfl, rfl, rfl⟩, ⟨[], List.prefix_refl _, rfl⟩, ?_⟩
    rintro bytes ⟨earlier, before, rfl⟩
    obtain rfl := List.prefix_nil.mp before
    exact Nat.le_refl _
  | append_singleton calls call ih =>
    obtain ⟨booked, peak⟩ := ih (steady.of_prefix (List.prefix_append _ _))
    have held := (sound_after calls).held
    have moves := (after {} calls).serve_moves call fun shape same =>
      steady calls shape (same ▸ List.prefix_refl _)
    have below := peak.2 ⟨calls, List.prefix_refl _, rfl⟩
    have raised := moves.peakBytes held booked below
    rw [levels_concat, after_concat, uploads_concat]
    refine ⟨moves.booked held booked, ?_⟩
    rw [accounts, raised, Nat.max_comm]
    exact peak.insert _

/-- The accounts are right at every point of a run exactly when no allocation was booked for a
tensor that never came to be. -/
theorem exact_iff_steady (calls : List Call) :
    (∀ earlier, earlier <+: calls → Exact earlier) ↔ Steady calls := by
  constructor
  · intro exact_always earlier shape inside strays
    have before := exact_always earlier ((List.prefix_append _ _).trans inside)
    have later := exact_always _ inside
    have level := later.liveBytes
    -- the booking moves the account, but no operand refers to a new tensor
    rw [after_concat, serve, Staging.allocate_of_strays strays] at level
    exact Staging.liveBytes_charge_ne strays (level.trans before.liveBytes.symm)
  · intro steady earlier inside
    obtain ⟨booked, peak⟩ := booked_of_steady (steady.of_prefix inside)
    refine ⟨booked.liveTensors, ?_, peak, booked.uploads⟩
    rw [Finset.mul_sum]
    exact booked.liveBytes

/-- Every operand in use can be read, and has a value for each element of its shape. -/
theorem Sound.exists_read (sound : holdings.Sound) (member : operand ∈ holdings.operands) :
    ∃ values, operand.read holdings.device = .ok values ∧
      values.size = operand.shape.elementCount := by
  cases operand with
  | imported handle =>
    obtain ⟨values, read, size⟩ := sound.full.held handle (mem_hosted.mpr (.inl member))
    exact ⟨values, Operand.read_imported_eq_ok.mpr read, size⟩
  | staged tensor =>
    exact ⟨_, rfl, sound.held.size_read (List.mem_filterMap.mpr ⟨_, member, rfl⟩)⟩

/-- What is left when an operand has taken new values: everything that refers to the same memory
shows them, and nothing else has changed. -/
structure Overwritten (before next : Holdings) (target : Operand) (data : Array Float32) :
    Prop where
  operands : next.operands = before.operands
  handles : next.handles = before.handles
  shows : ∀ operand, target.aliases operand = true → operand.read next.device = .ok data
  spares : ∀ operand, target.aliases operand = false →
    operand.read next.device = operand.read before.device

theorem overwritten_imported {handle : Handle} {host : HostMemory}
    (fits : holdings.device.host.Fits handle data)
    (stored : host = holdings.device.host.replace handle data) :
    holdings.Overwritten { holdings with device := { holdings.device with host } }
      (.imported handle) data where
  operands := rfl
  handles := rfl
  shows operand same := by
    cases operand with
    | imported other =>
      have buffer : other.buffer = handle.buffer := (beq_iff_eq.mp same).symm
      simp [Operand.read, stored, HostMemory.read?_replace fits, buffer]
    | staged tensor => cases same
  spares operand apart := by
    cases operand with
    | imported other =>
      have buffer : ¬other.buffer = handle.buffer := fun same => by
        simp [Operand.aliases, same] at apart
      simp [Operand.read, stored, HostMemory.read?_replace fits, buffer]
    | staged tensor => rfl

theorem overwritten_staged {tensor : StagedRef} {staging : Staging}
    (stored : ∀ other, staging.read other =
      if other.index = tensor.index then data else holdings.device.staging.read other) :
    holdings.Overwritten (holdings.withStaging staging) (.staged tensor) data where
  operands := rfl
  handles := rfl
  shows operand same := by
    cases operand with
    | imported handle => cases same
    | staged other =>
      have index : other.index = tensor.index := (beq_iff_eq.mp same).symm
      simp [Operand.read, withStaging, stored, index]
  spares operand apart := by
    cases operand with
    | imported handle => rfl
    | staged other =>
      have index : ¬other.index = tensor.index := fun same => by
        simp [Operand.aliases, same] at apart
      simp [Operand.read, withStaging, stored, index]

/-- Why values of another number are refused. -/
def mismatch (operand : Operand) (data : Array Float32) : Fault :=
  .staging (.lengthMismatch operand.shape operand.shape.elementCount data.size)

/-- How a program is answered. What is refused leaves everything as it was, and what is written
shows wherever its memory is referred to. -/
structure Answers (holdings : Holdings) : Prop where
  empty : ∀ shape : Shape, shape.elementCount = 0 → holdings.serve (.allocate shape) =
    (holdings, some (.error (.staging
      (if shape.isCountable then .zeroLength else .tooLarge shape))))
  unfit_write : ∀ position operand, holdings.operands[position]? = some operand → ∀ data,
    data.size ≠ operand.shape.elementCount →
      holdings.serve (.write position data) = (holdings, some (.error (mismatch operand data)))
  unfit_upload : ∀ position tensor, holdings.operands[position]? = some (.staged tensor) →
    ∀ data, data.size ≠ tensor.shape.elementCount → holdings.serve (.upload position data) =
      (holdings, some (.error (mismatch (.staged tensor) data)))
  write : ∀ position operand, holdings.operands[position]? = some operand → ∀ data,
    data.size = operand.shape.elementCount → ∃ next,
      holdings.serve (.write position data) = (next, some (.ok ())) ∧
      holdings.Overwritten next operand data ∧ next.accounts = holdings.accounts
  upload : ∀ position tensor, holdings.operands[position]? = some (.staged tensor) →
    ∀ data, data.size = tensor.shape.elementCount → ∃ next,
      holdings.serve (.upload position data) = (next, some (.ok ())) ∧
      holdings.Overwritten next (.staged tensor) data ∧
      next.accounts = holdings.accounts.countUpload

/-- Memory in use takes no other number of values than it has. -/
theorem write_eq_mismatch {values : Array Float32}
    (read : operand.read holdings.device = .ok values)
    (size : values.size = operand.shape.elementCount)
    (unfit : data.size ≠ operand.shape.elementCount) :
    operand.write holdings.device data = .error (mismatch operand data) := by
  cases operand with
  | imported handle =>
    have held := Operand.read_imported_eq_ok.mp read
    obtain ⟨_, buffer, _⟩ := Option.bind_eq_some_iff.mp held
    have addressed : handle.isForeign = false := by simp [Handle.isForeign, buffer]
    have refused : data.size ≠ values.size := size ▸ unfit
    simp only [Operand.write, addressed, HostMemory.copyFrom, held, if_neg refused]
    rfl
  | staged tensor =>
    obtain rfl : holdings.device.staging.read tensor = values := Except.ok.inj read
    simp only [Operand.write, Staging.write, size, if_neg unfit, ofStaging]
    rfl

theorem Sound.answers (sound : holdings.Sound) : holdings.Answers where
  empty shape empty := by
    simp only [Holdings.serve, Staging.allocate_of_empty empty]
    rfl
  unfit_write position operand found data unfit := by
    obtain ⟨values, read, size⟩ := sound.exists_read (List.mem_of_getElem? found)
    simp only [Holdings.serve, found, write_eq_mismatch read size unfit]
    rfl
  unfit_upload position tensor found data unfit := by
    have size := sound.held.size_read (tensor_mem_tensors found tensor rfl)
    simp only [Holdings.serve, found, Staging.upload, Staging.write, size, if_neg unfit]
    rfl
  write position operand found data fits := by
    obtain ⟨values, read, size⟩ := sound.exists_read (List.mem_of_getElem? found)
    obtain ⟨device, stored, _⟩ := Operand.write_total read (fits.trans size.symm)
    refine ⟨{ holdings with device }, by simp only [Holdings.serve, found, stored]; rfl, ?_⟩
    cases operand with
    | imported handle =>
      obtain ⟨room, rfl⟩ := Operand.write_imported_eq_ok.mp stored
      exact ⟨overwritten_imported room rfl, rfl⟩
    | staged tensor =>
      obtain ⟨staging, wrote, rfl⟩ := Operand.write_staged_eq_ok.mp stored
      exact ⟨overwritten_staged (Staging.read_write wrote), Staging.telemetry_write wrote⟩
  upload position tensor found data fits := by
    have size := sound.held.size_read (tensor_mem_tensors found tensor rfl)
    obtain ⟨staging, stored, _⟩ := Staging.upload_total (fits.trans size.symm)
    refine ⟨holdings.withStaging staging, ?_, ?_, Staging.telemetry_upload stored⟩
    · simp only [Holdings.serve, found, stored]
      rfl
    · obtain ⟨written, wrote, rfl⟩ := Staging.upload_eq_write.mp stored
      exact overwritten_staged fun other => Staging.read_write wrote other

/-- Staging memory is accounted for exactly, at every point of a run, as long as no allocation is
booked for a tensor that never comes to be; and one that is puts the accounts wrong. Apart from
the accounts every point is as it should be: what is refused leaves everything as it was, and what
is written shows through every reference to its memory and through no other. -/
theorem run_accounted_iff (calls : List Call) :
    ((∀ earlier, earlier <+: calls → Exact earlier) ↔
      ∀ earlier shape, earlier ++ [.allocate shape] <+: calls →
        ¬(after {} earlier).device.staging.Strays shape) ∧
    Answers (after {} calls) :=
  ⟨exact_iff_steady calls, (sound_after calls).answers⟩

/-- A tensor of more bytes than any buffer has: it is booked, and stays so. -/
def vast : Shape := ⟨[2147483648, 1073741824]⟩

theorem vast_stays_booked : (after {} [.allocate vast]).tensors = [] ∧
    (after {} [.allocate vast]).accounts =
      { liveBytes := 2 ^ 63, peakBytes := 2 ^ 63, liveTensors := 1 } ∧
    ¬∀ earlier, earlier <+: [.allocate vast] → Exact earlier := by
  refine ⟨by decide, by decide, fun always => ?_⟩
  have steady := (run_accounted_iff [.allocate vast]).1.mp always [] vast (List.prefix_refl _)
  exact steady ⟨by decide, by decide, by decide, by decide⟩

end Holdings

end NeuralGraph.Accelerator
