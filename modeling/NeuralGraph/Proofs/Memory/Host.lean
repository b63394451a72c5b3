import Mathlib.Data.List.Nodup
import NeuralGraph.Memory.Host
import NeuralGraph.Proofs.Outcome
import NeuralGraph.Proofs.Tensor.Shape

/-! Reads after writes. A write changes what is behind one buffer and keeps every size, so
whether results fit can be told before any of them is written. -/

namespace NeuralGraph.HostMemory

variable {memory after : HostMemory} {handle : Handle} {data : Array Float32}

/-- Two memories hold buffers of the same sizes under the same handles. -/
def SameSizes (first second : HostMemory) : Prop :=
  ∀ handle, (first.read? handle).map (·.size) = (second.read? handle).map (·.size)

theorem SameSizes.refl (memory : HostMemory) : SameSizes memory memory := fun _ => rfl

theorem SameSizes.trans {first second third : HostMemory} (left : SameSizes first second)
    (right : SameSizes second third) : SameSizes first third :=
  fun handle => (left handle).trans (right handle)

theorem SameSizes.symm {first second : HostMemory} (same : SameSizes first second) :
    SameSizes second first := fun handle => (same handle).symm

/-- The handle names a buffer of the size of the given values. -/
def Fits (memory : HostMemory) (handle : Handle) (data : Array Float32) : Prop :=
  ∃ held, memory.read? handle = some held ∧ data.size = held.size

theorem Fits.of_sameSizes {other : HostMemory} (fits : memory.Fits handle data)
    (same : SameSizes other memory) : other.Fits handle data := by
  obtain ⟨held, found, size⟩ := fits
  have sizes := same handle
  rw [found] at sizes
  obtain ⟨now, nowFound, nowSize⟩ := Option.map_eq_some_iff.mp sizes
  exact ⟨now, nowFound, size.trans nowSize.symm⟩

/-- Every handle has a buffer with all of its values, which memory can hold; nothing else is handed
out for a tensor on the host. -/
structure Full (memory : HostMemory) (handles : List Handle) : Prop where
  held : ∀ handle ∈ handles, ∃ data,
    memory.read? handle = some data ∧ data.size = handle.info.elementCount
  storable : ∀ handle ∈ handles, handle.shape.isStorable = true

theorem Full.of_sameSizes {other : HostMemory} {handles : List Handle}
    (full : memory.Full handles) (same : SameSizes other memory) : other.Full handles := by
  refine ⟨fun handle member => ?_, full.storable⟩
  obtain ⟨data, read, size⟩ := full.held handle member
  have sizes := same handle
  rw [read] at sizes
  obtain ⟨now, nowRead, nowSize⟩ := Option.map_eq_some_iff.mp sizes
  exact ⟨now, nowRead, nowSize.trans size⟩

theorem Full.of_subset {handles fewer : List Handle} (full : memory.Full handles)
    (subset : fewer ⊆ handles) : memory.Full fewer where
  held handle member := full.held handle (subset member)
  storable handle member := full.storable handle (subset member)

theorem full_iff {handles : List Handle} :
    memory.Full handles ↔ ∀ handle ∈ handles, memory.Full [handle] := by
  constructor
  · exact fun full handle member =>
      full.of_subset (List.cons_subset.mpr ⟨member, List.nil_subset _⟩)
  · exact fun each =>
      { held := fun handle member => (each handle member).held handle List.mem_cons_self
        storable := fun handle member => (each handle member).storable handle List.mem_cons_self }

/-- The values behind a full matrix. -/
theorem size_of_matrix {rows columns : Extent} (size : data.size = handle.info.elementCount)
    (shape : handle.shape = ⟨[rows, columns]⟩) : data.size = rows.toNat * columns.toNat := by
  rw [size, TensorInfo.elementCount, ← Handle.shape, shape, Shape.elementCount_matrix]

theorem read?_of_buffer {first second : Handle} (same : first.buffer = second.buffer) :
    memory.read? first = memory.read? second := by
  simp [read?, same]

theorem read?_replace (fits : memory.Fits handle data) (other : Handle) :
    (memory.replace handle data).read? other =
      if other.buffer = handle.buffer then some data else memory.read? other := by
  obtain ⟨held, found, _⟩ := fits
  obtain ⟨index, buffer, slot⟩ := Option.bind_eq_some_iff.mp found
  obtain ⟨inside, _⟩ := Array.getElem?_eq_some_iff.mp slot
  simp only [replace, buffer, read?]
  cases otherBuffer : other.buffer with
  | none => simp
  | some position =>
    by_cases same : position = index
    · simp [same, inside]
    · simp [same, Ne.symm same]

theorem copyFrom_eq_ok :
    memory.copyFrom handle data = .ok after ↔
      memory.Fits handle data ∧ after = memory.replace handle data := by
  unfold copyFrom Fits
  cases found : memory.read? handle with
  | none => simp
  | some held =>
    by_cases size : data.size = held.size
    · simp [size, eq_comm]
    · simp [size]

theorem sameSizes_replace (fits : memory.Fits handle data) :
    SameSizes (memory.replace handle data) memory := by
  intro other
  rw [read?_replace fits]
  split
  · rename_i same
    obtain ⟨held, found, size⟩ := fits
    rw [read?_of_buffer same, found]
    simp [size]
  · rfl

/-- Writes to different buffers can change places. -/
theorem replace_comm {first second : Handle} (apart : first.buffer ≠ second.buffer)
    (memory : HostMemory) (one other : Array Float32) :
    (memory.replace first one).replace second other =
      (memory.replace second other).replace first one := by
  unfold replace
  cases firstBuffer : first.buffer with
  | none => rfl
  | some index =>
    cases secondBuffer : second.buffer with
    | none => rfl
    | some position =>
      have different : index ≠ position := fun same =>
        apart (firstBuffer.trans (same ▸ secondBuffer.symm))
      simp only [Array.setIfInBounds_comm _ _ different]

/-- Memory after several writes. -/
def replaceEach (memory : HostMemory) (entries : List (Handle × Array Float32)) : HostMemory :=
  entries.foldl (fun memory entry => memory.replace entry.1 entry.2) memory

/-- What is behind a handle stays there when memory grows. -/
theorem read?_push {fresh : Array Float32} (found : memory.read? handle = some data) :
    (HostMemory.mk (memory.buffers.push fresh)).read? handle = some data := by
  obtain ⟨index, buffer, slot⟩ := Option.bind_eq_some_iff.mp found
  obtain ⟨inside, _⟩ := Array.getElem?_eq_some_iff.mp slot
  simpa [HostMemory.read?, buffer, Array.getElem?_push, Nat.ne_of_lt inside] using slot

theorem allocate_eq_ok {info : TensorInfo}
    (allocated : memory.allocate info data = .ok (handle, after)) :
    data.size = info.elementCount ∧ info.shape.isStorable = true ∧ handle = { info, buffer := some memory.buffers.size } ∧
      after = ⟨memory.buffers.push data⟩ := by
  unfold allocate at allocated
  split at allocated
  · rename_i fits
    cases allocated
    exact ⟨fits.1, fits.2, rfl, rfl⟩
  · split at allocated <;> cases allocated

/-- Memory that is provided on the host is a new buffer with a value for each element, as large as
memory can hold. -/
theorem provide_eq_ok {source : TensorSource}
    (provided : memory.provide source = .ok (handle, after)) :
    (handle.isForeign = true ∧ after = memory) ∨
      ∃ values : Array Float32, values.size = handle.info.elementCount ∧
        handle.shape.isStorable = true ∧ handle.buffer = some memory.buffers.size ∧ after = ⟨memory.buffers.push values⟩ := by
  unfold provide at provided
  split at provided
  · cases provided
    exact .inl ⟨rfl, rfl⟩
  · refine .inr ?_
    split at provided
    · obtain ⟨count, size, made⟩ := bind_eq_ok.mp provided
      cases pure_eq_ok.mp made
      unfold Shape.bufferSize at size
      split at size
      · rename_i storable
        cases size
        exact ⟨_, Array.size_replicate, storable, rfl, rfl⟩
      · cases size
    · obtain ⟨values, _, made⟩ := bind_eq_ok.mp provided
      obtain ⟨fits, storable, rfl, rfl⟩ := allocate_eq_ok made
      exact ⟨values, fits, storable, rfl, rfl⟩

end NeuralGraph.HostMemory
