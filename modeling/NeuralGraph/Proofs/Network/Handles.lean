import NeuralGraph.Network.Basic
import NeuralGraph.Proofs.Graph.Wiring
import NeuralGraph.Proofs.Lookup
import NeuralGraph.Proofs.Memory.Host
import NeuralGraph.Proofs.Outcome

/-! Memory bound to slots. Allocation gives every output slot of a graph a buffer of its own, of
the size that the slot declares. -/

namespace NeuralGraph.TensorHandles

variable {handles final : TensorHandles} {memory after : HostMemory}

/-- Every bound slot has a buffer of its own that holds one value for each element. -/
structure Owned (handles : TensorHandles) (memory : HostMemory) : Prop where
  held : ∀ slot handle, handles.find? slot = some handle →
    ∃ data, memory.read? handle = some data ∧ data.size = handle.info.elementCount
  storable : ∀ slot handle, handles.find? slot = some handle → handle.info.shape.isStorable = true
  distinct : ∀ first second left right, handles.find? first = some left →
    handles.find? second = some right → left.buffer = right.buffer → first = second

theorem find?_erase (slot other : OutputRef) :
    (handles.erase slot).find? other = if other = slot then none else handles.find? other := by
  have kept : handles.entries.filter (·.1 ≠ slot) = handles.entries.filter (·.1 != slot) :=
    List.filter_congr fun entry _ => by grind
  rw [find?, erase, kept]
  exact lookup_filter_ne slot other handles.entries

theorem find?_insert (slot : OutputRef) (handle : Handle) (other : OutputRef) :
    (handles.insert slot handle).find? other =
      if other = slot then some handle else handles.find? other := by
  rw [find?, insert, lookup_cons_eq_ite]
  by_cases same : other = slot
  · rw [if_pos same, if_pos same]
  · rw [if_neg same, if_neg same]
    exact (find?_erase slot other).trans (if_neg same)

theorem allocateZeroed_eq_ok {info : TensorInfo} {handle : Handle} :
    memory.allocateZeroed info = .ok (handle, after) ↔ info.shape.isStorable = true ∧
      handle = { info, buffer := some memory.buffers.size } ∧
      after = ⟨memory.buffers.push (Array.replicate info.elementCount 0)⟩ := by
  unfold HostMemory.allocateZeroed Shape.bufferSize
  by_cases storable : info.shape.isStorable = true
  · simp [storable, bind, Except.bind, pure, Except.pure, TensorInfo.elementCount, eq_comm]
  · simp [storable, bind, Except.bind]

/-- A fresh zeroed buffer belongs to no other slot. -/
theorem Owned.insert (owned : Owned handles memory) {info : TensorInfo} {handle : Handle}
    (allocated : memory.allocateZeroed info = .ok (handle, after)) (slot : OutputRef) :
    Owned (handles.insert slot handle) after := by
  obtain ⟨storable, rfl, rfl⟩ := allocateZeroed_eq_ok.mp allocated
  have fresh : ∀ other held, handles.find? other = some held →
      held.buffer ≠ some memory.buffers.size := by
    intro other held found same
    obtain ⟨data, there, _⟩ := owned.held other held found
    simp [HostMemory.read?, same] at there
  refine ⟨?_, ?_, ?_⟩
  · intro other held found
    rw [find?_insert] at found
    split at found
    · cases found
      exact ⟨Array.replicate info.elementCount 0, by simp [HostMemory.read?], by simp⟩
    · obtain ⟨data, there, size⟩ := owned.held other held found
      exact ⟨data, HostMemory.read?_push there, size⟩
  · intro other held found
    rw [find?_insert] at found
    split at found
    · cases found
      exact storable
    · exact owned.storable other held found
  · intro first second left right firstFound secondFound same
    rw [find?_insert] at firstFound secondFound
    split at firstFound <;> split at secondFound
    · simp_all
    · cases firstFound
      exact absurd same.symm (fresh second right secondFound)
    · cases secondFound
      exact absurd same (fresh first left firstFound)
    · exact owned.distinct first second left right firstFound secondFound same

theorem allocateSlots_spec {layer : Layer} {index : Nat} {slots : List OutputSlot}
    (owned : Owned handles memory)
    (allocated : allocateSlots layer index slots handles memory = .ok (final, after)) :
    Owned final after ∧
      (∀ slot, slot.layer ≠ layer.id ∨ slot.index < index →
        final.find? slot = handles.find? slot) ∧
      ∀ offset slot, slots[offset]? = some slot → ∃ info handle, slot.info = some info ∧
        final.find? ⟨layer.id, index + offset⟩ = some handle ∧ handle.info = info := by
  induction slots generalizing index handles memory with
  | nil =>
    simp only [allocateSlots, Except.ok.injEq, Prod.mk.injEq] at allocated
    obtain ⟨rfl, rfl⟩ := allocated
    exact ⟨owned, fun _ _ => rfl, by simp⟩
  | cons slot slots ih =>
    cases declared : slot.info with
    | none => simp [allocateSlots, declared] at allocated
    | some info =>
      simp only [allocateSlots, declared] at allocated
      obtain ⟨⟨handle, grown⟩, pushed, rest⟩ := bind_eq_ok.mp allocated
      obtain ⟨_, sameInfo, _⟩ := allocateZeroed_eq_ok.mp pushed
      obtain ⟨finalOwned, others, bound⟩ := ih (owned.insert pushed ⟨layer.id, index⟩) rest
      refine ⟨finalOwned, ?_, ?_⟩
      · intro other outside
        rw [others other (outside.imp_right Nat.lt_succ_of_lt), find?_insert, if_neg]
        rintro rfl
        rcases outside with apart | before
        · exact apart rfl
        · exact Nat.lt_irrefl _ before
      · intro offset other found
        cases offset with
        | zero =>
          simp only [List.getElem?_cons_zero, Option.some.injEq] at found
          subst other
          refine ⟨info, handle, declared, ?_, by rw [sameInfo]⟩
          rw [others _ (.inr (Nat.lt_succ_self index)), find?_insert]
          simp
        | succ offset =>
          have shift : index + (offset + 1) = index + 1 + offset := by omega
          rw [shift]
          exact bound offset other (by simpa using found)

theorem allocateLayers_spec {layers : List Layer} (owned : Owned handles memory)
    (unique : (layers.map (·.id)).Nodup)
    (allocated : allocateLayers layers handles memory = .ok (final, after)) :
    Owned final after ∧
      (∀ slot, slot.layer ∉ layers.map (·.id) → final.find? slot = handles.find? slot) ∧
      ∀ layer ∈ layers, ∀ index slot, layer.outputs[index]? = some slot →
        ∃ info handle, slot.info = some info ∧
          final.find? ⟨layer.id, index⟩ = some handle ∧ handle.info = info := by
  induction layers generalizing handles memory with
  | nil =>
    simp only [allocateLayers, Except.ok.injEq, Prod.mk.injEq] at allocated
    obtain ⟨rfl, rfl⟩ := allocated
    exact ⟨owned, fun _ _ => rfl, by simp⟩
  | cons layer layers ih =>
    obtain ⟨notLater, uniqueRest⟩ := List.nodup_cons.mp unique
    obtain ⟨⟨extended, grown⟩, first, rest⟩ := bind_eq_ok.mp allocated
    obtain ⟨ownedFirst, outsideFirst, boundFirst⟩ := allocateSlots_spec owned first
    obtain ⟨finalOwned, others, bound⟩ := ih ownedFirst uniqueRest rest
    refine ⟨finalOwned, ?_, ?_⟩
    · intro slot outside
      simp only [List.map_cons, List.mem_cons, not_or] at outside
      rw [others slot outside.2, outsideFirst slot (.inl outside.1)]
    · intro other member index slot found
      rcases List.mem_cons.mp member with rfl | later
      · obtain ⟨info, handle, declared, held, same⟩ := boundFirst index slot found
        refine ⟨info, handle, declared, ?_, same⟩
        rw [others _ notLater, ← held, Nat.zero_add]
      · exact bound other later index slot found

/-- Every output slot of a graph declares a descriptor and is bound to memory for it. -/
def Declared (handles : TensorHandles) (graph : Graph) : Prop :=
  ∀ slot, graph.HasOutput slot → ∃ info handle, graph.slotInfo? slot = some info ∧
    handles.find? slot = some handle ∧ handle.info = info

/-- Allocation binds exactly what each output slot declares. -/
theorem allocate_spec {graph : Graph} (unique : graph.ids.Nodup)
    (allocated : allocate graph memory = .ok (final, after)) :
    Owned final after ∧ final.Declared graph := by
  have none : Owned {} memory := ⟨by simp [find?], by simp [find?], by simp [find?]⟩
  obtain ⟨owned, _, bound⟩ := allocateLayers_spec none unique allocated
  refine ⟨owned, ?_⟩
  rintro ⟨id, index⟩ ⟨layer, found, inside⟩
  obtain ⟨info, handle, declared, held, same⟩ :=
    bound layer (Graph.mem_of_find? found) index _ (List.getElem?_eq_getElem inside)
  rw [Graph.id_of_find? found] at held
  refine ⟨info, handle, ?_, held, same⟩
  simp only [Graph.slotInfo?, found, Option.bind_eq_bind, Option.bind_some,
    List.getElem?_eq_getElem inside, declared]

end NeuralGraph.TensorHandles
