import Mathlib.Algebra.GroupWithZero.Nat
import NeuralGraph.Proofs.Memory.Staging

/-! The accounts of staging memory. An allocation books its tensor, the end of the last reference
takes the booking back, and uploads are counted; nothing else moves the accounts. The peak is left
out here: a booking that was taken back still shows in it. -/

namespace NeuralGraph

/-- Where the accounts stand. -/
structure Telemetry.Stands (telemetry : Telemetry) (bytes tensors uploads : Nat) : Prop where
  liveBytes : telemetry.liveBytes = bytes
  liveTensors : telemetry.liveTensors = tensors
  uploads : telemetry.uploads = uploads

namespace Telemetry.Stands

variable {telemetry : Telemetry} {bytes more tensors uploads : Nat}

theorem charge (stands : telemetry.Stands bytes tensors uploads)
    (room : telemetry.canCharge more = true) :
    (telemetry.charge more).Stands (bytes + more) (tensors + 1) uploads := by
  unfold Telemetry.charge
  rw [if_pos room]
  exact ⟨by rw [stands.liveBytes], by rw [stands.liveTensors], stands.uploads⟩

theorem discharge (stands : telemetry.Stands (bytes + more) (tensors + 1) uploads) :
    (telemetry.discharge more).Stands bytes tensors uploads where
  liveBytes := by simp [Telemetry.discharge, stands.liveBytes]
  liveTensors := by simp [Telemetry.discharge, stands.liveTensors]
  uploads := stands.uploads

theorem countUpload (stands : telemetry.Stands bytes tensors uploads) :
    telemetry.countUpload.Stands bytes tensors (uploads + 1) :=
  ⟨stands.liveBytes, stands.liveTensors, congrArg (· + 1) stands.uploads⟩

end Telemetry.Stands

namespace Staging

variable {staging after : Staging} {tensor : StagedRef} {held : StagedTensor} {shape : Shape}
  {fault : StagingFault} {data : Array Float32} {bytes tensors uploads : Nat}

theorem stands_allocate (allocated : staging.allocate shape = (after, .ok tensor))
    (stands : staging.telemetry.Stands bytes tensors uploads) :
    after.telemetry.Stands (bytes + Staging.bytes shape) (tensors + 1) uploads := by
  obtain ⟨_, _, room, pushed⟩ := allocate_eq_ok_iff.mp allocated
  cases pushed
  exact stands.charge room

/-- A tensor that some buffer could hold is refused when it has no values, which leaves everything
as it was, or when its bytes overflow the accounts. -/
theorem allocate_eq_error (storable : shape.isStorable = true)
    (refused : staging.allocate shape = (after, .error fault)) :
    fault = .zeroLength ∧ after = staging ∨
      fault = .tooLarge shape ∧
        Capacity.wordLimit ≤ staging.telemetry.liveBytes + Staging.bytes shape := by
  have countable : shape.isCountable = true := (Bool.and_eq_true_iff.mp storable).1
  unfold allocate at refused
  rw [if_neg (by simpa using countable)] at refused
  split at refused
  · cases refused
    exact .inl ⟨rfl, rfl⟩
  · rw [if_neg (Nat.not_le.mpr (bytes_lt_wordLimit storable))] at refused
    dsimp only at refused
    split at refused
    · cases refused
    · rename_i full
      cases refused
      exact .inr ⟨rfl, by simpa [storable, Telemetry.canCharge] using full⟩

theorem telemetry_retain (staging : Staging) (tensor : StagedRef) :
    (staging.retain tensor).telemetry = staging.telemetry := by
  unfold retain
  split <;> rfl

theorem telemetry_release (found : staging.find? tensor = some held) :
    (staging.release tensor).telemetry =
      if held.references ≤ 1 then staging.telemetry.discharge (Staging.bytes held.shape)
      else staging.telemetry := by
  unfold release
  rw [found]
  dsimp only
  split <;> rfl

theorem telemetry_write (stored : staging.write tensor data = .ok after) :
    after.telemetry = staging.telemetry := by
  obtain ⟨_, rfl⟩ := write_eq_ok.mp stored
  rfl

theorem stands_upload (uploaded : staging.upload tensor data = .ok after)
    (stands : staging.telemetry.Stands bytes tensors uploads) :
    after.telemetry.Stands bytes tensors (uploads + 1) := by
  obtain ⟨written, stored, rfl⟩ := upload_eq_write.mp uploaded
  rw [← telemetry_write stored] at stands
  exact stands.countUpload

theorem find?_upload (uploaded : staging.upload tensor data = .ok after) (other : StagedRef) :
    after.find? other = (staging.find? other).map fun held =>
      if other.index = tensor.index then { held with data } else held := by
  obtain ⟨written, stored, rfl⟩ := upload_eq_write.mp uploaded
  exact find?_write stored other

/-- What stood before still stands, and the accounts stand where they did. -/
structure Restored (before after : Staging) : Prop where
  keeps : Keeps before.slots.size before after
  stands : ∀ {bytes tensors uploads}, before.telemetry.Stands bytes tensors uploads →
    after.telemetry.Stands bytes tensors uploads

theorem Restored.refl (staging : Staging) : Restored staging staging :=
  ⟨.refl _ _, id⟩

variable {α : Type} {items : List α} {ref : α → StagedRef}

theorem telemetry_retainEach (items : List α) (ref : α → StagedRef) (staging : Staging) :
    (items.foldl (fun staging item => staging.retain (ref item)) staging).telemetry =
      staging.telemetry := by
  induction items generalizing staging with
  | nil => rfl
  | cons item items ih => rw [List.foldl_cons, ih, telemetry_retain]

/-- The references given up to tensors that something else refers to. -/
theorem releaseEach_shared (apart : (items.map fun item => (ref item).index).Nodup)
    (shared : ∀ item ∈ items, ∃ held, staging.find? (ref item) = some held ∧ 1 < held.references) :
    (items.foldl (fun staging item => staging.release (ref item)) staging).telemetry =
        staging.telemetry ∧
      ∀ item ∈ items, ∀ held, staging.find? (ref item) = some held →
        (items.foldl (fun staging item => staging.release (ref item)) staging).find? (ref item) =
          some { held with references := held.references - 1 } := by
  induction items generalizing staging with
  | nil => simp
  | cons item items ih =>
    obtain ⟨absent, apart⟩ := List.nodup_cons.mp apart
    obtain ⟨first, found, many⟩ := shared item List.mem_cons_self
    have others : ∀ other ∈ items, (ref other).index ≠ (ref item).index :=
      fun other member same => absent (List.mem_map.mpr ⟨other, member, same⟩)
    have stays : ∀ other ∈ items, (staging.release (ref item)).find? (ref other) =
        staging.find? (ref other) := fun other member => find?_release_of_ne (others other member)
    obtain ⟨telemetry, later⟩ := @ih (staging.release (ref item)) apart fun other member => by
      rw [stays other member]
      exact shared other (List.mem_cons_of_mem _ member)
    rw [List.foldl_cons]
    refine ⟨?_, fun other member held live => ?_⟩
    · rw [telemetry, telemetry_release found, if_neg (Nat.not_le.mpr many)]
    · rcases List.mem_cons.mp member with rfl | member
      · obtain rfl := Option.some.inj (found.symm.trans live)
        rw [find?_releaseEach_of_ne fun twin memberTwin => (others twin memberTwin).symm,
          find?_release found, if_pos rfl, if_neg (Nat.not_le.mpr many)]
      · exact later other member held (by rw [stays other member, live])

/-- The last references given up, and with them the bookings of their tensors. -/
theorem releaseEach_last (shape : α → Shape)
    (apart : (items.map fun item => (ref item).index).Nodup)
    (last : ∀ item ∈ items, ∃ held, staging.find? (ref item) = some held ∧
      held.references = 1 ∧ held.shape = shape item)
    (stands : staging.telemetry.Stands
      (bytes + (items.map fun item => Staging.bytes (shape item)).sum) (tensors + items.length)
      uploads) :
    (items.foldl (fun staging item => staging.release (ref item)) staging).telemetry.Stands bytes
      tensors uploads := by
  induction items generalizing staging with
  | nil => simpa using stands
  | cons item items ih =>
    obtain ⟨absent, apart⟩ := List.nodup_cons.mp apart
    obtain ⟨held, found, single, same⟩ := last item List.mem_cons_self
    refine ih apart (fun other member => ?_) ?_
    · rw [find?_release_of_ne fun same => absent (List.mem_map.mpr ⟨other, member, same⟩)]
      exact last other (List.mem_cons_of_mem _ member)
    · rw [telemetry_release found, if_pos (Nat.le_of_eq single), same]
      refine Telemetry.Stands.discharge ?_
      rw [List.map_cons, List.sum_cons, List.length_cons, ← Nat.add_assoc,
        Nat.add_right_comm bytes] at stands
      exact stands

end Staging

end NeuralGraph
