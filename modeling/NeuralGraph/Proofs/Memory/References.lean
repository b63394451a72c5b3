import Mathlib.Algebra.Order.BigOperators.Group.Finset
import NeuralGraph.Proofs.Memory.Accounts

/-! References to staged tensors. A tensor lives as long as something refers to it, it counts its
references, and the accounts stand for the tensors that are referred to, each taken once. -/

namespace NeuralGraph.Staging

variable {staging after : Staging} {tensor : StagedRef} {tensors others : List StagedRef}
  {shape : Shape} {data : Array Float32} {uploads : Nat}

/-- The references to the tensor of a slot. -/
def countOf (tensors : List StagedRef) (index : Nat) : Nat :=
  tensors.countP (·.index == index)

theorem countOf_cons (tensor : StagedRef) (tensors : List StagedRef) (index : Nat) :
    countOf (tensor :: tensors) index =
      countOf tensors index + if tensor.index = index then 1 else 0 := by
  simp [countOf, List.countP_cons]

theorem countOf_eq_zero {index : Nat} :
    countOf tensors index = 0 ↔ ∀ tensor ∈ tensors, tensor.index ≠ index := by
  simp [countOf, List.countP_eq_zero]

/-- Every reference is to a live tensor of its shape, which counts the references to it. -/
def Held (staging : Staging) (tensors : List StagedRef) : Prop :=
  ∀ tensor ∈ tensors, ∃ slot, staging.find? tensor = some slot ∧ slot.shape = tensor.shape ∧
    slot.data.size = tensor.shape.elementCount ∧ slot.references = countOf tensors tensor.index

/-- The accounts stand for the tensors that are referred to. -/
def Booked (staging : Staging) (tensors : List StagedRef) (uploads : Nat) : Prop :=
  staging.telemetry.Stands (∑ tensor ∈ tensors.toFinset, bytes tensor.shape) tensors.toFinset.card
    uploads

theorem shape_of_allocate (allocated : staging.allocate shape = (after, .ok tensor)) :
    tensor.shape = shape := by
  obtain ⟨_, _, _, pushed⟩ := allocate_eq_ok_iff.mp allocated
  cases pushed
  rfl

theorem find?_of_index {other : StagedRef} (same : tensor.index = other.index) :
    staging.find? tensor = staging.find? other := by
  simp only [find?, same]

namespace Held

theorem perm (held : staging.Held tensors) (same : tensors.Perm others) : staging.Held others := by
  intro tensor member
  obtain ⟨slot, found, shape, size, references⟩ := held tensor (same.mem_iff.mpr member)
  refine ⟨slot, found, shape, size, references.trans ?_⟩
  exact same.countP_eq _

/-- References to one slot are the same reference. -/
theorem eq_of_index (held : staging.Held tensors) {first second : StagedRef}
    (here : first ∈ tensors) (there : second ∈ tensors) (same : first.index = second.index) :
    first = second := by
  obtain ⟨slot, found, shape, _⟩ := held first here
  obtain ⟨twin, foundTwin, twinShape, _⟩ := held second there
  rw [find?_of_index same, foundTwin] at found
  cases found
  obtain ⟨index, firstShape⟩ := first
  obtain ⟨_, secondShape⟩ := second
  cases same
  exact congrArg (StagedRef.mk index) (shape.symm.trans twinShape)

theorem allocate (held : staging.Held tensors)
    (allocated : staging.allocate shape = (after, .ok tensor)) :
    after.Held (tensor :: tensors) := by
  obtain ⟨_, fresh, _, keeps⟩ := allocate_eq_ok allocated
  have own := shape_of_allocate allocated
  have older : ∀ other ∈ tensors, other.index < staging.slots.size := fun other member => by
    obtain ⟨slot, found, _⟩ := held other member
    exact lt_size_of_find? found
  intro other member
  rw [countOf_cons]
  rcases List.mem_cons.mp member with rfl | member
  · have unused : countOf tensors other.index = 0 := countOf_eq_zero.mpr fun earlier inside =>
      Nat.ne_of_lt (fresh ▸ older earlier inside)
    rw [unused, if_pos rfl]
    exact ⟨_, find?_allocate allocated, own.symm, by rw [own]; exact Array.size_replicate, rfl⟩
  · obtain ⟨slot, found, same, size, references⟩ := held other member
    have below := older other member
    have apart : tensor.index ≠ other.index := Nat.ne_of_gt (fresh ▸ below)
    rw [if_neg apart]
    exact ⟨slot, (keeps.find? below).trans found, same, size, references⟩

theorem retain (held : staging.Held tensors) (member : tensor ∈ tensors) :
    (staging.retain tensor).Held (tensor :: tensors) := by
  intro other inside
  have known : other ∈ tensors := by
    rcases List.mem_cons.mp inside with rfl | known
    · exact member
    · exact known
  obtain ⟨slot, found, shape, size, references⟩ := held other known
  rw [countOf_cons]
  refine ⟨_, find?_retain found tensor, ?_, ?_, ?_⟩
  · split <;> exact shape
  · split <;> exact size
  · by_cases same : other.index = tensor.index
    · simp [same, references]
    · simp [same, Ne.symm same, references]

/-- The last reference to a tensor is the only one that it counts. -/
theorem last_iff (held : staging.Held (tensor :: others)) {slot : StagedTensor}
    (found : staging.find? tensor = some slot) : slot.references ≤ 1 ↔ tensor ∉ others := by
  obtain ⟨_, same, _, _, references⟩ := held tensor List.mem_cons_self
  cases found.symm.trans same
  have single : slot.references ≤ 1 ↔ countOf others tensor.index = 0 := by
    rw [references, countOf_cons, if_pos rfl]
    omega
  rw [single, countOf_eq_zero]
  refine ⟨fun apart member => apart tensor member rfl, fun absent other member same => ?_⟩
  have known := held.eq_of_index (List.mem_cons_of_mem _ member) List.mem_cons_self same
  exact absent (known ▸ member)

/-- A reference is given up; the tensor stays while others refer to it. -/
theorem release (held : staging.Held (tensor :: others)) :
    (staging.release tensor).Held others := by
  obtain ⟨last, found_last, _⟩ := held tensor List.mem_cons_self
  intro other member
  obtain ⟨slot, found, shape, size, references⟩ := held other (List.mem_cons_of_mem _ member)
  rw [countOf_cons] at references
  by_cases same : other.index = tensor.index
  · obtain rfl := held.eq_of_index (List.mem_cons_of_mem _ member) List.mem_cons_self same
    obtain rfl : slot = last := Option.some.inj (found.symm.trans found_last)
    have shared : ¬slot.references ≤ 1 := fun single => (held.last_iff found).mp single member
    rw [if_pos rfl] at references
    refine ⟨{ slot with references := slot.references - 1 }, ?_, shape, size, ?_⟩
    · rw [find?_release found, if_pos rfl, if_neg shared]
    · simp [references]
  · rw [if_neg (Ne.symm same)] at references
    exact ⟨slot, (find?_release_of_ne same).trans found, shape, size, references⟩

theorem write (held : staging.Held tensors)
    (stored : staging.write tensor data = .ok after) : after.Held tensors := by
  intro other inside
  obtain ⟨slot, found, shape, size, references⟩ := held other inside
  refine ⟨_, (find?_write stored other).trans (congrArg (Option.map _) found), ?_, ?_, ?_⟩
  · split <;> exact shape
  · split
    · rename_i same
      rw [(write_eq_ok.mp stored).1, ← read_of_index same, Staging.read, found]
      exact size
    · exact size
  · split <;> exact references

/-- The accounts have no part in it. -/
theorem rebooked (held : staging.Held tensors) (telemetry : Telemetry) :
    Held { staging with telemetry } tensors := held

theorem size_read (held : staging.Held tensors) (member : tensor ∈ tensors) :
    (staging.read tensor).size = tensor.shape.elementCount := by
  obtain ⟨slot, found, _, size, _⟩ := held tensor member
  rw [read, found]
  exact size

end Held

namespace Booked

theorem perm (booked : staging.Booked tensors uploads) (same : tensors.Perm others) :
    staging.Booked others uploads := by
  unfold Booked at *
  rwa [← List.toFinset_eq_of_perm _ _ same]

theorem allocate (booked : staging.Booked tensors uploads) (held : staging.Held tensors)
    (allocated : staging.allocate shape = (after, .ok tensor)) :
    after.Booked (tensor :: tensors) uploads := by
  obtain ⟨_, fresh, _, _⟩ := allocate_eq_ok allocated
  have new : tensor ∉ tensors.toFinset := fun member => by
    obtain ⟨slot, found, _⟩ := held tensor (List.mem_toFinset.mp member)
    exact Nat.ne_of_lt (lt_size_of_find? found) fresh
  rw [Booked, List.toFinset_cons, Finset.sum_insert new, Finset.card_insert_of_notMem new,
    Nat.add_comm (bytes tensor.shape), shape_of_allocate allocated]
  exact stands_allocate allocated booked

theorem retain (booked : staging.Booked tensors uploads) (member : tensor ∈ tensors) :
    (staging.retain tensor).Booked (tensor :: tensors) uploads := by
  have known : insert tensor tensors.toFinset = tensors.toFinset :=
    Finset.insert_eq_of_mem (List.mem_toFinset.mpr member)
  rw [Booked, List.toFinset_cons, known, telemetry_retain]
  exact booked

theorem release (booked : staging.Booked (tensor :: others) uploads)
    (held : staging.Held (tensor :: others)) : (staging.release tensor).Booked others uploads := by
  obtain ⟨slot, found, shape, _⟩ := held tensor List.mem_cons_self
  rw [Booked, List.toFinset_cons] at booked
  rw [Booked, telemetry_release found]
  by_cases member : tensor ∈ others
  · have shared : ¬slot.references ≤ 1 := fun single => (held.last_iff found).mp single member
    rw [if_neg shared]
    rwa [Finset.insert_eq_of_mem (List.mem_toFinset.mpr member)] at booked
  · have absent : tensor ∉ others.toFinset := fun known => member (List.mem_toFinset.mp known)
    rw [Finset.sum_insert absent, Finset.card_insert_of_notMem absent,
      Nat.add_comm (bytes tensor.shape)] at booked
    rw [if_pos ((held.last_iff found).mpr member), shape]
    exact booked.discharge

theorem upload (booked : staging.Booked tensors uploads)
    (stored : staging.upload tensor data = .ok after) : after.Booked tensors (uploads + 1) :=
  stands_upload stored booked

end Booked

/-- A tensor is booked before its memory is taken, and there is no such memory or no room for it
in the accounts. -/
def Strays (staging : Staging) (shape : Shape) : Prop :=
  shape.isCountable = true ∧ shape.elementCount ≠ 0 ∧ bytes shape < Capacity.wordLimit ∧
    ¬(staging.telemetry.canCharge (bytes shape) = true ∧ shape.isStorable = true)

theorem allocate_of_strays (strays : staging.Strays shape) :
    staging.allocate shape =
      ({ staging with telemetry := staging.telemetry.charge (bytes shape) },
        .error (.tooLarge shape)) := by
  obtain ⟨countable, occupied, word, refused⟩ := strays
  unfold allocate
  rw [if_neg (by simpa using countable), if_neg occupied, if_neg (Nat.not_le.mpr word)]
  simp only [Bool.and_eq_true, if_neg refused]

/-- A shape without elements takes nothing, whether or not its extents can be multiplied. -/
theorem allocate_of_empty (empty : shape.elementCount = 0) : staging.allocate shape =
    (staging, .error (if shape.isCountable then .zeroLength else .tooLarge shape)) := by
  unfold allocate
  by_cases countable : shape.isCountable = true <;> simp [countable, empty]

/-- Every other allocation takes its memory or leaves everything as it was. -/
theorem allocate_of_not_strays (sound : ¬staging.Strays shape) :
    (∃ tensor after, staging.allocate shape = (after, .ok tensor)) ∨
      ∃ fault, staging.allocate shape = (staging, .error fault) := by
  by_cases countable : shape.isCountable = true
  · by_cases empty : shape.elementCount = 0
    · exact .inr ⟨.zeroLength, by simp [allocate, countable, empty]⟩
    · by_cases word : bytes shape < Capacity.wordLimit
      · have room : staging.telemetry.canCharge (bytes shape) = true ∧ shape.isStorable = true := by
          by_contra refused
          exact sound ⟨countable, empty, word, refused⟩
        exact .inl ⟨_, _, allocate_eq_ok_iff.mpr ⟨room.2, empty, room.1, rfl⟩⟩
      · exact .inr ⟨.tooLarge shape, by
          simp [allocate, countable, empty, Nat.not_lt.mp word]⟩
  · exact .inr ⟨.tooLarge shape, by simp [allocate, countable]⟩

/-- A booking moves the account. -/
theorem liveBytes_charge_ne (strays : staging.Strays shape) :
    (staging.telemetry.charge (bytes shape)).liveBytes ≠ staging.telemetry.liveBytes := by
  obtain ⟨_, occupied, word, _⟩ := strays
  have positive : 0 < bytes shape :=
    Nat.mul_pos (by decide) (Nat.pos_of_ne_zero occupied)
  unfold Telemetry.charge Telemetry.canCharge
  split
  · simp only
    omega
  · rename_i full
    simp only [decide_eq_true_eq] at full
    simp only
    omega

theorem peakBytes_allocate (allocated : staging.allocate shape = (after, .ok tensor)) :
    after.telemetry.peakBytes = max staging.telemetry.peakBytes after.telemetry.liveBytes := by
  obtain ⟨_, _, room, pushed⟩ := allocate_eq_ok_iff.mp allocated
  cases pushed
  simp [Telemetry.charge, room]

theorem peakBytes_release (tensor : StagedRef) :
    (staging.release tensor).telemetry.peakBytes = staging.telemetry.peakBytes := by
  unfold release
  split
  · rfl
  · split <;> rfl

theorem telemetry_upload (stored : staging.upload tensor data = .ok after) :
    after.telemetry = staging.telemetry.countUpload := by
  obtain ⟨written, written_eq, rfl⟩ := upload_eq_write.mp stored
  exact congrArg Telemetry.countUpload (telemetry_write written_eq)

end NeuralGraph.Staging
