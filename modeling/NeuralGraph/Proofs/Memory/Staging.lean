import NeuralGraph.Memory.Staging
import NeuralGraph.Proofs.Outcome

/-! Slots of staging memory that an operation leaves alone. Allocation takes a slot of its own, and
everything else changes the slot of one tensor, so what was staged before stays as it is. What is
retained outlives the release of everything else, and an upload asks for nothing but the size. -/

namespace NeuralGraph.Staging

variable {staging after final : Staging} {tensor other : StagedRef} {bound : Nat}
  {data : Array Float32}

/-- Memory that only changes from slot `bound` on. -/
structure Keeps (bound : Nat) (before after : Staging) : Prop where
  grows : before.slots.size ≤ after.slots.size
  below : ∀ index < bound, after.slots[index]? = before.slots[index]?

namespace Keeps

theorem refl (bound : Nat) (staging : Staging) : Keeps bound staging staging :=
  ⟨Nat.le_refl _, fun _ _ => rfl⟩

theorem trans (first : Keeps bound staging after) (second : Keeps bound after final) :
    Keeps bound staging final where
  grows := Nat.le_trans first.grows second.grows
  below := fun index inside => (second.below index inside).trans (first.below index inside)

theorem weaken {lower : Nat} (keeps : Keeps bound staging after) (smaller : lower ≤ bound) :
    Keeps lower staging after :=
  ⟨keeps.grows, fun index inside => keeps.below index (Nat.lt_of_lt_of_le inside smaller)⟩

theorem find? (keeps : Keeps bound staging after) (inside : tensor.index < bound) :
    after.find? tensor = staging.find? tensor := by
  simp only [Staging.find?, keeps.below tensor.index inside]

theorem read (keeps : Keeps bound staging after) (inside : tensor.index < bound) :
    after.read tensor = staging.read tensor := by
  simp only [Staging.read, keeps.find? inside]

theorem foldl {α : Type} {step : Staging → α → Staging} {items : List α}
    (each : ∀ staging, ∀ item ∈ items, Keeps bound staging (step staging item)) :
    Keeps bound staging (items.foldl step staging) := by
  induction items generalizing staging with
  | nil => exact .refl bound staging
  | cons item items ih =>
    exact (each staging item List.mem_cons_self).trans
      (ih fun staging other member => each staging other (List.mem_cons_of_mem _ member))

theorem setIfInBounds (fresh : bound ≤ tensor.index) (slot : Option StagedTensor)
    (telemetry : Telemetry) :
    Keeps bound staging { slots := staging.slots.setIfInBounds tensor.index slot, telemetry } where
  grows := by simp
  below := fun index inside => by
    rw [Array.getElem?_setIfInBounds_ne (Nat.ne_of_gt (Nat.lt_of_lt_of_le inside fresh))]

end Keeps

/-- What is found has a slot. -/
theorem lt_size_of_find? {held : StagedTensor} (found : staging.find? tensor = some held) :
    tensor.index < staging.slots.size := by
  by_contra outside
  rw [find?, Array.getElem?_eq_none (Nat.le_of_not_lt outside)] at found
  cases found

theorem bytes_lt_wordLimit {shape : Shape} (storable : shape.isStorable = true) :
    bytes shape < Capacity.wordLimit := by
  simp only [Shape.isStorable, Bool.and_eq_true, Capacity.fitsBuffer, decide_eq_true_eq] at storable
  exact Nat.lt_trans storable.2 (by decide)

/-- A tensor is allocated when it has values that a buffer can hold and the accounts can take its
bytes. -/
theorem allocate_eq_ok_iff {shape : Shape} :
    staging.allocate shape = (after, .ok tensor) ↔
      shape.isStorable = true ∧ shape.elementCount ≠ 0 ∧
      staging.telemetry.canCharge (bytes shape) = true ∧
      ({ staging with telemetry := staging.telemetry.charge (bytes shape) } : Staging).push shape =
        (tensor, after) := by
  unfold allocate
  constructor
  · intro allocated
    split at allocated
    · cases allocated
    · split at allocated
      · cases allocated
      · rename_i occupied
        split at allocated
        · cases allocated
        · dsimp only at allocated
          split at allocated
          · rename_i taken
            obtain ⟨room, storable⟩ := Bool.and_eq_true_iff.mp taken
            cases allocated
            exact ⟨storable, occupied, room, rfl⟩
          · cases allocated
  · rintro ⟨storable, occupied, room, pushed⟩
    have countable : shape.isCountable = true := (Bool.and_eq_true_iff.mp storable).1
    rw [if_neg (by simpa using countable), if_neg occupied,
      if_neg (Nat.not_le.mpr (bytes_lt_wordLimit storable))]
    simp only [room, storable, Bool.and_self, if_true, pushed]

/-- An allocated tensor has values and a slot of its own. -/
theorem allocate_eq_ok {shape : Shape} (allocated : staging.allocate shape = (after, .ok tensor)) :
    shape.elementCount ≠ 0 ∧ tensor.index = staging.slots.size ∧
      after.slots.size = staging.slots.size + 1 ∧ Keeps staging.slots.size staging after := by
  obtain ⟨_, occupied, _, pushed⟩ := allocate_eq_ok_iff.mp allocated
  cases pushed
  refine ⟨occupied, rfl, by simp, by simp, ?_⟩
  intro index inside
  simp [Array.getElem?_push, Nat.ne_of_lt inside]

/-- An allocated tensor holds zeros, and nothing else refers to it. -/
theorem find?_allocate {shape : Shape} (allocated : staging.allocate shape = (after, .ok tensor)) :
    after.find? tensor =
      some { shape, data := Array.replicate shape.elementCount 0, references := 1 } := by
  obtain ⟨_, _, _, pushed⟩ := allocate_eq_ok_iff.mp allocated
  cases pushed
  simp [find?]

theorem liveBytes_allocate {shape : Shape}
    (allocated : staging.allocate shape = (after, .ok tensor)) :
    after.telemetry.liveBytes = staging.telemetry.liveBytes + bytes shape ∧
      after.telemetry.liveBytes < Capacity.wordLimit := by
  obtain ⟨_, _, room, pushed⟩ := allocate_eq_ok_iff.mp allocated
  cases pushed
  have fits : staging.telemetry.liveBytes + bytes shape < Capacity.wordLimit := by
    simpa [Telemetry.canCharge] using room
  simp [Telemetry.charge, room, fits]

theorem read_of_index (same : tensor.index = other.index) :
    staging.read tensor = staging.read other := by
  simp only [read, find?, same]

/-- Replacing a live tensor shows at its slot and nowhere else. -/
private theorem find?_replace {held : StagedTensor} (found : staging.find? other = some held)
    (slot : Option StagedTensor) (telemetry : Telemetry) (tensor : StagedRef) :
    ({ slots := staging.slots.setIfInBounds other.index slot, telemetry } : Staging).find? tensor =
      if tensor.index = other.index then slot else staging.find? tensor := by
  have inside : other.index < staging.slots.size := by
    by_contra outside
    simp [find?, outside] at found
  by_cases same : tensor.index = other.index
  · simp [find?, same, inside]
  · rw [if_neg same, find?, find?, Array.getElem?_setIfInBounds_ne (Ne.symm same)]

/-- A live tensor stays as it is when another one is retained; its own references are counted. -/
theorem find?_retain {held : StagedTensor} (found : staging.find? tensor = some held)
    (other : StagedRef) : (staging.retain other).find? tensor =
      some (if tensor.index = other.index then { held with references := held.references + 1 }
        else held) := by
  unfold retain
  by_cases same : tensor.index = other.index
  · have foundOther : staging.find? other = some held := by rwa [find?, ← same]
    simp only [foundOther, find?_replace foundOther, same, if_true]
  · cases foundOther : staging.find? other with
    | none => simpa [same] using found
    | some slot => simp only [find?_replace foundOther, same, if_false, found]

/-- A release takes one reference, and the tensor with the last one. -/
theorem find?_release {held : StagedTensor} (found : staging.find? other = some held)
    (tensor : StagedRef) : (staging.release other).find? tensor =
      if tensor.index = other.index then
        if held.references ≤ 1 then none else some { held with references := held.references - 1 }
      else staging.find? tensor := by
  unfold release
  rw [found]
  dsimp only
  split <;> simp only [find?_replace found]

theorem find?_release_of_ne (apart : tensor.index ≠ other.index) :
    (staging.release other).find? tensor = staging.find? tensor := by
  cases found : staging.find? other with
  | none => rw [release, found]
  | some held => rw [find?_release found, if_neg apart]

theorem retain_keeps (fresh : bound ≤ tensor.index) :
    Keeps bound staging (staging.retain tensor) := by
  unfold retain
  cases staging.find? tensor with
  | none => exact .refl bound staging
  | some held => exact .setIfInBounds fresh _ _

theorem release_keeps (fresh : bound ≤ tensor.index) :
    Keeps bound staging (staging.release tensor) := by
  unfold release
  cases staging.find? tensor with
  | none => exact .refl bound staging
  | some held =>
    dsimp only
    split
    · exact .setIfInBounds fresh _ _
    · exact .setIfInBounds fresh _ _

variable {α : Type} {items : List α} {ref : α → StagedRef}

theorem retainEach_keeps (fresh : ∀ item ∈ items, bound ≤ (ref item).index) :
    Keeps bound staging (items.foldl (fun staging item => staging.retain (ref item)) staging) :=
  .foldl fun _ item member => retain_keeps (fresh item member)

theorem releaseEach_keeps (fresh : ∀ item ∈ items, bound ≤ (ref item).index) :
    Keeps bound staging (items.foldl (fun staging item => staging.release (ref item)) staging) :=
  .foldl fun _ item member => release_keeps (fresh item member)

/-- A write takes as many values as its tensor has, and changes nothing but them. -/
theorem write_eq_ok :
    staging.write tensor data = .ok after ↔ data.size = (staging.read tensor).size ∧
      after = { staging with
        slots := staging.slots.modify tensor.index (·.map fun slot => { slot with data }) } := by
  unfold write
  dsimp only
  split <;> simp [*, eq_comm]

theorem find?_write (stored : staging.write tensor data = .ok after) (other : StagedRef) :
    after.find? other = (staging.find? other).map fun held =>
      if other.index = tensor.index then { held with data } else held := by
  obtain ⟨_, rfl⟩ := write_eq_ok.mp stored
  simp only [find?, Array.getElem?_modify]
  by_cases same : tensor.index = other.index
  · cases staging.slots[other.index]? with
    | none => simp [same]
    | some held => cases held <;> simp [same]
  · cases staging.slots[other.index]? with
    | none => simp [same]
    | some held => cases held <;> simp [same, Ne.symm same]

theorem read_write (stored : staging.write tensor data = .ok after) (other : StagedRef) :
    after.read other = if other.index = tensor.index then data else staging.read other := by
  rw [read, find?_write stored]
  by_cases same : other.index = tensor.index
  · cases found : staging.find? other with
    | none =>
      -- A freed tensor takes no values.
      have size := (write_eq_ok.mp stored).1
      rw [← read_of_index same, read, found] at size
      simpa [same, eq_comm] using size
    | some held => simp [same]
  · simp [same, read]

theorem write_total (fits : data.size = (staging.read tensor).size) :
    ∃ after, staging.write tensor data = .ok after :=
  ⟨_, write_eq_ok.mpr ⟨fits, rfl⟩⟩

theorem write_keeps (stored : staging.write tensor data = .ok after)
    (fresh : bound ≤ tensor.index) : Keeps bound staging after := by
  obtain ⟨_, rfl⟩ := write_eq_ok.mp stored
  refine ⟨by simp, fun index inside => ?_⟩
  simp [Array.getElem?_modify, Nat.ne_of_gt (Nat.lt_of_lt_of_le inside fresh)]

/-- An upload is a write that is counted. -/
theorem upload_eq_write : staging.upload tensor data = .ok after ↔
    ∃ written, staging.write tensor data = .ok written ∧
      { written with telemetry := written.telemetry.countUpload } = after := by
  simp only [upload, bind_eq_ok, pure_eq_ok]

/-- An upload keeps every other slot, and its tensor holds the data from then on. -/
theorem upload_eq_ok (uploaded : staging.upload tensor data = .ok after) :
    after.read tensor = data ∧
      (∀ other : StagedRef, other.index ≠ tensor.index →
        after.read other = staging.read other) ∧
      (bound ≤ tensor.index → Keeps bound staging after) := by
  obtain ⟨written, stored, rfl⟩ := upload_eq_write.mp uploaded
  refine ⟨?_, fun other apart => ?_, fun fresh => ?_⟩
  · exact (read_write stored tensor).trans (if_pos rfl)
  · exact (read_write stored other).trans (if_neg apart)
  · exact ⟨(write_keeps stored fresh).grows, (write_keeps stored fresh).below⟩

/-- A live tensor gains a reference for each time that it is retained. -/
theorem find?_retainEach {held : StagedTensor} (found : staging.find? tensor = some held)
    (items : List α) (ref : α → StagedRef) :
    (items.foldl (fun staging item => staging.retain (ref item)) staging).find? tensor =
      some { held with
        references :=
          held.references + items.countP fun item => tensor.index = (ref item).index } := by
  induction items generalizing staging held with
  | nil => exact found
  | cons item items ih =>
    rw [List.foldl_cons, ih (find?_retain found (ref item)), List.countP_cons]
    by_cases same : tensor.index = (ref item).index
    · simp [same, Nat.add_assoc, Nat.add_comm]
    · simp [same]

theorem find?_releaseEach_of_ne (apart : ∀ item ∈ items, tensor.index ≠ (ref item).index) :
    (items.foldl (fun staging item => staging.release (ref item)) staging).find? tensor =
      staging.find? tensor := by
  induction items generalizing staging with
  | nil => rfl
  | cons item items ih =>
    rw [List.foldl_cons, ih fun other member => apart other (List.mem_cons_of_mem _ member)]
    exact find?_release_of_ne (apart item List.mem_cons_self)

/-- An upload succeeds where the data has as many values as the tensor, and leaves every tensor
with as many values as it had. -/
theorem upload_total (fits : data.size = (staging.read tensor).size) :
    ∃ after, staging.upload tensor data = .ok after ∧
      ∀ other, (after.read other).size = (staging.read other).size := by
  obtain ⟨written, stored⟩ := write_total fits
  obtain ⟨after, uploaded⟩ : ∃ after, staging.upload tensor data = .ok after :=
    ⟨_, upload_eq_write.mpr ⟨written, stored, rfl⟩⟩
  obtain ⟨holds, others, _⟩ := @upload_eq_ok _ _ _ 0 _ uploaded
  refine ⟨after, uploaded, fun other => ?_⟩
  by_cases same : other.index = tensor.index
  · rw [read_of_index same, read_of_index same, holds, fits]
  · rw [others other same]

end NeuralGraph.Staging
