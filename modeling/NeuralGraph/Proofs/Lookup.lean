import Mathlib.Data.List.Nodup

/-! Lists that hold each key once: entries that carry their key, and association lists, where a
lookup is told after an entry is replaced or removed. -/

namespace NeuralGraph

variable {κ α : Type} [BEq κ] [LawfulBEq κ]

section Keyed

variable {entries : List α} {key : α → κ}

/-- Where no key occurs twice, looking one up finds exactly the stored entries. -/
theorem find?_key_eq_some_iff (distinct : (entries.map key).Nodup) {id : κ} {entry : α} :
    entries.find? (key · == id) = some entry ↔ entry ∈ entries ∧ key entry = id := by
  constructor
  · intro found
    exact ⟨List.mem_of_find?_eq_some found, by simpa using List.find?_some found⟩
  · rintro ⟨member, rfl⟩
    cases found : entries.find? (key · == key entry) with
    | none => simpa using List.find?_eq_none.mp found entry member
    | some other =>
      have same : key other = key entry := by simpa using List.find?_some found
      rw [List.inj_on_of_nodup_map distinct (List.mem_of_find?_eq_some found) member same]

/-- The keys in their order and the lookup determine the entries. -/
theorem filterMap_find?_key (distinct : (entries.map key).Nodup) :
    (entries.map key).filterMap (fun id => entries.find? (key · == id)) = entries := by
  have same : ∀ entry ∈ entries,
      ((fun id => entries.find? (key · == id)) ∘ key) entry = some entry :=
    fun entry member => (find?_key_eq_some_iff distinct).mpr ⟨member, rfl⟩
  rw [List.filterMap_map, List.filterMap_congr same, List.filterMap_some]

end Keyed

theorem lookup_cons_eq_ite [DecidableEq κ] (key other : κ) (value : α) (entries : List (κ × α)) :
    List.lookup other ((key, value) :: entries) =
      if other = key then some value else entries.lookup other := by
  by_cases same : other = key
  · simp [same]
  · have apart : (other == key) = false := by simpa using same
    simp [List.lookup_cons, same, apart]

theorem lookup_filter_ne [DecidableEq κ] (key other : κ) (entries : List (κ × α)) :
    List.lookup other (entries.filter (·.1 != key)) =
      if other = key then none else entries.lookup other := by
  induction entries with
  | nil => simp
  | cons entry rest ih =>
    obtain ⟨name, value⟩ := entry
    rw [lookup_cons_eq_ite]
    by_cases removed : name = key
    · rw [List.filter_cons_of_neg (by simpa using removed), ih, removed]
      by_cases same : other = key <;> simp [same]
    · rw [List.filter_cons_of_pos (by simpa using removed), lookup_cons_eq_ite, ih]
      by_cases here : other = name <;> simp [here, removed]

theorem mem_of_lookup {key : κ} {value : α} {entries : List (κ × α)}
    (found : entries.lookup key = some value) : (key, value) ∈ entries := by
  obtain ⟨front, back, rfl, _⟩ := List.lookup_eq_some_iff.mp found
  simp

/-- Every entry is found under its key when no key occurs twice. -/
theorem mem_iff_lookup {key : κ} {value : α} {entries : List (κ × α)}
    (distinct : (entries.map Prod.fst).Nodup) :
    (key, value) ∈ entries ↔ entries.lookup key = some value := by
  refine ⟨fun member => ?_, mem_of_lookup⟩
  obtain ⟨front, back, rfl⟩ := List.append_of_mem member
  refine List.lookup_eq_some_iff.mpr ⟨front, back, rfl, fun entry before => ?_⟩
  rw [List.map_append, List.nodup_append] at distinct
  have apart := distinct.2.2 entry.1 (List.mem_map_of_mem before) key (by simp)
  simpa using apart.symm

/-- A list of entries is the entry found under a key and those under other keys. -/
theorem perm_of_lookup {key : κ} {value : α} {entries : List (κ × α)}
    (distinct : (entries.map Prod.fst).Nodup) (found : entries.lookup key = some value) :
    entries.Perm ((key, value) :: entries.filter (·.1 != key)) := by
  obtain ⟨front, back, rfl, before⟩ := List.lookup_eq_some_iff.mp found
  rw [List.map_append, List.map_cons, List.nodup_middle, List.nodup_cons, List.mem_append,
    not_or] at distinct
  have others (rest : List (κ × α)) (absent : key ∉ rest.map Prod.fst) :
      rest.filter (·.1 != key) = rest := by
    refine List.filter_eq_self.mpr fun entry member => ?_
    have apart : entry.1 ≠ key := fun same => absent (same ▸ List.mem_map_of_mem member)
    simpa using apart
  rw [List.filter_append, List.filter_cons_of_neg (by simp), others front distinct.1.1,
    others back distinct.1.2]
  exact List.perm_middle

end NeuralGraph
