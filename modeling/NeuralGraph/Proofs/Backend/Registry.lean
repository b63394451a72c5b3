import Mathlib.Data.List.Induction
import Mathlib.Data.List.Nodup
import NeuralGraph.Backend.Registry
import NeuralGraph.Proofs.Lookup

/-! The order of preference over the whole history of a registry. Registering and reordering keep
every registered backend exactly once, and a table of backends beside a list of ids makes the same
steps. -/

namespace NeuralGraph

namespace Registry

/-- Appends an id that is not there yet. -/
def push (ids : List BackendId) (id : BackendId) : List BackendId :=
  if ids.contains id then ids else ids ++ [id]

section FirstMentions

variable {ids : List BackendId}

theorem eraseDups_concat (ids : List BackendId) (id : BackendId) :
    (ids ++ [id]).eraseDups = push ids.eraseDups id := by
  rw [List.eraseDups_append]
  by_cases known : id ∈ ids <;> simp [push, List.removeAll, List.eraseDups_cons, known]

theorem foldl_push (ids : List BackendId) : ids.foldl push [] = ids.eraseDups := by
  induction ids using List.reverseRecOn with
  | nil => rfl
  | append_singleton ids id ih => rw [List.foldl_concat, ih, eraseDups_concat]

/-- The ids that are left stand in the order of their first mention. -/
theorem eraseDups_pairwise (ids : List BackendId) :
    ids.eraseDups.Pairwise fun first second => ids.idxOf first < ids.idxOf second := by
  induction ids using List.reverseRecOn with
  | nil => exact .nil
  | append_singleton ids id ih =>
    have before : ids.eraseDups.Pairwise fun first second =>
        (ids ++ [id]).idxOf first < (ids ++ [id]).idxOf second := by
      refine ih.imp_of_mem fun first second less => ?_
      rw [List.mem_eraseDups] at first second
      rwa [List.idxOf_append_of_mem first, List.idxOf_append_of_mem second]
    rw [eraseDups_concat, push]
    split
    · exact before
    · rename_i unknown
      rw [List.contains_iff_mem, List.mem_eraseDups] at unknown
      refine List.pairwise_append.mpr ⟨before, List.pairwise_singleton .., ?_⟩
      intro first member last same
      rw [List.mem_eraseDups] at member
      rw [List.mem_singleton.mp same, List.idxOf_append_of_mem member,
        List.idxOf_append_of_notMem unknown]
      exact Nat.lt_add_right _ (List.idxOf_lt_length_iff.mpr member)

theorem eraseDups_nodup (ids : List BackendId) : ids.eraseDups.Nodup := by
  refine List.Pairwise.imp ?_ (eraseDups_pairwise ids)
  rintro first _ less rfl
  exact Nat.lt_irrefl _ less

theorem eraseDups_of_nodup (once : ids.Nodup) : ids.eraseDups = ids := by
  induction ids using List.reverseRecOn with
  | nil => rfl
  | append_singleton ids id ih =>
    obtain ⟨unknown, rest⟩ : id ∉ ids ∧ ids.Nodup :=
      List.nodup_cons.mp (List.nodup_append_comm.mp once)
    simp [eraseDups_concat, ih rest, push, unknown]

theorem eraseDups_filter (ids : List BackendId) (keep : BackendId → Bool) :
    (ids.filter keep).eraseDups = ids.eraseDups.filter keep := by
  induction ids using List.reverseRecOn with
  | nil => rfl
  | append_singleton ids id ih =>
    rw [List.filter_append, eraseDups_concat]
    cases kept : keep id with
    | false => by_cases known : id ∈ ids <;> simp [push, kept, ih, known]
    | true =>
      rw [List.filter_singleton, kept, cond_true, eraseDups_concat, ih]
      by_cases known : id ∈ ids <;> simp [push, kept, known]

/-- What comes later may be cut down to its first mentions beforehand. -/
theorem eraseDups_append_eraseDups (first second : List BackendId) :
    (first ++ second.eraseDups).eraseDups = (first ++ second).eraseDups := by
  rw [List.eraseDups_append, List.eraseDups_append, List.removeAll, List.removeAll,
    ← eraseDups_filter, eraseDups_of_nodup (eraseDups_nodup _)]

end FirstMentions

section Lookup

variable {registry : Registry} {id : BackendId} {backend : Backend}

theorem find?_isSome : (registry.find? id).isSome = true ↔ id ∈ registry.preference := by
  simp [find?, preference, List.find?_isSome]

theorem find?_eq_none : registry.find? id = none ↔ id ∉ registry.preference := by
  rw [← find?_isSome, Option.isSome_iff_ne_none, not_not]

theorem find?_id (found : registry.find? id = some backend) : backend.id = id := by
  simpa using List.find?_some found

theorem find?_eq_some_iff (once : registry.preference.Nodup) :
    registry.find? id = some backend ↔ backend ∈ registry.backends ∧ backend.id = id :=
  find?_key_eq_some_iff once

theorem mem_backends_iff (once : registry.preference.Nodup) :
    backend ∈ registry.backends ↔ registry.find? backend.id = some backend := by
  rw [find?_eq_some_iff once]
  exact (and_iff_left rfl).symm

/-- The ids in their order and the lookup determine the backends. -/
theorem filterMap_find? (once : registry.preference.Nodup) :
    registry.preference.filterMap registry.find? = registry.backends :=
  filterMap_find?_key once

end Lookup

section Register

variable {registry : Registry} {id : BackendId} {backend : Backend}

private theorem replace_id (backend old : Backend) :
    (if old.id = backend.id then backend else old).id = old.id := by
  split
  · rename_i same
    exact same.symm
  · rfl

theorem find?_register (registry : Registry) (backend : Backend) (id : BackendId) :
    (registry.register backend).find? id =
      if id = backend.id then some backend else registry.find? id := by
  unfold register
  split
  · rename_i new
    rw [find?] at new ⊢
    rw [List.find?_append]
    split
    · rename_i same
      rw [same, new]
      simp
    · rename_i other
      simp [find?, Ne.symm other]
  · rename_i old found
    -- Replacing leaves every id where it is, so the search stops at the same place.
    have stops : ((·.id == id) ∘ fun old => if old.id = backend.id then backend else old) =
        (·.id == id) := funext fun old => by simp only [Function.comp, replace_id]
    have mapped : Registry.find? ⟨registry.backends.map fun old =>
        if old.id = backend.id then backend else old⟩ id =
        (registry.find? id).map fun old => if old.id = backend.id then backend else old := by
      rw [find?, List.find?_map, stops, find?]
    rw [mapped]
    split
    · rename_i same
      rw [same, found, Option.map_some, if_pos (find?_id found)]
    · rename_i other
      cases here : registry.find? id with
      | none => rfl
      | some old =>
        rw [Option.map_some, if_neg fun same => other ((find?_id here).symm.trans same)]

theorem preference_register (registry : Registry) (backend : Backend) :
    (registry.register backend).preference = push registry.preference backend.id := by
  unfold register push
  split
  · rename_i new
    rw [if_neg (mt List.contains_iff_mem.mp (find?_eq_none.mp new)), preference, preference,
      List.map_append]
    rfl
  · rename_i old found
    have known : backend.id ∈ registry.preference := find?_isSome.mp (by rw [found]; rfl)
    rw [if_pos (List.contains_iff_mem.mpr known), preference, preference, List.map_map]
    exact List.map_congr_left fun old _ => replace_id backend old

theorem push_nodup {ids : List BackendId} (once : ids.Nodup) (id : BackendId) :
    (push ids id).Nodup := by
  unfold push
  split
  · exact once
  · rename_i unknown
    rw [List.contains_iff_mem] at unknown
    exact List.nodup_append_comm.mp (List.nodup_cons.mpr ⟨unknown, once⟩)

theorem mem_push {ids : List BackendId} {id other : BackendId} :
    other ∈ push ids id ↔ other ∈ ids ∨ other = id := by
  unfold push
  split
  · rename_i known
    rw [List.contains_iff_mem] at known
    exact ⟨.inl, fun member => member.elim (fun member => member) fun same => same ▸ known⟩
  · simp

end Register

section Prefer

variable {registry : Registry}

theorem preference_prefer (registry : Registry) (order : List BackendId) :
    (registry.prefer order).preference =
      order.eraseDups.filter (registry.preference.contains ·) ++
        registry.preference.filter (!order.contains ·) := by
  have listed : ∀ id ∈ order.eraseDups, (registry.find? id).map (·.id) =
      Option.guard (registry.preference.contains ·) id := by
    intro id _
    cases found : registry.find? id with
    | none => simp [Option.guard, find?_eq_none.mp found]
    | some backend =>
      have known : id ∈ registry.preference := find?_isSome.mp (by rw [found]; rfl)
      simp [Option.guard, known, find?_id found]
  rw [prefer, preference, List.map_append, List.map_filterMap, List.filterMap_congr listed,
    List.filterMap_eq_filter, preference, List.filter_map]
  rfl

theorem mem_preference_prefer {order : List BackendId} {id : BackendId} :
    id ∈ (registry.prefer order).preference ↔ id ∈ registry.preference := by
  rw [preference_prefer]
  by_cases listed : id ∈ order <;> simp [listed]

theorem prefer_nodup (once : registry.preference.Nodup) (order : List BackendId) :
    (registry.prefer order).preference.Nodup := by
  rw [preference_prefer]
  refine List.nodup_append.mpr
    ⟨(eraseDups_nodup order).filter _, once.filter _, fun first listed second unlisted same => ?_⟩
  have early : first ∈ order := List.mem_eraseDups.mp (List.mem_filter.mp listed).1
  have late := (List.mem_filter.mp unlisted).2
  rw [← same] at late
  simp [early] at late

theorem mem_prefer (once : registry.preference.Nodup) (order : List BackendId) (backend : Backend) :
    backend ∈ (registry.prefer order).backends ↔ backend ∈ registry.backends := by
  rw [prefer, List.mem_append, List.mem_filterMap, List.mem_filter]
  constructor
  · rintro (⟨_, _, found⟩ | ⟨member, _⟩)
    · exact List.mem_of_find?_eq_some found
    · exact member
  · intro member
    by_cases listed : backend.id ∈ order
    · exact .inl ⟨backend.id, List.mem_eraseDups.mpr listed, (mem_backends_iff once).mp member⟩
    · exact .inr ⟨member, by simpa using listed⟩

theorem find?_prefer (once : registry.preference.Nodup) (order : List BackendId) :
    (registry.prefer order).find? = registry.find? :=
  funext fun id => Option.ext fun backend => by
    rw [find?_eq_some_iff (prefer_nodup once order), find?_eq_some_iff once, mem_prefer once]

end Prefer

/-- The backends by id, and beside them the ids in the order of preference. -/
structure Indexed where
  table : BackendId → Option Backend := fun _ => none
  preference : List BackendId := []

namespace Indexed

/-- Stores a backend. Only an id without one joins the list. -/
def register (indexed : Indexed) (backend : Backend) : Indexed where
  table := Function.update indexed.table backend.id (some backend)
  preference :=
    if (indexed.table backend.id).isSome then indexed.preference
    else indexed.preference ++ [backend.id]

/-- Lists the known ones of the ids and then the former list, each id once. -/
def prefer (indexed : Indexed) (order : List BackendId) : Indexed where
  table := indexed.table
  preference :=
    ((order.filter fun id => (indexed.table id).isSome) ++ indexed.preference).foldl push []

/-- The backends in the order of preference. -/
def listing (indexed : Indexed) : List Backend := indexed.preference.filterMap indexed.table

/-- One list after another orders as the later one followed by the earlier one. -/
theorem prefer_prefer (indexed : Indexed) (first second : List BackendId) :
    (indexed.prefer first).prefer second = indexed.prefer (second ++ first) := by
  simp only [prefer, foldl_push, eraseDups_append_eraseDups, List.filter_append, List.append_assoc]

end Indexed

/-- A registry with its table and its list apart. -/
def indexed (registry : Registry) : Indexed where
  table := registry.find?
  preference := registry.preference

section Indexed

variable {registry other : Registry}

theorem listing_indexed (once : registry.preference.Nodup) :
    registry.indexed.listing = registry.backends := filterMap_find? once

theorem indexed_inj (once : registry.preference.Nodup) (once' : other.preference.Nodup)
    (same : registry.indexed = other.indexed) : registry = other := by
  have listed : registry.backends = other.backends := by
    rw [← listing_indexed once, ← listing_indexed once', same]
  cases registry
  cases other
  exact congrArg Registry.mk listed

theorem indexed_register (registry : Registry) (backend : Backend) :
    (registry.register backend).indexed = registry.indexed.register backend := by
  have table : (registry.register backend).find? =
      Function.update registry.find? backend.id (some backend) := funext fun id => by
    rw [find?_register, Function.update_apply]
  have listed : push registry.preference backend.id =
      if (registry.find? backend.id).isSome then registry.preference
      else registry.preference ++ [backend.id] := by
    simp only [push, List.contains_iff_mem, find?_isSome]
  rw [indexed, table, preference_register, listed]
  rfl

theorem indexed_prefer (once : registry.preference.Nodup) (order : List BackendId) :
    (registry.prefer order).indexed = registry.indexed.prefer order := by
  have known : (fun id => (registry.find? id).isSome) = (registry.preference.contains ·) :=
    funext fun id => by
      rw [Bool.eq_iff_iff, find?_isSome, List.contains_iff_mem]
  have rest : registry.preference.removeAll (order.filter (registry.preference.contains ·)) =
      registry.preference.filter (!order.contains ·) :=
    List.filter_congr fun id member => by simp [member]
  have listed : ((order.filter fun id => (registry.find? id).isSome) ++
      registry.preference).foldl push [] = (registry.prefer order).preference := by
    rw [foldl_push, known, List.eraseDups_append, eraseDups_filter, rest,
      eraseDups_of_nodup (once.filter _), preference_prefer]
  rw [indexed, find?_prefer once, ← listed]
  rfl

theorem prefer_prefer (once : registry.preference.Nodup) (first second : List BackendId) :
    (registry.prefer first).prefer second = registry.prefer (second ++ first) := by
  have once' := prefer_nodup once first
  refine indexed_inj (prefer_nodup once' second) (prefer_nodup once _) ?_
  rw [indexed_prefer once', indexed_prefer once, indexed_prefer once, Indexed.prefer_prefer]

end Indexed

/-- A change to a registry. -/
inductive Change where
  | register (backend : Backend)
  | prefer (order : List BackendId)

def apply (registry : Registry) : Change → Registry
  | .register backend => registry.register backend
  | .prefer order => registry.prefer order

/-- The registry that changes make of the empty one. -/
def after (changes : List Change) : Registry := changes.foldl apply empty

def Indexed.apply (indexed : Indexed) : Change → Indexed
  | .register backend => indexed.register backend
  | .prefer order => indexed.prefer order

def Indexed.after (changes : List Change) : Indexed := changes.foldl Indexed.apply {}

/-- The backend was registered, and nothing later under its id. -/
def Latest (backend : Backend) (changes : List Change) : Prop :=
  ∃ before later, changes = before ++ .register backend :: later ∧
    ∀ other, .register other ∈ later → other.id ≠ backend.id

section Histories

variable {backend : Backend} {changes : List Change}

theorem Latest.concat (latest : Latest backend changes) (change : Change)
    (keeps : ∀ other, change = .register other → other.id ≠ backend.id) :
    Latest backend (changes ++ [change]) := by
  obtain ⟨before, later, rfl, last⟩ := latest
  refine ⟨before, later ++ [change], by simp, fun other member => ?_⟩
  rcases List.mem_append.mp member with earlier | here
  · exact last other earlier
  · exact keeps other (List.mem_singleton.mp here).symm

theorem preference_nodup (changes : List Change) : (after changes).preference.Nodup := by
  induction changes using List.reverseRecOn with
  | nil => exact .nil
  | append_singleton changes change ih =>
    rw [after, List.foldl_concat]
    cases change with
    | register backend =>
      rw [apply, preference_register]
      exact push_nodup ih backend.id
    | prefer order => exact prefer_nodup ih order

theorem indexed_after (changes : List Change) :
    (after changes).indexed = Indexed.after changes := by
  induction changes using List.reverseRecOn with
  | nil => rfl
  | append_singleton changes change ih =>
    rw [after, List.foldl_concat, Indexed.after, List.foldl_concat, ← Indexed.after, ← ih]
    cases change with
    | register backend => exact indexed_register _ backend
    | prefer order => exact indexed_prefer (preference_nodup changes) order

theorem mem_preference_after (changes : List Change) (id : BackendId) :
    id ∈ (after changes).preference ↔
      ∃ backend, .register backend ∈ changes ∧ backend.id = id := by
  induction changes using List.reverseRecOn with
  | nil => simp [after, empty, preference]
  | append_singleton changes change ih =>
    rw [after, List.foldl_concat, ← after]
    cases change with
    | register backend =>
      rw [apply, preference_register, mem_push, ih]
      simp [or_and_right, exists_or, eq_comm]
    | prefer order =>
      rw [apply, mem_preference_prefer, ih]
      simp

theorem latest_of_mem (changes : List Change) :
    ∀ backend ∈ (after changes).backends, Latest backend changes := by
  induction changes using List.reverseRecOn with
  | nil => simp [after, empty]
  | append_singleton changes change ih =>
    have once := preference_nodup changes
    intro backend member
    rw [mem_backends_iff (preference_nodup _)] at member
    rw [after, List.foldl_concat, ← after] at member
    cases change with
    | register new =>
      rw [apply, find?_register] at member
      split at member
      · cases member
        exact ⟨changes, [], rfl, by simp⟩
      · rename_i other
        refine (ih backend ((mem_backends_iff once).mpr member)).concat _ ?_
        rintro _ ⟨⟩
        exact Ne.symm other
    | prefer order =>
      rw [apply, find?_prefer once] at member
      refine (ih backend ((mem_backends_iff once).mpr member)).concat _ ?_
      rintro _ ⟨⟩

end Histories

/-- What a registry promises about its order of preference, after the changes it went through and
through the next ones. -/
structure KeepsPreference (changes : List Change) (registry : Registry) : Prop where
  /-- The table and the list make the same steps. -/
  indexed : registry.indexed = Indexed.after changes
  listing : (Indexed.after changes).listing = registry.backends
  once : registry.preference.Nodup
  registered : ∀ id, id ∈ registry.preference ↔
    ∃ backend, .register backend ∈ changes ∧ backend.id = id
  latest : ∀ backend ∈ registry.backends, Latest backend changes
  register_known : ∀ backend, backend.id ∈ registry.preference →
    (registry.register backend).preference = registry.preference
  register_new : ∀ backend, backend.id ∉ registry.preference →
    (registry.register backend).preference = registry.preference ++ [backend.id]
  /-- Known listed ids come first, by their first mention; the others follow as they stood. -/
  prefer : ∀ order, ∃ front,
    (registry.prefer order).preference = front ++ registry.preference.filter (!order.contains ·) ∧
    (∀ id, id ∈ front ↔ id ∈ order ∧ id ∈ registry.preference) ∧
    front.Pairwise fun first second => order.idxOf first < order.idxOf second
  prefer_prefer : ∀ first second,
    (registry.prefer first).prefer second = registry.prefer (second ++ first)

/-- No history of registering and reordering loses or repeats a backend. -/
theorem after_keepsPreference (changes : List Change) :
    KeepsPreference changes (after changes) where
  indexed := indexed_after changes
  listing := by
    rw [← indexed_after, listing_indexed (preference_nodup changes)]
  once := preference_nodup changes
  registered := mem_preference_after changes
  latest := latest_of_mem changes
  register_known backend known := by
    rw [preference_register, push, if_pos (List.contains_iff_mem.mpr known)]
  register_new backend new := by
    rw [preference_register, push, if_neg fun known => new (List.contains_iff_mem.mp known)]
  prefer order := by
    refine ⟨_, preference_prefer _ order, fun id => ?_, (eraseDups_pairwise order).filter _⟩
    simp [List.mem_eraseDups]
  prefer_prefer := prefer_prefer (preference_nodup changes)

end Registry

end NeuralGraph
