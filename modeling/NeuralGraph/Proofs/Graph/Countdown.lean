import Mathlib.Algebra.BigOperators.Group.List.Basic
import Mathlib.Data.List.Sort
import NeuralGraph.Proofs.Graph.Connection
import NeuralGraph.Proofs.Graph.Order

/-! Scheduling by counting down. Every connected input is counted at its layer, and a layer joins a
queue of places, least place first, when the last of its inputs is served; an order that comes out
short means a cycle. Inputs are counted edge by edge, so a layer may read another one several times,
and the order is the stable topological one. -/

namespace NeuralGraph.Graph

variable {graph : Graph} {done : List LayerId} {id : LayerId}

/-- The edges as the readers record them, layer by layer and slot by slot, as pairs of producer and
reader. -/
def edges (graph : Graph) : List (LayerId × LayerId) :=
  graph.layers.flatMap fun layer => layer.producers.map fun producer => (producer, layer.id)

/-- The place of a layer that has to be there. -/
def placed (graph : Graph) (id : LayerId) : Except Error Nat :=
  if id ∈ graph.ids then .ok (graph.place id) else .error .outOfBounds

/-- By place, the number of connected inputs and the places of the readers, one for each edge. -/
structure Tally where
  unmet : List Nat
  users : List (List Nat)

def Tally.record (graph : Graph) (tally : Tally) (edge : LayerId × LayerId) :
    Except Error Tally := do
  let producer ← graph.placed edge.1
  let reader ← graph.placed edge.2
  return { unmet := tally.unmet.modify reader (· + 1)
           users := tally.users.modify producer (· ++ [reader]) }

def tally (graph : Graph) : Except Error Tally :=
  graph.edges.foldlM (Tally.record graph)
    { unmet := List.replicate graph.ids.length 0, users := List.replicate graph.ids.length [] }

/-- The inputs that are still to be served, by place, and the queue of the layers without any. -/
structure Countdown where
  unmet : List Nat
  queue : List Nat

namespace Countdown

/-- Serves one input of a layer; with the last one, its layer joins the queue. -/
def serve (state : Countdown) (place : Nat) : Except Error Countdown :=
  match state.unmet[place]? with
  | none | some 0 => .error .outOfBounds
  | some (left + 1) => .ok {
      unmet := state.unmet.set place left
      queue := if left = 0 then state.queue.orderedInsert (· ≤ ·) place else state.queue }

theorem serve_eq_ok {state : Countdown} {place left : Nat}
    (there : state.unmet[place]? = some (left + 1)) :
    state.serve place = .ok {
      unmet := state.unmet.set place left
      queue := if left = 0 then state.queue.orderedInsert (· ≤ ·) place else state.queue } := by
  simp only [serve, there]

/-- Inputs to serve and layers in the queue. -/
def work (state : Countdown) : Nat := state.unmet.sum + state.queue.length

theorem work_serve {state next : Countdown} {place : Nat} (served : state.serve place = .ok next) :
    next.work ≤ state.work := by
  unfold serve at served
  split at served
  case h_1 | h_2 => cases served
  case h_3 left there =>
    cases served
    obtain ⟨inside, value⟩ := List.getElem?_eq_some_iff.mp there
    have split : state.unmet.sum = (state.unmet.take place).sum + (left + 1) +
        (state.unmet.drop (place + 1)).sum := by
      conv_lhs => rw [← List.take_append_drop place state.unmet, List.drop_eq_getElem_cons inside]
      simp [value, Nat.add_assoc]
    simp only [work, List.sum_set, if_pos inside, split]
    by_cases last : left = 0
    · simp only [if_pos last, List.orderedInsert_length]
      omega
    · simp only [if_neg last]
      omega

theorem work_serveAll {places : List Nat} {state next : Countdown}
    (served : places.foldlM serve state = .ok next) : next.work ≤ state.work := by
  induction places generalizing state with
  | nil =>
    cases served
    exact Nat.le_refl _
  | cons place places ih =>
    rw [List.foldlM_cons] at served
    cases first : state.serve place with
    | error fault =>
      rw [first] at served
      cases served
    | ok middle =>
      rw [first] at served
      exact Nat.le_trans (ih served) (work_serve first)

/-- Takes the first layer off the queue and serves its readers, until the queue is empty. -/
def drain (ids : List LayerId) (users : List (List Nat)) :
    Countdown → Except Error (List LayerId)
  | ⟨_, []⟩ => .ok []
  | ⟨unmet, place :: queue⟩ =>
    match ids[place]?, users[place]? with
    | some id, some readers =>
      match _ : readers.foldlM serve ⟨unmet, queue⟩ with
      | .ok next => (drain ids users next).map (id :: ·)
      | .error fault => .error fault
    | _, _ => .error .outOfBounds
termination_by state => state.work
decreasing_by
  rename_i served
  have less := work_serveAll served
  simp only [work, List.length_cons] at less ⊢
  omega

theorem drain_nil (ids : List LayerId) (users : List (List Nat)) (unmet : List Nat) :
    drain ids users ⟨unmet, []⟩ = .ok [] := by
  rw [drain]

theorem drain_cons {ids : List LayerId} {users : List (List Nat)} {unmet queue readers : List Nat}
    {place : Nat} {id : LayerId} {next : Countdown} (there : ids[place]? = some id)
    (read : users[place]? = some readers)
    (served : readers.foldlM serve ⟨unmet, queue⟩ = .ok next) :
    drain ids users ⟨unmet, place :: queue⟩ = (drain ids users next).map (id :: ·) := by
  rw [drain]
  simp only [there, read]
  split
  case h_1 also => rw [Except.ok.inj (also.symm.trans served)]
  case h_2 also => cases also.symm.trans served

end Countdown

/-- Counts the inputs, starts with the layers that have none, and refuses an order that comes out
short. -/
def countdown (graph : Graph) : Except Error (List LayerId) := do
  let tally ← graph.tally
  let queue := (List.range tally.unmet.length).filter fun place => tally.unmet[place]? == some 0
  let order ← Countdown.drain graph.ids tally.users ⟨tally.unmet, queue⟩
  if order.length = graph.ids.length then .ok order else .error (.structural .cyclic)

/-- How many inputs of a layer are not served by the layers that are done. -/
def unmet (graph : Graph) (done : List LayerId) (id : LayerId) : Nat :=
  graph.edges.countP fun edge => edge.1 ∉ done && edge.2 == id

/-- The readers of a layer, one for each edge. -/
def users (graph : Graph) (id : LayerId) : List LayerId :=
  (graph.edges.filter (·.1 == id)).map (·.2)

theorem mem_edges {edge : LayerId × LayerId} :
    edge ∈ graph.edges ↔ ∃ layer ∈ graph.layers, layer.id = edge.2 ∧ edge.1 ∈ layer.producers := by
  obtain ⟨producer, reader⟩ := edge
  simp only [edges, List.mem_flatMap, List.mem_map, Prod.mk.injEq]
  constructor
  · rintro ⟨layer, member, _, reads, rfl, same⟩
    exact ⟨layer, member, same, reads⟩
  · rintro ⟨layer, member, same, reads⟩
    exact ⟨layer, member, producer, reads, rfl, same⟩

theorem Mirrored.mem_edges_iff (mirrored : graph.Mirrored) {edge : LayerId × LayerId} :
    edge ∈ graph.edges ↔ graph.Feeds edge.1 edge.2 := by
  rw [mem_edges]
  constructor
  · rintro ⟨layer, member, same, reads⟩
    rw [← same]
    exact (mirrored.mem_producers (mirrored.find?_of_mem member)).mp reads
  · intro feeds
    obtain ⟨layer, found⟩ := exists_find? (mirrored.reader_mem_ids feeds)
    exact ⟨layer, mem_of_find? found, id_of_find? found, (mirrored.mem_producers found).mpr feeds⟩

theorem Mirrored.mem_users (mirrored : graph.Mirrored) {reader : LayerId} :
    reader ∈ graph.users id ↔ graph.Feeds id reader := by
  simp [users, mirrored.mem_edges_iff]

/-- A layer without unmet inputs is one with everything that feeds it done. -/
theorem Mirrored.unmet_eq_zero (mirrored : graph.Mirrored) :
    graph.unmet done id = 0 ↔ ∀ producer, graph.Feeds producer id → producer ∈ done := by
  simp only [unmet, List.countP_eq_zero, mirrored.mem_edges_iff, Prod.forall]
  constructor
  · intro none producer edge
    by_contra undone
    exact none producer id edge (by simp [undone])
  · rintro fed producer reader edge counted
    obtain ⟨undone, rfl⟩ : producer ∉ done ∧ reader = id := by simpa using counted
    exact undone (fed producer edge)

/-- When a layer is done, each of its readers has as many unmet inputs less as it has edges from
it. -/
theorem unmet_eq_add (undone : id ∉ done) (reader : LayerId) :
    graph.unmet done reader =
      graph.unmet (id :: done) reader + (graph.users id).count reader := by
  unfold unmet users
  induction graph.edges with
  | nil => rfl
  | cons edge edges ih =>
    rw [List.countP_cons, List.countP_cons, ih]
    by_cases source : edge.1 = id <;> by_cases target : edge.2 = reader <;>
      by_cases old : edge.1 ∈ done <;> simp_all <;> omega

theorem unmet_cons (undone : id ∉ done) (reader : LayerId) :
    graph.unmet (id :: done) reader = graph.unmet done reader - (graph.users id).count reader := by
  rw [unmet_eq_add undone, Nat.add_sub_cancel]

theorem place_lt (member : id ∈ graph.ids) : graph.place id < graph.ids.length :=
  List.idxOf_lt_length_iff.mpr member

theorem getElem?_place (member : id ∈ graph.ids) : graph.ids[graph.place id]? = some id :=
  List.getElem?_idxOf member

theorem map_getElem?_place {α : Type} (f : LayerId → α) (member : id ∈ graph.ids) :
    (graph.ids.map f)[graph.place id]? = some (f id) := by
  rw [List.getElem?_map, getElem?_place member, Option.map_some]

/-- Changing what a table by place holds for one layer. -/
theorem modify_place {α : Type} (unique : graph.ids.Nodup) (member : id ∈ graph.ids)
    (f : LayerId → α) (change : α → α) :
    (graph.ids.map f).modify (graph.place id) change =
      graph.ids.map fun other => if other = id then change (f other) else f other := by
  refine List.ext_getElem (by simp) fun index inside _ => ?_
  have bound : index < graph.ids.length := by simpa using inside
  have here : graph.place id = index ↔ graph.ids[index] = id := by
    constructor
    · intro same
      simpa [same, bound] using getElem?_place member
    · intro same
      rw [← same]
      exact unique.idxOf_getElem index bound
  rw [List.getElem_modify]
  simp only [List.getElem_map, here]

/-- The tables hold the counts and the readers of every layer. -/
theorem Mirrored.tally_eq_ok (mirrored : graph.Mirrored) :
    graph.tally = .ok {
      unmet := graph.ids.map (graph.unmet [])
      users := graph.ids.map fun id => (graph.users id).map graph.place } := by
  suffices ∀ past rest : List (LayerId × LayerId), past ++ rest = graph.edges →
      rest.foldlM (Tally.record graph) {
        unmet := graph.ids.map fun id => past.countP (·.2 == id)
        users := graph.ids.map fun id =>
          ((past.filter (·.1 == id)).map (·.2)).map graph.place } = .ok {
        unmet := graph.ids.map fun id => graph.edges.countP (·.2 == id)
        users := graph.ids.map fun id =>
          ((graph.edges.filter (·.1 == id)).map (·.2)).map graph.place } by
    have all := this [] graph.edges rfl
    have counts : graph.unmet [] = fun id => graph.edges.countP (·.2 == id) := by
      funext id
      simp [unmet]
    simpa [tally, counts, users, List.map_const'] using all
  intro past rest whole
  induction rest generalizing past with
  | nil =>
    rw [← whole, List.append_nil]
    rfl
  | cons edge rest ih =>
    have feeds := mirrored.mem_edges_iff.mp
      (whole ▸ List.mem_append_right past List.mem_cons_self : edge ∈ graph.edges)
    have reader := mirrored.reader_mem_ids feeds
    have next := ih (past ++ [edge]) (by simpa using whole)
    rw [List.foldlM_cons]
    simp only [Tally.record, placed, if_pos feeds.mem_ids, if_pos reader, bind, pure,
      Except.bind, Except.pure, modify_place mirrored.unique feeds.mem_ids,
      modify_place mirrored.unique reader]
    rw [← next]
    congr 2
    · refine List.map_congr_left fun id _ => ?_
      by_cases same : id = edge.2
      · simp [same]
      · simp [same, Ne.symm same]
    · refine List.map_congr_left fun id _ => ?_
      by_cases same : id = edge.1
      · simp [same]
      · simp [same, Ne.symm same]

/-- The counts are as given, and the queue holds the waiting layers whose count is zero, least place
first. -/
structure Tracks (graph : Graph) (done : List LayerId) (need : LayerId → Nat)
    (state : Countdown) : Prop where
  unmet : state.unmet = graph.ids.map need
  sorted : state.queue.Pairwise (· ≤ ·)
  distinct : state.queue.Nodup
  members : ∀ place, place ∈ state.queue ↔
    ∃ id ∈ graph.ids, graph.place id = place ∧ id ∉ done ∧ need id = 0

theorem Tracks.serve {need : LayerId → Nat} {state : Countdown} (unique : graph.ids.Nodup)
    (tracks : graph.Tracks done need state) (stored : id ∈ graph.ids) (undone : id ∉ done)
    (needed : 0 < need id) :
    ∃ next, state.serve (graph.place id) = .ok next ∧
      graph.Tracks done (fun other => need other - [id].count other) next := by
  obtain ⟨left, count⟩ := Nat.exists_eq_succ_of_ne_zero (Nat.ne_of_gt needed)
  have there : state.unmet[graph.place id]? = some (left + 1) := by
    rw [tracks.unmet, map_getElem?_place need stored, count]
  have set : state.unmet.set (graph.place id) left =
      graph.ids.map fun other => need other - [id].count other := by
    rw [List.set_eq_modify, tracks.unmet, modify_place unique stored]
    refine List.map_congr_left fun other _ => ?_
    by_cases same : other = id
    · simp [same, count]
    · simp [same, Ne.symm same]
  have new : graph.place id ∉ state.queue := fun queued => by
    obtain ⟨other, _, same, _, none⟩ := (tracks.members _).mp queued
    rw [← place_inj stored same.symm, count] at none
    cases none
  have zero : ∀ other, need other - [id].count other = 0 ↔
      need other = 0 ∨ other = id ∧ left = 0 := by
    intro other
    by_cases same : other = id
    · simp [same, count]
    · simp [same, Ne.symm same]
  refine ⟨_, Countdown.serve_eq_ok there, set, ?_, ?_, ?_⟩
  · split
    · exact tracks.sorted.orderedInsert _ _
    · exact tracks.sorted
  · split
    · exact (List.perm_orderedInsert _ _ _).nodup_iff.mpr
        (List.nodup_cons.mpr ⟨new, tracks.distinct⟩)
    · exact tracks.distinct
  · intro place
    simp only [zero]
    by_cases last : left = 0
    · simp only [if_pos last, List.mem_orderedInsert, tracks.members]
      constructor
      · rintro (rfl | ⟨other, member, same, waits, none⟩)
        · exact ⟨id, stored, rfl, undone, .inr ⟨rfl, last⟩⟩
        · exact ⟨other, member, same, waits, .inl none⟩
      · rintro ⟨other, member, same, waits, none | ⟨rfl, _⟩⟩
        · exact .inr ⟨other, member, same, waits, none⟩
        · exact .inl same.symm
    · simp [last, tracks.members]

/-- Serving the inputs of waiting layers, as many of each as it has unmet. -/
theorem Tracks.serveAll {readers : List LayerId} {need : LayerId → Nat} {state : Countdown}
    (unique : graph.ids.Nodup) (tracks : graph.Tracks done need state)
    (pending : ∀ id ∈ readers, id ∈ graph.ids ∧ id ∉ done)
    (enough : ∀ id, readers.count id ≤ need id) :
    ∃ next, (readers.map graph.place).foldlM Countdown.serve state = .ok next ∧
      graph.Tracks done (fun id => need id - readers.count id) next := by
  induction readers generalizing need state with
  | nil => exact ⟨state, rfl, by simpa using tracks⟩
  | cons reader readers ih =>
    obtain ⟨stored, undone⟩ := pending reader List.mem_cons_self
    have needed : 0 < need reader :=
      Nat.lt_of_lt_of_le (List.count_pos_iff.mpr List.mem_cons_self) (enough reader)
    obtain ⟨middle, served, tracks⟩ := tracks.serve unique stored undone needed
    have split : ∀ id, (reader :: readers).count id = [reader].count id + readers.count id :=
      fun id => by rw [← List.count_append, List.singleton_append]
    obtain ⟨next, rest, tracks⟩ := ih tracks
      (fun id member => pending id (List.mem_cons_of_mem _ member)) fun id => by
        have bound := enough id
        rw [split] at bound
        omega
    refine ⟨next, ?_, ?_⟩
    · rw [List.map_cons, List.foldlM_cons, served]
      exact rest
    · simpa only [split, Nat.sub_sub] using tracks

theorem Mirrored.mem_queue (mirrored : graph.Mirrored) {state : Countdown}
    (tracks : graph.Tracks done (graph.unmet done) state) {place : Nat} :
    place ∈ state.queue ↔ ∃ id, graph.place id = place ∧ graph.Ready done id := by
  simp only [tracks.members, mirrored.unmet_eq_zero]
  constructor
  · rintro ⟨id, stored, same, waits, fed⟩
    exact ⟨id, same, stored, waits, fed⟩
  · rintro ⟨id, same, stored, waits, fed⟩
    exact ⟨id, stored, same, waits, fed⟩

/-- The first in the queue is the foremost layer that is ready, and taking it leaves the others. -/
theorem Mirrored.pop (mirrored : graph.Mirrored) {unmet queue : List Nat} {place : Nat}
    (tracks : graph.Tracks done (graph.unmet done) ⟨unmet, place :: queue⟩) :
    ∃ id, graph.place id = place ∧ graph.Foremost done id ∧
      graph.Tracks (id :: done) (graph.unmet done) ⟨unmet, queue⟩ := by
  obtain ⟨id, rfl, ready⟩ := (mirrored.mem_queue tracks).mp List.mem_cons_self
  obtain ⟨first, sorted⟩ := List.pairwise_cons.mp tracks.sorted
  obtain ⟨fresh, distinct⟩ := List.nodup_cons.mp tracks.distinct
  refine ⟨id, rfl, ⟨ready, fun other otherReady => ?_⟩, tracks.unmet, sorted, distinct, ?_⟩
  · rcases List.mem_cons.mp ((mirrored.mem_queue tracks).mpr ⟨other, rfl, otherReady⟩) with
      same | later
    · exact Nat.le_of_eq same.symm
    · exact first _ later
  · intro place
    constructor
    · intro later
      obtain ⟨other, stored, same, waits, none⟩ :=
        (tracks.members place).mp (List.mem_cons_of_mem _ later)
      refine ⟨other, stored, same, fun known => ?_, none⟩
      rcases List.mem_cons.mp known with rfl | old
      · exact fresh (same ▸ later)
      · exact waits old
    · rintro ⟨other, stored, rfl, waits, none⟩
      have queued := (tracks.members _).mpr
        ⟨other, stored, rfl, fun old => waits (List.mem_cons_of_mem _ old), none⟩
      rcases List.mem_cons.mp queued with same | later
      · exact absurd (List.mem_cons.mpr (.inl (place_inj stored same))) waits
      · exact later

/-- One step of the countdown: the foremost layer comes off the queue, and then its readers are
served. -/
theorem Mirrored.step (mirrored : graph.Mirrored) {unmet queue : List Nat} {place : Nat}
    (closed : ∀ id ∈ done, ∀ producer, graph.Feeds producer id → producer ∈ done)
    (tracks : graph.Tracks done (graph.unmet done) ⟨unmet, place :: queue⟩) :
    ∃ id next, graph.place id = place ∧ graph.Foremost done id ∧
      ((graph.users id).map graph.place).foldlM Countdown.serve ⟨unmet, queue⟩ = .ok next ∧
      graph.Tracks (id :: done) (graph.unmet (id :: done)) next := by
  obtain ⟨id, same, foremost, tracks⟩ := mirrored.pop tracks
  have undone := foremost.ready.waiting
  have pending : ∀ reader ∈ graph.users id, reader ∈ graph.ids ∧ reader ∉ id :: done := by
    intro reader member
    have edge := mirrored.mem_users.mp member
    refine ⟨mirrored.reader_mem_ids edge, fun known => undone ?_⟩
    rcases List.mem_cons.mp known with rfl | old
    · exact foremost.ready.fed reader edge
    · exact closed reader old id edge
  obtain ⟨next, served, tracks⟩ := tracks.serveAll mirrored.unique pending
    fun reader => by rw [unmet_eq_add undone]; exact Nat.le_add_left _ _
  refine ⟨id, next, same, foremost, served, ?_⟩
  simpa only [← unmet_cons undone] using tracks

/-- The order drained so far is all that the scheduler finds: it is a schedule if it has every layer
that waited. -/
def Drains (graph : Graph) (done : List LayerId) (fuel : Nat) (state : Countdown) : Prop :=
  ∃ order, Countdown.drain graph.ids
      (graph.ids.map fun id => (graph.users id).map graph.place) state = .ok order ∧
    scheduleFrom fuel done (graph.waiting done) =
      if order.length = (graph.waiting done).length then some order else none

theorem Mirrored.drains_nil (mirrored : graph.Mirrored) {fuel : Nat} {unmet : List Nat}
    (tracks : graph.Tracks done (graph.unmet done) ⟨unmet, []⟩) :
    graph.Drains done fuel ⟨unmet, []⟩ := by
  have stuck : (graph.waiting done).find? (isReady done) = none :=
    mirrored.find?_waiting_eq_none.mpr fun id ready =>
      List.not_mem_nil ((mirrored.mem_queue tracks).mpr ⟨id, rfl, ready⟩)
  refine ⟨[], Countdown.drain_nil _ _ _, ?_⟩
  rw [scheduleFrom_of_stuck stuck]
  cases graph.waiting done <;> rfl

/-- Draining the queue goes as far as the scheduler does. -/
theorem Mirrored.drains (mirrored : graph.Mirrored) {fuel : Nat} {state : Countdown}
    (enough : (graph.waiting done).length ≤ fuel)
    (closed : ∀ id ∈ done, ∀ producer, graph.Feeds producer id → producer ∈ done)
    (tracks : graph.Tracks done (graph.unmet done) state) : graph.Drains done fuel state := by
  obtain ⟨unmet, queue⟩ := state
  induction fuel generalizing done unmet queue with
  | zero =>
    cases queue with
    | nil => exact mirrored.drains_nil tracks
    | cons place queue =>
      obtain ⟨id, _, _, foremost, _⟩ := mirrored.step closed tracks
      obtain ⟨layer, member, rfl⟩ := List.mem_map.mp foremost.ready.stored
      have waits := mem_waiting.mpr ⟨member, foremost.ready.waiting⟩
      exact absurd (List.length_pos_of_mem waits) (Nat.not_lt.mpr enough)
  | succ fuel ih =>
    cases queue with
    | nil => exact mirrored.drains_nil tracks
    | cons place queue =>
      obtain ⟨id, next, rfl, foremost, served, tracks⟩ := mirrored.step closed tracks
      obtain ⟨layer, member, rfl⟩ := List.mem_map.mp foremost.ready.stored
      have chosen := mirrored.find?_waiting_eq_some.mpr ⟨member, foremost⟩
      have waits := List.mem_of_find?_eq_some chosen
      have shorter : (graph.waiting (layer.id :: done)).length + 1 =
          (graph.waiting done).length := by
        rw [waiting_cons mirrored.unique,
          List.length_eraseP_of_mem waits (by simp), Nat.sub_add_cancel]
        exact List.length_pos_of_mem waits
      have stillClosed : ∀ id ∈ layer.id :: done, ∀ producer, graph.Feeds producer id →
          producer ∈ layer.id :: done := by
        intro id known producer edge
        rcases List.mem_cons.mp known with rfl | old
        · exact List.mem_cons_of_mem _ (foremost.ready.fed producer edge)
        · exact List.mem_cons_of_mem _ (closed id old producer edge)
      obtain ⟨order, drained, scheduled⟩ :=
        ih (by omega) stillClosed next.unmet next.queue tracks
      refine ⟨layer.id :: order, ?_, ?_⟩
      · rw [Countdown.drain_cons (getElem?_place foremost.ready.stored)
          (map_getElem?_place _ foremost.ready.stored) served, drained]
        rfl
      · rw [scheduleFrom_of_ready chosen, ← waiting_cons mirrored.unique, scheduled, ← shorter,
          List.length_cons]
        by_cases all : order.length = (graph.waiting (layer.id :: done)).length <;> simp [all]

theorem Mirrored.countdown_eq (mirrored : graph.Mirrored) :
    graph.countdown = graph.topologicalOrder := by
  have tracks : graph.Tracks [] (graph.unmet []) ⟨graph.ids.map (graph.unmet []),
      (List.range (graph.ids.map (graph.unmet [])).length).filter fun place =>
        (graph.ids.map (graph.unmet []))[place]? == some 0⟩ := by
    refine ⟨rfl, ?_, List.nodup_range.filter _, fun place => ?_⟩
    · exact (List.pairwise_lt_range.imp fun less => Nat.le_of_lt less).filter _
    · simp only [List.mem_filter, List.mem_range, List.length_map, List.getElem?_map, beq_iff_eq,
        Option.map_eq_some_iff]
      constructor
      · rintro ⟨inside, id, there, none⟩
        obtain ⟨_, rfl⟩ := List.getElem?_eq_some_iff.mp there
        exact ⟨_, List.getElem_mem inside, mirrored.unique.idxOf_getElem place inside,
          List.not_mem_nil, none⟩
      · rintro ⟨id, stored, rfl, _, none⟩
        exact ⟨place_lt stored, id, getElem?_place stored, none⟩
  have enough : (graph.waiting []).length ≤ graph.layers.length := by simp
  obtain ⟨order, drained, scheduled⟩ := mirrored.drains enough (by simp) tracks
  rw [waiting_nil] at scheduled
  have count : graph.ids.length = graph.layers.length := List.length_map _
  simp only [countdown, mirrored.tally_eq_ok, bind, Except.bind, drained, topologicalOrder,
    scheduled, count]
  by_cases all : order.length = graph.layers.length <;> simp [all]

/-- There is an order exactly where no layer feeds itself, directly or through others, and a cycle
is the only fault. The order has every layer once, behind all that feeds it; each is the one
inserted first among those that are ready after the layers in front of it; no topological order
comes before it, and where insertion order is topological it is that one. Counting inputs down edge
by edge, with a queue of places, gives the same. -/
theorem Mirrored.topologicalOrder_exact (mirrored : graph.Mirrored) :
    ((∃ order, graph.topologicalOrder = .ok order) ↔
      ∀ id, ¬Relation.TransGen graph.Feeds id id) ∧
    (∀ fault, graph.topologicalOrder = .error fault → fault = .structural .cyclic) ∧
    (∀ order, graph.topologicalOrder = .ok order →
      graph.Topological order ∧
      (∀ front id back, order = front ++ id :: back → graph.Foremost front id) ∧
      (∀ other, graph.Topological other → order = other ∨
        List.Lex (fun left right => graph.place left < graph.place right) order other) ∧
      (graph.Topological graph.ids → order = graph.ids)) ∧
    graph.countdown = graph.topologicalOrder := by
  have topological : ∀ order, graph.topologicalOrder = .ok order → graph.Topological order :=
    fun order success => (mirrored.stable_of_topologicalOrder success).topological
      (topologicalOrder_sound mirrored.unique success).1
  refine ⟨⟨?_, mirrored.exists_topologicalOrder⟩, ?_, ?_, mirrored.countdown_eq⟩
  · rintro ⟨order, success⟩
    exact (topological order success).acyclic mirrored
  · intro fault refused
    unfold topologicalOrder at refused
    split at refused
    · cases refused
    · exact (Except.error.inj refused).symm
  · intro order success
    have stable := mirrored.stable_of_topologicalOrder success
    have perm := (topological order success).perm
    refine ⟨topological order success, ?_, ?_, ?_⟩
    · rintro front id back rfl
      exact stable.foremost.congr (by simp)
    · intro other also
      exact stable.least (perm.length_eq.trans also.perm.length_eq.symm)
        (also.perm.nodup_iff.mpr mirrored.unique)
        (fun id member => ⟨also.perm.mem_iff.mp member, List.not_mem_nil⟩)
        fun front id back split producer edge =>
          .inl (also.behind front id back split producer edge)
    · intro inserted
      exact stable.unique (inserted.stable_ids mirrored) perm.length_eq

/-- A reader that was inserted before what it reads, and a layer apart from both. -/
def lateProducers : Graph :=
  run [.addLayer (.softmax 1) "out", .addLayer (.softmax 1) "act", .addLayer (.softmax 1) "in",
    .addLayer (.softmax 1) "apart", .connect ⟨2, 0⟩ ⟨1, 0⟩, .connect ⟨1, 0⟩ ⟨0, 0⟩] empty

theorem feedbackPair_mirrored : feedbackPair.Mirrored where
  unique := by decide
  edges := by
    rintro ⟨source, sourceIndex⟩ ⟨target, targetIndex⟩
    -- the first layer, the second or neither, and the first slot or none
    rcases source with _ | _ | source <;> rcases target with _ | _ | target <;>
      rcases sourceIndex with _ | sourceIndex <;> rcases targetIndex with _ | targetIndex <;>
      simp [feedbackPair, readersOf, sourceOf?, find?, Layer.readers, Layer.source?]

/-- The layers come behind what they read, and the one apart keeps its place behind them; two layers
that read each other have no order. -/
theorem lateProducers_order :
    lateProducers.topologicalOrder = .ok [2, 1, 0, 3] ∧ lateProducers.Foremost [2] 1 ∧
      lateProducers.countdown = .ok [2, 1, 0, 3] ∧
      feedbackPair.topologicalOrder = .error (.structural .cyclic) := by
  have reached : lateProducers.Reachable := ⟨_, rfl⟩
  obtain ⟨_, _, ordered, counted⟩ := reached.wellFormed.toWired.mirrored.topologicalOrder_exact
  obtain ⟨exists_iff, fault, _, _⟩ := feedbackPair_mirrored.topologicalOrder_exact
  have order : lateProducers.topologicalOrder = .ok [2, 1, 0, 3] := by decide +kernel
  refine ⟨order, (ordered _ order).2.1 [2] 1 [0, 3] rfl, counted.trans order, ?_⟩
  cases result : feedbackPair.topologicalOrder with
  | error cause => rw [fault cause result]
  | ok order =>
    have there : feedbackPair.Feeds 0 1 := show 1 ∈ feedbackPair.successors 0 by decide
    have back : feedbackPair.Feeds 1 0 := show 0 ∈ feedbackPair.successors 1 by decide
    exact absurd (.tail (.single there) back) (exists_iff.mp ⟨order, result⟩ 0)

end NeuralGraph.Graph
