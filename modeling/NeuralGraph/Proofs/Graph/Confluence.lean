import NeuralGraph.Proofs.Graph.Connection
import NeuralGraph.Proofs.Graph.Order

/-! Edges that are added one after the other. All of them are accepted just when their slots are
there, every input is free and occurs once, and the old and the new edges have a rank together. None
of this depends on the order of the edges, and neither does the graph that they give, apart from the
order in which an output records its readers. -/

namespace NeuralGraph.Graph

variable {graph other after : Graph} {edges others : List (OutputRef × InputRef)}

/-- Connects one pair of slots after the other, up to the first that is refused. -/
def connectEach (graph : Graph) (edges : List (OutputRef × InputRef)) : Except Error Graph :=
  edges.foldlM (fun graph edge => graph.connect edge.1 edge.2) graph

/-- Records one edge after the other. -/
def linkEach (graph : Graph) (edges : List (OutputRef × InputRef)) : Graph :=
  edges.foldl (fun graph edge => graph.link edge.1 edge.2) graph

theorem connectEach_cons_eq_ok {source : OutputRef} {target : InputRef} :
    graph.connectEach ((source, target) :: edges) = .ok after ↔
      ∃ middle, graph.connect source target = .ok middle ∧ middle.connectEach edges = .ok after := by
  rw [connectEach, List.foldlM_cons]
  exact bind_eq_ok

theorem WellFormed.connectEach (valid : graph.WellFormed)
    (connected : graph.connectEach edges = .ok after) : after.WellFormed := by
  induction edges generalizing graph with
  | nil =>
    cases connected
    exact valid
  | cons edge edges ih =>
    obtain ⟨middle, accepted, rest⟩ := connectEach_cons_eq_ok.mp connected
    exact ih (valid.connect accepted).1 rest

/-- Edges that a graph has room for: their slots are there, no input is taken or meant twice, and the
layers can be ranked along the old edges and the new ones. -/
structure Admits (graph : Graph) (edges : List (OutputRef × InputRef)) : Prop where
  outputs : ∀ edge ∈ edges, graph.HasOutput edge.1
  inputs : ∀ edge ∈ edges, graph.HasInput edge.2
  free : ∀ edge ∈ edges, graph.sourceOf? edge.2 = none
  distinct : (edges.map (·.2)).Nodup
  ranked : ∃ rank, graph.Ranked rank ∧ ∀ edge ∈ edges, rank edge.1.layer < rank edge.2.layer

theorem Admits.perm (admits : graph.Admits edges) (perm : edges.Perm others) :
    graph.Admits others where
  outputs edge member := admits.outputs edge (perm.mem_iff.mpr member)
  inputs edge member := admits.inputs edge (perm.mem_iff.mpr member)
  free edge member := admits.free edge (perm.mem_iff.mpr member)
  distinct := (perm.map (·.2)).nodup_iff.mp admits.distinct
  ranked := by
    obtain ⟨rank, ranked, rising⟩ := admits.ranked
    exact ⟨rank, ranked, fun edge member => rising edge (perm.mem_iff.mpr member)⟩

/-- Edges that are accepted together can be added from the first one on. -/
theorem admits_cons {source : OutputRef} {target : InputRef} (wired : graph.Wired) :
    graph.Admits ((source, target) :: edges) ↔
      (∃ middle, graph.connect source target = .ok middle) ∧
        (graph.link source target).Admits edges := by
  simp only [connect_eq_ok]
  constructor
  · intro admits
    obtain ⟨outputs, inputs, free, distinct, rank, ranked, rising⟩ := admits
    obtain ⟨output, outputs⟩ := List.forall_mem_cons.mp outputs
    obtain ⟨input, inputs⟩ := List.forall_mem_cons.mp inputs
    obtain ⟨vacant, free⟩ := List.forall_mem_cons.mp free
    obtain ⟨fresh, distinct⟩ := List.nodup_cons.mp distinct
    obtain ⟨rises, rising⟩ := List.forall_mem_cons.mp rising
    have noPath : graph.reaches target.layer source.layer = false := by
      rw [← Bool.not_eq_true, reaches_iff]
      exact fun path => Nat.not_lt.mpr (ranked.le_of_path wired path) rises
    have sources : ∀ slot, (graph.link source target).sourceOf? slot =
        if slot = target then some source else graph.sourceOf? slot := sourceOf?_link input
    refine ⟨⟨_, output, input, vacant, noPath, rfl⟩, ⟨?_, ?_, ?_, distinct, rank, ?_, rising⟩⟩
    · simpa using outputs
    · simpa using inputs
    · intro edge member
      have apart : edge.2 ≠ target := fun same => fresh (List.mem_map.mpr ⟨edge, member, same⟩)
      rw [sources, if_neg apart, free edge member]
    · intro reader origin reads
      rw [sources] at reads
      split at reads
      · rename_i same
        cases reads
        exact same ▸ rises
      · exact ranked reader origin reads
  · intro added
    obtain ⟨⟨_, output, input, vacant, _, _⟩, admits⟩ := added
    have sources : ∀ slot, (graph.link source target).sourceOf? slot =
        if slot = target then some source else graph.sourceOf? slot := sourceOf?_link input
    obtain ⟨outputs, inputs, free, distinct, rank, ranked, rising⟩ := admits
    have taken : (graph.link source target).sourceOf? target = some source := by
      rw [sources, if_pos rfl]
    have apart : ∀ edge ∈ edges, edge.2 ≠ target := by
      intro edge member same
      have unread := free edge member
      rw [same, taken] at unread
      cases unread
    refine ⟨?_, ?_, ?_, ?_, rank, ?_, ?_⟩
    · exact List.forall_mem_cons.mpr ⟨output, by simpa using outputs⟩
    · exact List.forall_mem_cons.mpr ⟨input, by simpa using inputs⟩
    · refine List.forall_mem_cons.mpr ⟨vacant, fun edge member => ?_⟩
      have unread := free edge member
      rwa [sources, if_neg (apart edge member)] at unread
    · refine List.nodup_cons.mpr ⟨fun again => ?_, distinct⟩
      obtain ⟨edge, member, same⟩ := List.mem_map.mp again
      exact apart edge member same
    · intro reader origin reads
      refine ranked reader origin ?_
      have other : reader ≠ target := by
        rintro rfl
        rw [vacant] at reads
        cases reads
      rw [sources, if_neg other, reads]
    · exact List.forall_mem_cons.mpr ⟨ranked target source taken, rising⟩

/-- Edges are accepted one after the other exactly where there is room for all of them. -/
theorem WellFormed.connectEach_eq_ok (valid : graph.WellFormed) :
    graph.connectEach edges = .ok after ↔ graph.Admits edges ∧ after = graph.linkEach edges := by
  induction edges generalizing graph with
  | nil =>
    obtain ⟨rank, ranked⟩ := valid.ranked
    have room : graph.Admits [] := ⟨by simp, by simp, by simp, by simp, rank, ranked, by simp⟩
    constructor
    · intro connected
      exact ⟨room, (pure_eq_ok.mp connected).symm⟩
    · intro admitted
      exact pure_eq_ok.mpr admitted.2.symm
  | cons edge edges ih =>
    obtain ⟨source, target⟩ := edge
    rw [connectEach_cons_eq_ok, admits_cons valid.toWired]
    constructor
    · intro connected
      obtain ⟨middle, accepted, rest⟩ := connected
      obtain ⟨_, _, _, _, same⟩ := connect_eq_ok.mp accepted
      obtain ⟨room, final⟩ := (ih (valid.connect accepted).1).mp rest
      subst same
      exact ⟨⟨⟨_, accepted⟩, room⟩, final⟩
    · intro admitted
      obtain ⟨⟨⟨middle, accepted⟩, room⟩, final⟩ := admitted
      obtain ⟨_, _, _, _, same⟩ := connect_eq_ok.mp accepted
      subst same
      exact ⟨_, accepted, (ih (valid.connect accepted).1).mpr ⟨room, final⟩⟩

/-- The given edges more: the inputs have their sources, the outputs have the new readers behind the
old ones, and every layer with a new source is back at the start. -/
structure GainsEach (graph : Graph) (edges : List (OutputRef × InputRef)) (after : Graph) :
    Prop where
  sources : ∀ slot source, after.sourceOf? slot = some source ↔
    (source, slot) ∈ edges ∨ graph.sourceOf? slot = some source
  readers : ∀ slot, after.readersOf slot =
    graph.readersOf slot ++ (edges.filter (·.1 = slot)).map (·.2)
  states : ∀ id, (after.find? id).map (·.state) = ((graph.find? id).map (·.state)).map fun state =>
    if id ∈ edges.map (·.2.layer) then .constructed else state
  rest : AgreeOn Layer.unwired graph after

theorem GainsEach.nil (graph : Graph) : graph.GainsEach [] graph where
  sources := by simp
  readers := by simp
  states id := by simp [Function.comp_def]
  rest := .refl _ _

/-- One edge, and then the others. -/
theorem GainsEach.cons {middle : Graph} {source : OutputRef} {target : InputRef}
    (first : graph.Gains source target middle) (free : graph.sourceOf? target = none)
    (rest : middle.GainsEach edges after) : graph.GainsEach ((source, target) :: edges) after where
  sources slot origin := by
    rw [rest.sources, first.sources, List.mem_cons, Prod.mk.injEq]
    by_cases same : slot = target
    · subst slot
      rw [if_pos rfl, free, Option.some.injEq]
      constructor
      · intro found
        rcases found with later | first
        · exact .inl (.inr later)
        · exact .inl (.inl ⟨first.symm, rfl⟩)
      · intro found
        rcases found with (⟨first, _⟩ | later) | never
        · exact .inr first.symm
        · exact .inl later
        · cases never
    · rw [if_neg same]
      simp only [same, and_false, false_or]
  readers slot := by
    rw [rest.readers, first.readers]
    by_cases same : source = slot
    · subst slot
      simp
    · simp [same, Ne.symm same]
  states id := by
    rw [rest.states, first.states]
    cases graph.find? id with
    | none => rfl
    | some layer =>
      simp only [Option.map_some, List.map_cons, List.mem_cons]
      by_cases later : id ∈ edges.map (·.2.layer) <;> simp [later]
  rest := first.rest.trans rest.rest

theorem WellFormed.gainsEach (valid : graph.WellFormed)
    (connected : graph.connectEach edges = .ok after) : graph.GainsEach edges after := by
  induction edges generalizing graph with
  | nil =>
    cases connected
    exact .nil _
  | cons edge edges ih =>
    obtain ⟨middle, accepted, rest⟩ := connectEach_cons_eq_ok.mp connected
    obtain ⟨output, input, free, _, rfl⟩ := connect_eq_ok.mp accepted
    exact .cons (gains_link output input) free (ih (valid.connect accepted).1 rest)

theorem Ready.of_alike {done : List LayerId} {id : LayerId} (ids : other.ids = graph.ids)
    (feeds : ∀ producer consumer, other.Feeds producer consumer ↔ graph.Feeds producer consumer) :
    other.Ready done id ↔ graph.Ready done id := by
  constructor
  · intro ready
    obtain ⟨stored, waiting, fed⟩ := ready
    exact ⟨ids ▸ stored, waiting, fun producer edge => fed producer ((feeds _ _).mpr edge)⟩
  · intro ready
    obtain ⟨stored, waiting, fed⟩ := ready
    exact ⟨ids ▸ stored, waiting, fun producer edge => fed producer ((feeds _ _).mp edge)⟩

theorem Stable.of_alike {done order : List LayerId} (ids : other.ids = graph.ids)
    (feeds : ∀ producer consumer, other.Feeds producer consumer ↔ graph.Feeds producer consumer)
    (stable : graph.Stable done order) : other.Stable done order := by
  have ready : ∀ done id, other.Ready done id ↔ graph.Ready done id :=
    fun _ _ => Ready.of_alike ids feeds
  have place : other.place = graph.place := by
    funext id
    rw [Graph.place, Graph.place, ids]
  induction stable with
  | nil => exact .nil
  | cons foremost _ ih =>
    refine .cons ⟨(ready _ _).mpr foremost.ready, fun next waits => ?_⟩ ih
    rw [place]
    exact foremost.least next ((ready _ _).mp waits)

/-- Graphs with the same layers and the same edges are scheduled alike, in whatever order their
readers are recorded. -/
theorem WellFormed.topologicalOrder_eq (valid : graph.WellFormed) (otherValid : other.WellFormed)
    (ids : other.ids = graph.ids) (sources : ∀ slot, other.sourceOf? slot = graph.sourceOf? slot) :
    other.topologicalOrder = graph.topologicalOrder := by
  obtain ⟨order, success⟩ := valid.topologicalOrder
  obtain ⟨otherOrder, otherSuccess⟩ := otherValid.topologicalOrder
  have feeds : ∀ producer consumer,
      other.Feeds producer consumer ↔ graph.Feeds producer consumer := by
    intro producer consumer
    rw [otherValid.toWired.feeds_iff, valid.toWired.feeds_iff]
    simp only [sources]
  have length := (topologicalOrder_sound valid.unique success).1.length_eq
  have otherLength := (topologicalOrder_sound otherValid.unique otherSuccess).1.length_eq
  have stable := valid.toWired.mirrored.stable_of_topologicalOrder success
  have otherStable := otherValid.toWired.mirrored.stable_of_topologicalOrder otherSuccess
  have same : otherOrder = order := by
    apply otherStable.unique (stable.of_alike ids feeds)
    rw [otherLength, length, ids]
  rw [success, otherSuccess, same]

/-- Edges that can be connected one after the other can be connected in any order. The graphs agree on
every source, on the readers of every output as a collection, on the states, on the schedule, and on
whatever else layers hold. -/
theorem Reachable.connectEach_perm (reached : graph.Reachable) (perm : edges.Perm others)
    (connected : graph.connectEach edges = .ok after) :
    ∃ other, graph.connectEach others = .ok other ∧
      (∀ slot, other.sourceOf? slot = after.sourceOf? slot) ∧
      (∀ slot, (other.readersOf slot).Perm (after.readersOf slot)) ∧
      (∀ id, (other.find? id).map (·.state) = (after.find? id).map (·.state)) ∧
      other.topologicalOrder = after.topologicalOrder ∧
      AgreeOn Layer.unwired after other := by
  have valid := reached.wellFormed
  obtain ⟨room, _⟩ := valid.connectEach_eq_ok.mp connected
  have accepted := valid.connectEach_eq_ok.mpr ⟨room.perm perm, rfl⟩
  have gains := valid.gainsEach connected
  have otherGains := valid.gainsEach accepted
  have rest := gains.rest.symm.trans otherGains.rest
  have sources : ∀ slot, (graph.linkEach others).sourceOf? slot = after.sourceOf? slot := by
    intro slot
    apply Option.ext
    intro source
    rw [otherGains.sources, gains.sources, perm.mem_iff]
  refine ⟨_, accepted, sources, ?_, ?_, ?_, rest⟩
  · intro slot
    rw [otherGains.readers, gains.readers]
    exact ((perm.symm.filter _).map _).append_left _
  · intro id
    rw [otherGains.states, gains.states]
    simp only [(perm.map (·.2.layer)).mem_iff]
  · exact (valid.connectEach connected).topologicalOrder_eq (valid.connectEach accepted)
      (rest.coarsen (·.id) fun _ => rfl).layers sources

/-- Three layers without edges. -/
def unconnected : Graph :=
  run [.addLayer (.softmax 1) "x", .addLayer (.softmax 1) "y", .addLayer (.softmax 1) "z"] empty

/-- The second reader comes first when its edge does, and it still runs after the first one. -/
theorem unconnected_eitherOrder :
    ∃ after other, unconnected.connectEach [(⟨0, 0⟩, ⟨1, 0⟩), (⟨0, 0⟩, ⟨2, 0⟩)] = .ok after ∧
      unconnected.connectEach [(⟨0, 0⟩, ⟨2, 0⟩), (⟨0, 0⟩, ⟨1, 0⟩)] = .ok other ∧
      other.topologicalOrder = after.topologicalOrder := by
  have reached : unconnected.Reachable := ⟨_, rfl⟩
  obtain ⟨other, accepted, _, _, _, order, _⟩ :=
    reached.connectEach_perm (.swap (⟨0, 0⟩, ⟨2, 0⟩) (⟨0, 0⟩, ⟨1, 0⟩) []) rfl
  exact ⟨_, other, rfl, accepted, order⟩

end NeuralGraph.Graph
