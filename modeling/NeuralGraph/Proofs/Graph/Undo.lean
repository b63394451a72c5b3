import NeuralGraph.Proofs.Graph.Confluence
import NeuralGraph.Proofs.Graph.Refusals

/-! Taking edits back. A graph is determined by its layers without edges, by both copies of the
edges and by the states; an edge that is cut again and a layer that leaves with its inputs give
all of these back. -/

namespace NeuralGraph

namespace Layer

variable {first second : Layer}

private theorem inputs_eq (rest : first.unwired = second.unwired)
    (sources : ∀ index, first.source? index = second.source? index) :
    first.inputs = second.inputs := by
  have counts : first.inputs.length = second.inputs.length := by
    simpa [unwired] using congrArg (·.inputs.length) rest
  refine List.ext_getElem counts fun index inside inside' => ?_
  have slot := sources index
  simp only [source?, List.getElem?_eq_getElem inside, List.getElem?_eq_getElem inside',
    Option.bind_eq_bind, Option.bind_some] at slot
  exact congrArg InputSlot.mk slot

private theorem outputs_eq (rest : first.unwired = second.unwired)
    (readers : ∀ index, first.readers index = second.readers index) :
    first.outputs = second.outputs := by
  have counts : first.outputs.length = second.outputs.length := by
    simpa [unwired] using congrArg (·.outputs.length) rest
  refine List.ext_getElem counts fun index inside inside' => ?_
  have slot := readers index
  have info := congrArg (fun layer : Layer => (layer.outputs[index]?).map (·.info)) rest
  simp only [Layer.readers, unwired, List.getElem?_map, List.getElem?_eq_getElem inside,
    List.getElem?_eq_getElem inside', Option.map_some, Option.getD_some, Option.some.injEq]
    at slot info
  exact congr (congrArg OutputSlot.mk info) slot

/-- What stands on its own, the edges at both ends and the state are all of a layer. -/
theorem eq_of_unwired (rest : first.unwired = second.unwired)
    (sources : ∀ index, first.source? index = second.source? index)
    (readers : ∀ index, first.readers index = second.readers index)
    (states : first.state = second.state) : first = second := by
  have inputs := inputs_eq rest sources
  have outputs := outputs_eq rest readers
  obtain ⟨id, name, kind, _, _, _⟩ := first
  obtain ⟨id', name', kind', _, _, _⟩ := second
  simp only [unwired, Layer.mk.injEq] at rest
  obtain ⟨rfl, rfl, rfl, _⟩ := rest
  cases inputs
  cases outputs
  cases states
  rfl

end Layer

namespace Graph

variable {graph other after : Graph}

/-- The ids in their order and the lookup determine the layers. -/
theorem filterMap_find? (unique : graph.ids.Nodup) :
    graph.ids.filterMap graph.find? = graph.layers :=
  filterMap_find?_key unique

theorem eq_of_unwired (unique : graph.ids.Nodup) (rest : AgreeOn Layer.unwired graph other)
    (sources : ∀ slot, other.sourceOf? slot = graph.sourceOf? slot)
    (readers : ∀ slot, other.readersOf slot = graph.readersOf slot)
    (states : ∀ id, (other.find? id).map (·.state) = (graph.find? id).map (·.state)) :
    other = graph := by
  have ids : other.ids = graph.ids := (rest.coarsen (·.id) fun _ => rfl).layers
  have found : other.find? = graph.find? := by
    funext id
    have shown := rest.find? (·.id) (fun _ => rfl) id
    have state := states id
    cases before : graph.find? id with
    | none => simpa [before] using shown
    | some layer =>
      rw [before] at shown state
      obtain ⟨later, there, same⟩ := Option.map_eq_some_iff.mp shown
      rw [there, Option.map_some, Option.map_some, Option.some.injEq] at state
      rw [there, Layer.eq_of_unwired same (fun index => ?_) (fun index => ?_) state]
      · have slot := sources ⟨id, index⟩
        rwa [sourceOf?_of_find? there, sourceOf?_of_find? before] at slot
      · have slot := readers ⟨id, index⟩
        rwa [readersOf_of_find? there, readersOf_of_find? before] at slot
  have layers : other.layers = graph.layers := by
    rw [← filterMap_find? (ids ▸ unique), ← filterMap_find? unique, ids, found]
  obtain ⟨_, _⟩ := graph
  obtain ⟨_, _⟩ := other
  exact congr (congrArg Graph.mk layers) rest.nextId

theorem states_unlink (graph : Graph) (source : OutputRef) (target : InputRef) (id : LayerId) :
    ((graph.unlink source target).find? id).map (·.state) =
      ((graph.find? id).map (·.state)).map fun state =>
        if id = target.layer then .constructed else state := by
  rw [unlink, find?_modify (fun _ => Layer.id_withSource _ _)]
  simp only [find?_modify (fun _ => Layer.id_mapConsumers _ _)]
  by_cases reads : id = target.layer <;> by_cases feeds : id = source.layer <;>
    simp_all [Option.map_map, Function.comp_def, Layer.withSource, Layer.mapConsumers]

theorem unwired_reset (graph : Graph) (id : LayerId) :
    AgreeOn Layer.unwired graph (graph.reset id) := .modify graph id _ fun _ => rfl

theorem states_reset (graph : Graph) (id other : LayerId) :
    ((graph.reset id).find? other).map (·.state) =
      ((graph.find? other).map (·.state)).map fun state =>
        if other = id then .constructed else state := by
  rw [find?_reset]
  by_cases same : other = id
  · subst other
    simp [Option.map_map, Function.comp_def, Layer.unresolved]
  · simp [same, Function.comp_def]

/-- Cutting an edge that was just recorded leaves only its reader to be validated again. -/
theorem Wired.unlink_link (wired : graph.Wired) {source : OutputRef} {target : InputRef}
    (output : graph.HasOutput source) (input : graph.HasInput target)
    (free : graph.sourceOf? target = none) :
    (graph.link source target).unlink source target = graph.reset target.layer := by
  have gains := gains_link output input
  have linked := wired.link output input free
  have reads : (graph.link source target).sourceOf? target = some source := by
    rw [gains.sources, if_pos rfl]
  have wiring := (agree_reset graph target.layer).wiring_of_unresolved
  have unread : ∀ slot, (graph.readersOf slot).filter (· ≠ target) = graph.readersOf slot := by
    refine fun slot => wired.filter_readersOf fun reader recorded => decide_eq_true ?_
    rintro rfl
    rw [free] at recorded
    cases recorded
  apply eq_of_unwired (wiring.ids ▸ wired.unique)
  · exact (unwired_reset _ _).symm.trans (gains.rest.trans (unwired_unlink _ _ _))
  · intro slot
    rw [sourceOf?_unlink, gains.sources, wiring.sourceOf?]
    split
    · rename_i same
      rw [same, free]
    · rfl
  · intro slot
    rw [linked.readersOf_unlink reads, gains.readers, wiring.readersOf]
    split
    · rw [List.filter_append, unread]
      simp
    · exact unread slot
  · intro id
    rw [states_unlink, gains.states, states_reset, Option.map_map, Option.map_map]
    congr 1
    funext layer
    by_cases here : id = target.layer <;> simp [here]

theorem unwired_unlinkInputs (id : LayerId) (index : Nat) (slots : List InputSlot)
    (graph : Graph) : AgreeOn Layer.unwired graph (graph.unlinkInputs id index slots) := by
  induction slots generalizing graph index with
  | nil => exact .refl _ _
  | cons slot slots ih =>
    rw [unlinkInputs]
    cases slot.source with
    | none => exact ih (index + 1) graph
    | some source => exact (unwired_unlink _ _ _).trans (ih (index + 1) _)

/-- A layer that has not been validated stays so, and the others keep their states. -/
theorem states_unlinkInputs (id : LayerId) (index : Nat) (slots : List InputSlot)
    (start : ∀ state ∈ (graph.find? id).map (·.state), state = .constructed) (other : LayerId) :
    ((graph.unlinkInputs id index slots).find? other).map (·.state) =
      (graph.find? other).map (·.state) := by
  induction slots generalizing graph index with
  | nil => rfl
  | cons slot slots ih =>
    rw [unlinkInputs]
    cases slot.source with
    | none => exact ih (index + 1) start
    | some source =>
      have cut : ∀ other, ((graph.unlink source ⟨id, index⟩).find? other).map (·.state) =
          (graph.find? other).map (·.state) := by
        intro other
        rw [states_unlink]
        split
        · rename_i same
          rw [same]
          exact (Option.map_congr fun state there => (start state there).symm).trans Option.map_id'
        · exact Option.map_id'
      exact (ih (index + 1) (cut id ▸ start)).trans (cut other)

/-- A layer without edges that gets some into its inputs, and then loses all of these, stands as it
did. -/
theorem WellFormed.unlinkInputs_connectEach {edges : List (OutputRef × InputRef)} {id : LayerId}
    {layer : Layer} (valid : graph.WellFormed)
    (free : ∀ index, graph.sourceOf? ⟨id, index⟩ = none)
    (start : ∀ state ∈ (graph.find? id).map (·.state), state = .constructed)
    (into : ∀ edge ∈ edges, edge.2.layer = id)
    (connected : graph.connectEach edges = .ok after) (found : after.find? id = some layer) :
    after.unlinkInputs id 0 layer.inputs = graph := by
  have gains := valid.gainsEach connected
  have afterWired := (valid.connectEach connected).toWired
  have states : ∀ other, (after.find? other).map (·.state) = (graph.find? other).map (·.state) := by
    intro other
    rw [gains.states]
    refine (Option.map_congr fun state there => ?_).trans Option.map_id'
    split
    · rename_i reached
      obtain ⟨edge, member, same⟩ := List.mem_map.mp reached
      exact (start state (by rwa [← into edge member, same])).symm
    · rfl
  have agree : ∀ offset,
      after.sourceOf? ⟨id, 0 + offset⟩ = layer.inputs[offset]?.bind (·.source) := by
    intro offset
    rw [Nat.zero_add, sourceOf?_of_find? found]
    rfl
  obtain ⟨_, _, sources, readers⟩ := unlinkInputs_spec afterWired agree
  apply eq_of_unwired valid.unique
  · exact gains.rest.trans (unwired_unlinkInputs _ _ _ _)
  · intro slot
    rw [sources]
    split
    · rename_i inside
      rw [← inside.1] at free
      exact (free slot.index).symm
    · rename_i outside
      have elsewhere : ∀ source, (source, slot) ∉ edges := fun source member =>
        outside ⟨into _ member, Nat.zero_le _⟩
      apply Option.ext
      intro source
      simp [gains.sources, elsewhere]
  · intro slot
    have old : (graph.readersOf slot).filter
        (fun reader => ¬(reader.layer = id ∧ 0 ≤ reader.index)) = graph.readersOf slot := by
      refine valid.toWired.filter_readersOf fun reader recorded => decide_eq_true ?_
      rintro ⟨rfl, _⟩
      rw [free] at recorded
      cases recorded
    have new : ((edges.filter (·.1 = slot)).map (·.2)).filter
        (fun reader => ¬(reader.layer = id ∧ 0 ≤ reader.index)) = [] := by
      refine List.filter_eq_nil_iff.mpr fun reader member => ?_
      obtain ⟨edge, among, rfl⟩ := List.mem_map.mp member
      simp [into edge (List.mem_of_mem_filter among)]
    rw [readers, gains.readers, List.filter_append, old, new, List.append_nil]
  · intro other
    rw [states_unlinkInputs id 0 layer.inputs (states id ▸ start), states]

theorem without_addLayer (wired : graph.Wired) (kind : LayerKind) (name : String) :
    (graph.addLayer kind name).2.without graph.nextId =
      { graph with nextId := graph.nextId + 1 } := by
  have kept : graph.layers.filter (·.id ≠ graph.nextId) = graph.layers := by
    refine List.filter_eq_self.mpr fun layer member => decide_eq_true ?_
    exact Nat.ne_of_lt (wired.fresh _ (List.mem_map_of_mem member))
  rw [without, addLayer, List.filter_append, kept]
  simp [Layer.new]

/-- A layer that was just added and got edges into its inputs has nothing behind it. -/
theorem WellFormed.consumers_eq_nil {kind : LayerKind} {name : String}
    {edges : List (OutputRef × InputRef)} {layer : Layer} (valid : graph.WellFormed)
    (into : ∀ edge ∈ edges, edge.2.layer = graph.nextId)
    (connected : (graph.addLayer kind name).2.connectEach edges = .ok after)
    (found : after.find? graph.nextId = some layer) : layer.consumers = [] := by
  have added := (valid.addLayer kind name).1
  have gains := added.gainsEach connected
  obtain ⟨wired, rank, ranked⟩ := added.connectEach connected
  rw [wired.consumers_eq_nil_iff found]
  rintro ⟨reader, source, reads, same⟩
  rcases (gains.sources reader source).mp reads with new | old
  · have rises := ranked reader source reads
    rw [same, into _ new] at rises
    exact Nat.lt_irrefl _ rises
  · rw [(placed_addLayer graph kind name).sourceOf? valid.toWired] at old
    exact (valid.toWired.ne_nextId old).1 same

/-- An edge that was just connected can be disconnected, and leaves its reader to be validated again
and nothing else. A layer that was just added, with any edges into it, can be removed, and leaves a
spent id and nothing else: layers, descriptors, states and the orders of layers and of readers are
as they were. -/
theorem Reachable.edits_undone (reached : graph.Reachable) :
    (∀ source target after, graph.connect source target = .ok after →
      after.disconnect target = .ok (source, graph.reset target.layer)) ∧
    ∀ kind name id added, graph.addLayer kind name = (id, added) →
      ∀ edges after, (∀ edge ∈ edges, edge.2.layer = id) → added.connectEach edges = .ok after →
        after.remove id = .ok (.new id kind name, { graph with nextId := id + 1 }) := by
  have valid := reached.wellFormed
  have wired := valid.toWired
  constructor
  · intro source target after accepted
    obtain ⟨output, input, free, _, rfl⟩ := connect_eq_ok.mp accepted
    rw [disconnect_eq_ok, wired.unlink_link output input free]
    exact ⟨(gains_link output input).sources target ▸ if_pos rfl, rfl⟩
  · intro kind name id added same edges after into connected
    obtain rfl : graph.nextId = id := congrArg (·.1) same
    obtain rfl : (graph.addLayer kind name).2 = added := congrArg (·.2) same
    have joins := placed_addLayer graph kind name
    have valid' := (valid.addLayer kind name).1
    have gains := valid'.gainsEach connected
    have new : (graph.addLayer kind name).2.find? graph.nextId =
        some (.new graph.nextId kind name) := by
      rw [joins.find? wired, if_pos rfl]
    obtain ⟨layer, found, _⟩ :=
      gains.rest.symm.exists_counterpart (·.id) (fun _ => rfl) new
    have free : ∀ index, (graph.addLayer kind name).2.sourceOf? ⟨graph.nextId, index⟩ = none := by
      intro index
      rw [sourceOf?_of_find? new, Layer.source?_new]
    have restored : after.unlinkInputs graph.nextId 0 layer.inputs =
        (graph.addLayer kind name).2 := by
      refine valid'.unlinkInputs_connectEach free ?_ into connected found
      rw [new]
      rintro _ ⟨⟩
      rfl
    rw [remove_eq_ok]
    refine ⟨layer, found, valid.consumers_eq_nil into connected found, ?_, ?_⟩
    · rw [restored, new]
    · rw [restored, without_addLayer wired]

/-- The third layer reads the second for a while, and a sum reads the first layer twice. -/
theorem oneEdge_restored :
    (∃ after, oneEdge.connect ⟨1, 0⟩ ⟨2, 0⟩ = .ok after ∧
      after.disconnect ⟨2, 0⟩ = .ok (⟨1, 0⟩, oneEdge.reset 2)) ∧
    ∃ after, (oneEdge.addLayer .addition "sum").2.connectEach
        [(⟨0, 0⟩, ⟨3, 1⟩), (⟨0, 0⟩, ⟨3, 0⟩)] = .ok after ∧
      after.remove 3 = .ok (.new 3 .addition "sum", { oneEdge with nextId := 4 }) := by
  have reached : oneEdge.Reachable := ⟨_, rfl⟩
  obtain ⟨connected, added⟩ := reached.edits_undone
  exact ⟨⟨_, rfl, connected ⟨1, 0⟩ ⟨2, 0⟩ _ rfl⟩,
    ⟨_, rfl, added .addition "sum" 3 _ rfl [(⟨0, 0⟩, ⟨3, 1⟩), (⟨0, 0⟩, ⟨3, 0⟩)] _ (by decide) rfl⟩⟩

end Graph

end NeuralGraph
