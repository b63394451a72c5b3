import NeuralGraph.Proofs.Graph.Connection
import NeuralGraph.Proofs.Graph.InPlace
import NeuralGraph.Proofs.Graph.Order

/-! Splicing a layer into edges. Whether a layer is spliced in before an input slot or behind an
output slot, it takes over readers of one output and becomes a reader of that output itself; edges
elsewhere and what other layers hold stay. So insertion order stays topological, and a graph stays
valid when the new layer keeps shapes. -/

namespace NeuralGraph

namespace LayerKind

variable {kind : LayerKind}

/-- Kinds without parameters to check, whose output has the shape of their input. -/
inductive KeepsShape : LayerKind → Prop where
  | activation (activation : Activation) : KeepsShape (.activation activation)
  | softmax (beta : Float32) : KeepsShape (.softmax beta)

theorem KeepsShape.inferShapes (keeps : kind.KeepsShape) (shape : Shape) :
    kind.inferShapes [shape] = .ok [shape] := by
  cases keeps <;> rfl

theorem KeepsShape.checkParameters (keeps : kind.KeepsShape) : kind.checkParameters = .ok () := by
  cases keeps <;> rfl

theorem KeepsShape.slots (keeps : kind.KeepsShape) :
    kind.inputCount = 1 ∧ kind.outputCount = 1 := by
  cases keeps <;> exact ⟨rfl, rfl⟩

end LayerKind

theorem Layer.kind_of_unwired {first second : Layer} (same : first.unwired = second.unwired) :
    first.kind = second.kind := by
  have kinds : first.unwired.kind = second.unwired.kind := by rw [same]
  exact kinds

theorem Layer.map_info_unwired (layer : Layer) :
    layer.unwired.outputs.map (·.info) = layer.outputs.map (·.info) := by
  simp [unwired, Function.comp_def]

theorem Layer.map_info_of_unwired {first second : Layer} (same : first.unwired = second.unwired) :
    first.outputs.map (·.info) = second.outputs.map (·.info) := by
  rw [← map_info_unwired, same, map_info_unwired]

theorem Layer.length_inputs_of_unwired {first second : Layer}
    (same : first.unwired = second.unwired) : first.inputs.length = second.inputs.length := by
  have lengths := congrArg (fun layer : Layer => layer.inputs.length) same
  simpa [unwired] using lengths

namespace Graph

variable {graph placed after : Graph} {source : OutputRef} {moved : List InputRef}
  {kind : LayerKind} {name : String} {id : LayerId}

theorem unwired_moveConsumers (source target : OutputRef) (readers : List InputRef)
    (graph : Graph) : AgreeOn Layer.unwired graph (graph.moveConsumers source target readers) := by
  induction readers generalizing graph with
  | nil => exact .refl _ _
  | cons reader rest ih =>
    exact ((unwired_unlink graph source reader).trans (unwired_link _ target reader)).trans (ih _)

/-- The readers that move stand behind those that the slot has already, in their old order. -/
theorem readersOf_moveConsumers {target : OutputRef} (apart : source ≠ target)
    (readers : List InputRef) {graph : Graph} (output : graph.HasOutput target) (slot : OutputRef) :
    (graph.moveConsumers source target readers).readersOf slot =
      if slot = source then (graph.readersOf source).filter (· ∉ readers)
      else if slot = target then graph.readersOf target ++ readers
      else graph.readersOf slot := by
  induction readers generalizing graph with
  | nil =>
    by_cases first : slot = source
    · simp [moveConsumers, first]
    · by_cases second : slot = target <;> simp [moveConsumers, first, second, apart.symm]
  | cons reader rest ih =>
    have left : (graph.unlink source reader).HasOutput target := by simpa using output
    rw [moveConsumers, ih (by simpa using output)]
    simp only [readersOf_link left, readersOf_unlink, if_neg apart, if_neg apart.symm, ↓reduceIte]
    by_cases first : slot = source
    · simp [first, List.filter_filter, Bool.and_comm]
    · by_cases second : slot = target <;> simp [first, second, apart.symm]

/-- A layer of the given kind has come between an output slot and some of its readers. Its output
takes them over, in their order, with a copy of the descriptor, and its input is one more reader of
the slot; edges elsewhere, and kinds and descriptors of all other layers, are as they were. -/
structure Splices (graph : Graph) (source : OutputRef) (moved : List InputRef) (kind : LayerKind)
    (name : String) (after : Graph) : Prop where
  former : ∀ slot ∈ moved, graph.sourceOf? slot = some source
  sources : ∀ slot, after.sourceOf? slot =
    if slot = ⟨graph.nextId, 0⟩ then some source
    else if slot ∈ moved then some ⟨graph.nextId, 0⟩ else graph.sourceOf? slot
  readers : ∀ slot, after.readersOf slot =
    if slot = source then (graph.readersOf source).filter (· ∉ moved) ++ [⟨graph.nextId, 0⟩]
    else if slot = ⟨graph.nextId, 0⟩ then moved else graph.readersOf slot
  layer : (after.find? graph.nextId).map Layer.unwired =
    some ((Layer.new graph.nextId kind name).withInfo 0 (graph.slotInfo? source)).unwired
  info : after.slotInfo? ⟨graph.nextId, 0⟩ = graph.slotInfo? source
  others : ∀ id ≠ graph.nextId,
    (after.find? id).map Layer.unwired = (graph.find? id).map Layer.unwired

theorem slotInfo?_of_unwired {slot : OutputRef}
    (same : (after.find? slot.layer).map Layer.unwired =
      (graph.find? slot.layer).map Layer.unwired) :
    after.slotInfo? slot = graph.slotInfo? slot := by
  have shown : ∀ graph : Graph, graph.slotInfo? slot =
      ((graph.find? slot.layer).map Layer.unwired).bind fun layer =>
        (layer.outputs.map (·.info))[slot.index]?.join := by
    intro graph
    cases found : graph.find? slot.layer with
    | none => simp [slotInfo?, found]
    | some layer =>
      rw [slotInfo?_of_find? found, Option.map_some, Option.bind_some, Layer.map_info_unwired,
        List.getElem?_map]
      cases layer.outputs[slot.index]? <;> rfl
  rw [shown, shown, same]

theorem Placed.splices
    (joins : graph.Placed ((Layer.new graph.nextId kind name).withInfo 0 (graph.slotInfo? source))
      placed)
    (wired : graph.Wired) (fits : kind.inputCount = 1 ∧ kind.outputCount = 1)
    (output : graph.HasOutput source) (distinct : moved.Nodup)
    (former : ∀ slot ∈ moved, graph.sourceOf? slot = some source) :
    graph.Splices source moved kind name (graph.reroute placed source moved) := by
  obtain ⟨_, newOutput⟩ := joins.spliced wired fits
  have absent : graph.find? graph.nextId = none :=
    find?_eq_none_iff.mpr fun old => Nat.lt_irrefl _ (wired.fresh _ old)
  have apart : source ≠ ⟨graph.nextId, 0⟩ := by
    rintro rfl
    obtain ⟨_, found, _⟩ := output
    rw [absent] at found
    cases found
  have oldSlot : (placed.moveConsumers source ⟨graph.nextId, 0⟩ moved).HasOutput source := by
    simpa using joins.hasOutput wired output
  have agree : AgreeOn Layer.unwired placed (graph.reroute placed source moved) :=
    (unwired_moveConsumers _ _ _ _).trans (unwired_link _ _ _)
  have shown := agree.find? (·.id) fun _ => rfl
  refine ⟨former, (joins.wired_reroute wired fits output distinct former).2, ?_, ?_, ?_, ?_⟩
  · intro slot
    have unread : graph.readersOf ⟨graph.nextId, 0⟩ = [] := by
      simp [Graph.readersOf, absent]
    rw [reroute, readersOf_link oldSlot, readersOf_moveConsumers apart moved newOutput,
      readersOf_moveConsumers apart moved newOutput, joins.readersOf wired, joins.readersOf wired,
      joins.readersOf wired, unread]
    by_cases here : slot = source
    · rw [if_pos here, if_pos here, if_pos rfl]
    · rw [if_neg here, if_neg here, if_neg here, List.nil_append]
  · rw [shown, joins.find? wired, if_pos rfl]
    rfl
  · have found := joins.find? wired graph.nextId
    rw [if_pos rfl] at found
    rw [slotInfo?_of_unwired (shown _), slotInfo?_of_find? found]
    simp [Layer.withInfo, Layer.new, fits]
  · intro id old
    rw [shown, joins.find? wired, if_neg old]

theorem idxOf_lt_length_front {front back : List LayerId} :
    (front ++ back).idxOf id < front.length ↔ id ∈ front := by
  by_cases early : id ∈ front
  · simpa [early, List.idxOf_append_of_mem early] using List.idxOf_lt_length_iff.mpr early
  · simp [early, List.idxOf_append_of_notMem early]

/-- Insertion order is topological where every edge leads to a later place. -/
theorem Mirrored.topological_ids (mirrored : graph.Mirrored)
    (rising : ∀ producer consumer, graph.Feeds producer consumer →
      graph.place producer < graph.place consumer) : graph.Topological graph.ids where
  perm := .refl _
  behind := by
    intro front id back split producer edge
    have distinct : (front ++ id :: back).Nodup := split ▸ mirrored.unique
    have fresh : id ∉ front := fun member =>
      (List.nodup_append.mp distinct).2.2 id member id List.mem_cons_self rfl
    have before := rising producer id edge
    rw [place, place, split, List.idxOf_append_of_notMem fresh, List.idxOf_cons_self] at before
    exact idxOf_lt_length_front.mp before

/-- What stands in front of a new id keeps its place; everything behind it moves up. -/
theorem idxOf_insert {front back : List LayerId} {fresh : LayerId} (other : id ≠ fresh) :
    (front ++ fresh :: back).idxOf id =
      if (front ++ back).idxOf id < front.length then (front ++ back).idxOf id
      else (front ++ back).idxOf id + 1 := by
  simp only [idxOf_lt_length_front]
  by_cases early : id ∈ front
  · rw [if_pos early, List.idxOf_append_of_mem early, List.idxOf_append_of_mem early]
  · rw [if_neg early, List.idxOf_append_of_notMem early, List.idxOf_append_of_notMem early,
      List.idxOf_cons_ne _ (Ne.symm other)]
    omega

/-- A new layer that stands behind what it reads and in front of what reads it keeps insertion order
topological. -/
theorem Splices.topological (splices : graph.Splices source moved kind name after)
    (wired : graph.Wired) (afterWired : after.Wired) {front back : List LayerId}
    (split : graph.ids = front ++ back) (joined : after.ids = front ++ graph.nextId :: back)
    (earlier : source.layer ∈ front) (later : ∀ slot ∈ moved, slot.layer ∉ front)
    (topological : graph.Topological graph.ids) : after.Topological after.ids := by
  have inFront : ∀ id, graph.place id < front.length ↔ id ∈ front := by
    intro id
    rw [place, split, idxOf_lt_length_front]
  have fresh : graph.nextId ∉ front := by
    intro member
    exact Nat.lt_irrefl _ (wired.fresh _ (split ▸ List.mem_append_left _ member))
  have newPlace : after.place graph.nextId = front.length := by
    rw [place, joined, List.idxOf_append_of_notMem fresh, List.idxOf_cons_self]
    omega
  have oldPlace : ∀ id ≠ graph.nextId, after.place id =
      if graph.place id < front.length then graph.place id else graph.place id + 1 := by
    intro id old
    rw [place, place, joined, split, idxOf_insert old]
  apply afterWired.mirrored.topological_ids
  intro producer consumer edge
  obtain ⟨slot, origin, reads, rfl, rfl⟩ := afterWired.feeds_iff.mp edge
  rw [splices.sources] at reads
  split at reads
  · rename_i entry
    cases reads
    subst entry
    have old : source.layer ≠ graph.nextId := fun same => fresh (same ▸ earlier)
    have before := (inFront source.layer).mpr earlier
    rw [newPlace, oldPlace _ old, if_pos before]
    exact before
  · split at reads
    · rename_i member
      cases reads
      have old := (wired.ne_nextId (splices.former slot member)).2
      have behind := (inFront slot.layer).not.mpr (later slot member)
      rw [newPlace, oldPlace _ old, if_neg behind]
      omega
    · obtain ⟨originOld, slotOld⟩ := wired.ne_nextId reads
      have rises : graph.place origin.layer < graph.place slot.layer :=
        topological.lt_of_feeds wired.mirrored
          (wired.feeds_iff.mpr ⟨slot, origin, reads, rfl, rfl⟩)
      rw [oldPlace _ originOld, oldPlace _ slotOld]
      split <;> split <;> omega

theorem ids_placeBefore {anchor : LayerId} {layers : List Layer} (layer : Layer)
    (stored : anchor ∈ layers.map (·.id)) :
    ∃ front back, layers.map (·.id) = front ++ anchor :: back ∧
      (placeBefore anchor layer layers).map (·.id) = front ++ layer.id :: anchor :: back := by
  induction layers with
  | nil => cases stored
  | cons head rest ih =>
    by_cases here : head.id = anchor
    · exact ⟨[], rest.map (·.id), by simp [here], by simp [placeBefore, here]⟩
    · obtain ⟨front, back, split, joined⟩ :=
        ih ((List.mem_cons.mp stored).resolve_left (Ne.symm here))
      exact ⟨head.id :: front, back, by simp [split], by simp [placeBefore, here, joined]⟩

theorem ids_placeAfter {anchor : LayerId} {layers : List Layer} (layer : Layer)
    (stored : anchor ∈ layers.map (·.id)) :
    ∃ front back, layers.map (·.id) = front ++ anchor :: back ∧
      (placeAfter anchor layer layers).map (·.id) = front ++ anchor :: layer.id :: back := by
  induction layers with
  | nil => cases stored
  | cons head rest ih =>
    by_cases here : head.id = anchor
    · exact ⟨[], rest.map (·.id), by simp [here], by simp [placeAfter, here]⟩
    · obtain ⟨front, back, split, joined⟩ :=
        ih ((List.mem_cons.mp stored).resolve_left (Ne.symm here))
      exact ⟨head.id :: front, back, by simp [split], by simp [placeAfter, here, joined]⟩

/-- Inserting before an input slot splices the layer in between that slot and what feeds it, at the
place right before the layer that reads. -/
theorem WellFormed.insertBefore_splices (valid : graph.WellFormed) {target : InputRef}
    (accepted : graph.insertBefore target kind name = .ok (id, after)) :
    id = graph.nextId ∧ (∃ front back, graph.ids = front ++ target.layer :: back ∧
        after.ids = front ++ id :: target.layer :: back) ∧
      ∃ source, graph.sourceOf? target = some source ∧
        graph.Splices source [target] kind name after := by
  have wired := valid.toWired
  obtain ⟨fits, rfl, source, reads, rfl⟩ := wired.insertBefore_reroutes accepted
  obtain ⟨consumer, found, _⟩ := HasInput.of_sourceOf? reads
  refine ⟨rfl, ?_, source, reads, ?_⟩
  · rw [ids_reroute]
    exact ids_placeBefore _ (mem_ids_of_find? found)
  · apply (placed_placedBefore graph _ kind name _).splices wired fits (wired.hasOutput reads)
      (List.nodup_singleton target)
    intro slot member
    rw [List.mem_singleton.mp member, reads]

/-- Inserting behind an output slot splices the layer in between that slot and all of its readers,
at the place right after the layer that it belongs to. -/
theorem WellFormed.insertAfter_splices (valid : graph.WellFormed)
    (accepted : graph.insertAfter source kind name = .ok (id, after)) :
    id = graph.nextId ∧ (∃ front back, graph.ids = front ++ source.layer :: back ∧
        after.ids = front ++ source.layer :: id :: back) ∧
      graph.HasOutput source ∧
        graph.Splices source (graph.readersOf source) kind name after := by
  have wired := valid.toWired
  obtain ⟨fits, rfl, output, rfl⟩ := insertAfter_reroutes accepted
  refine ⟨rfl, ?_, output, ?_⟩
  · obtain ⟨producer, found, _⟩ := output
    rw [ids_reroute]
    exact ids_placeAfter _ (mem_ids_of_find? found)
  · apply (placed_placedAfter graph _ kind name _).splices wired fits output
      (wired.nodup_readersOf source)
    exact fun slot member => wired.mem_readersOf.mp member

theorem WellFormed.insertBefore_topological (valid : graph.WellFormed) {target : InputRef}
    (accepted : graph.insertBefore target kind name = .ok (id, after))
    (topological : graph.Topological graph.ids) : after.Topological after.ids := by
  have wired := valid.toWired
  have afterWired := (valid.insertBefore accepted).1.toWired
  obtain ⟨rfl, ⟨front, back, split, joined⟩, source, reads, splices⟩ :=
    valid.insertBefore_splices accepted
  have edge : graph.Feeds source.layer target.layer :=
    wired.feeds_iff.mpr ⟨target, source, reads, rfl, rfl⟩
  have distinct : (front ++ target.layer :: back).Nodup := split ▸ wired.unique
  apply splices.topological wired afterWired split joined _ _ topological
  · exact topological.behind front target.layer back split source.layer edge
  · intro slot member early
    rw [List.mem_singleton.mp member] at early
    exact (List.nodup_append.mp distinct).2.2 _ early _ List.mem_cons_self rfl

theorem WellFormed.insertAfter_topological (valid : graph.WellFormed)
    (accepted : graph.insertAfter source kind name = .ok (id, after))
    (topological : graph.Topological graph.ids) : after.Topological after.ids := by
  have wired := valid.toWired
  have afterWired := (valid.insertAfter accepted).1.toWired
  obtain ⟨rfl, ⟨front, back, split, joined⟩, _, splices⟩ := valid.insertAfter_splices accepted
  have distinct : (front ++ source.layer :: back).Nodup := split ▸ wired.unique
  have sourcePlace : ¬graph.ids.idxOf source.layer < front.length := by
    rw [split, idxOf_lt_length_front]
    intro again
    exact (List.nodup_append.mp distinct).2.2 _ again _ List.mem_cons_self rfl
  rw [List.append_cons] at split joined
  apply splices.topological wired afterWired split joined _ _ topological
  · exact List.mem_append_right _ (List.mem_singleton_self _)
  · intro slot member early
    have edge : graph.Feeds source.layer slot.layer :=
      wired.feeds_iff.mpr ⟨slot, source, splices.former slot member, rfl, rfl⟩
    -- a reader in front of the new layer would not stand behind what it reads
    have rises := topological.lt_of_feeds wired.mirrored edge
    have slotPlace : graph.ids.idxOf slot.layer < (front ++ [source.layer]).length := by
      rw [split, idxOf_lt_length_front]
      exact early
    rw [List.length_append, List.length_singleton] at slotPlace
    omega

/-- The descriptor that flows into an input slot. -/
def flow? (graph : Graph) (slot : InputRef) : Option TensorInfo :=
  (graph.sourceOf? slot).bind graph.slotInfo?

theorem map_flow_of_find? {layer : Layer} (found : graph.find? id = some layer) :
    layer.inputs.map (·.source.bind graph.slotInfo?) =
      (List.range layer.inputs.length).map fun index => graph.flow? ⟨id, index⟩ := by
  apply List.ext_getElem?
  intro index
  by_cases inside : index < layer.inputs.length
  · have reads : graph.sourceOf? ⟨id, index⟩ = layer.source? index := sourceOf?_of_find? found
    simp [flow?, reads, Layer.source?, inside]
  · simp [inside]

/-- A layer passes in every graph in which the same descriptors flow into it. -/
theorem Passes.of_unwired {layer twin : Layer} {inputs : List TensorInfo} {declared : List Shape}
    (passes : graph.Passes layer inputs declared) (same : twin.unwired = layer.unwired)
    (flows : twin.inputs.map (·.source.bind after.slotInfo?) =
      layer.inputs.map (·.source.bind graph.slotInfo?)) : after.Passes twin inputs declared := by
  apply passes.of_flows (Layer.kind_of_unwired same) (Layer.map_info_of_unwired same)
  rw [layerInputInfos_eq_ok, flows]
  exact layerInputInfos_eq_ok.mp passes.flows

/-- What flows into the layers that were there is what has flowed into them before: a slot that is
fed anew gets a copy. -/
theorem Splices.flow? (splices : graph.Splices source moved kind name after) (wired : graph.Wired)
    {slot : InputRef} (old : slot.layer ≠ graph.nextId) : after.flow? slot = graph.flow? slot := by
  have apart : slot ≠ ⟨graph.nextId, 0⟩ := fun same => old (congrArg (·.layer) same)
  rw [Graph.flow?, Graph.flow?, splices.sources, if_neg apart]
  split
  · rename_i member
    rw [splices.former slot member]
    exact splices.info
  · cases reads : graph.sourceOf? slot with
    | none => rfl
    | some origin => exact slotInfo?_of_unwired (splices.others _ (wired.ne_nextId reads).1)

theorem Splices.passes_of_old (splices : graph.Splices source moved kind name after)
    (wired : graph.Wired) (old : id ≠ graph.nextId)
    (passes : ∀ layer, graph.find? id = some layer →
      ∃ inputs declared, graph.Passes layer inputs declared)
    {layer : Layer} (found : after.find? id = some layer) :
    ∃ inputs declared, after.Passes layer inputs declared := by
  have same := splices.others id old
  rw [found] at same
  obtain ⟨twin, stored, twins⟩ := Option.map_eq_some_iff.mp same.symm
  obtain ⟨inputs, declared, pass⟩ := passes twin stored
  refine ⟨inputs, declared, pass.of_unwired twins.symm ?_⟩
  rw [map_flow_of_find? found, map_flow_of_find? stored, Layer.length_inputs_of_unwired twins]
  exact List.map_congr_left fun index _ => splices.flow? wired old

theorem Splices.passes_of_new (splices : graph.Splices source moved kind name after)
    (keeps : kind.KeepsShape) (old : source.layer ≠ graph.nextId) {info : TensorInfo}
    (carries : graph.slotInfo? source = some info) {layer : Layer}
    (found : after.find? graph.nextId = some layer) :
    after.Passes layer [info] [info.shape] := by
  have same := splices.layer
  rw [found, Option.map_some, Option.some.injEq] at same
  obtain ⟨oneInput, oneOutput⟩ := keeps.slots
  have kinds : layer.kind = kind := Layer.kind_of_unwired same
  have infos : layer.outputs.map (·.info) = [some info] := by
    rw [Layer.map_info_of_unwired same, carries]
    simp [Layer.withInfo, Layer.new, oneOutput]
  have inputs : layer.inputs.length = 1 := by
    rw [Layer.length_inputs_of_unwired same]
    simp [Layer.withInfo, Layer.new, oneInput]
  have flow : after.flow? ⟨graph.nextId, 0⟩ = some info := by
    rw [Graph.flow?, splices.sources, if_pos rfl, Option.bind_some,
      slotInfo?_of_unwired (splices.others _ old), carries]
  refine ⟨?_, kinds ▸ keeps.checkParameters, ?_, fun _ => ⟨[info.shape], ?_, ?_⟩⟩
  · rw [layerInputInfos_eq_ok, map_flow_of_find? found, inputs]
    simp [flow]
  · have shapes := congrArg (List.map (Option.map (·.shape))) infos
    rw [List.map_map] at shapes
    exact declaredShapes_eq_ok.mpr shapes.symm
  · rw [inferOutputs_eq_ok, kinds]
    exact keeps.inferShapes info.shape
  · exact firstMismatch?_self 0 _

/-- A graph that validation accepts is still accepted once a layer that keeps shapes is in it. -/
theorem Splices.validate (splices : graph.Splices source moved kind name after)
    (valid : graph.WellFormed) (afterValid : after.WellFormed) (output : graph.HasOutput source)
    (keeps : kind.KeepsShape) (success : graph.validate.2 = .ok ()) :
    after.validate.2 = .ok () := by
  have passes := valid.validate_eq_ok.mp success
  obtain ⟨producer, stored, inside⟩ := output
  obtain ⟨_, _, pass⟩ := passes source.layer producer stored
  obtain ⟨info, carries⟩ := pass.exists_slotInfo? stored inside
  have old : source.layer ≠ graph.nextId :=
    Nat.ne_of_lt (valid.fresh _ (mem_ids_of_find? stored))
  apply afterValid.validate_eq_ok.mpr
  intro id layer found
  by_cases new : id = graph.nextId
  · subst new
    exact ⟨_, _, splices.passes_of_new keeps old carries found⟩
  · exact splices.passes_of_old valid.toWired new (passes id) found

/-- What validation leaves of a graph that it accepts, it accepts again. -/
theorem WellFormed.validate_again (valid : graph.WellFormed) (success : graph.validate.2 = .ok ()) :
    graph.validate.1.validate.2 = .ok () := by
  have agree := agree_validate graph
  apply (agree.wiring_of_unresolved.wellFormed valid).validate_eq_ok.mpr
  intro id layer found
  exact agree.symm.exists_passes (fun stored => valid.validate_ok success stored) found

/-- Inserting a layer rewires one place. Before an input slot, the layer comes in between that slot
and what feeds it; behind an output slot, it takes over all the readers. Nothing else changes, a
topological insertion order stays one, and where the kind keeps shapes, a graph that validates does
so afterwards. -/
theorem Reachable.insert_exact (reached : graph.Reachable) (kind : LayerKind) (name : String) :
    (∀ target id after, graph.insertBefore target kind name = .ok (id, after) →
      id = graph.nextId ∧ (∃ front back, graph.ids = front ++ target.layer :: back ∧
        after.ids = front ++ id :: target.layer :: back) ∧
      ∃ source, graph.sourceOf? target = some source ∧
        graph.Splices source [target] kind name after) ∧
    (∀ source id after, graph.insertAfter source kind name = .ok (id, after) →
      id = graph.nextId ∧ (∃ front back, graph.ids = front ++ source.layer :: back ∧
        after.ids = front ++ source.layer :: id :: back) ∧
      graph.HasOutput source ∧ graph.Splices source (graph.readersOf source) kind name after) ∧
    (∀ id after, (∃ target, graph.insertBefore target kind name = .ok (id, after)) ∨
        (∃ source, graph.insertAfter source kind name = .ok (id, after)) →
      (graph.Topological graph.ids → after.Topological after.ids) ∧
      (kind.KeepsShape → graph.validate.2 = .ok () → after.validate.2 = .ok ())) ∧
    (graph.validate.2 = .ok () → graph.validate.1.validate.2 = .ok ()) := by
  have valid := reached.wellFormed
  refine ⟨?_, ?_, ?_, valid.validate_again⟩
  · intro target id after accepted
    exact valid.insertBefore_splices accepted
  · intro source id after accepted
    exact valid.insertAfter_splices accepted
  · intro id after inserted
    rcases inserted with ⟨target, accepted⟩ | ⟨source, accepted⟩
    · obtain ⟨_, _, source, reads, splices⟩ := valid.insertBefore_splices accepted
      have output := valid.toWired.hasOutput reads
      exact ⟨valid.insertBefore_topological accepted,
        splices.validate valid (valid.insertBefore accepted).1 output⟩
    · obtain ⟨_, _, output, splices⟩ := valid.insertAfter_splices accepted
      exact ⟨valid.insertAfter_topological accepted,
        splices.validate valid (valid.insertAfter accepted).1 output⟩

/-- An input that is passed on to two outputs. -/
def passedOn : Graph :=
  run [.addLayer (.input 0) "x", .addLayer (.output 0) "y", .addLayer (.output 1) "z",
    .connect ⟨0, 0⟩ ⟨1, 0⟩, .connect ⟨0, 0⟩ ⟨2, 0⟩,
    .setInfo ⟨0, 0⟩ { shape := ⟨[2, 3]⟩ }] empty

/-- A softmax before one output leaves the other one where it was, and behind the input it takes
over both of them in their order. It is declared like the input, so the graph still validates. -/
theorem passedOn_splices :
    (∃ after, passedOn.insertBefore ⟨1, 0⟩ (.softmax 1) "s" = .ok (3, after) ∧
      passedOn.Splices ⟨0, 0⟩ [⟨1, 0⟩] (.softmax 1) "s" after ∧
      after.Topological after.ids ∧ after.validate.2 = .ok ()) ∧
    ∃ after, passedOn.insertAfter ⟨0, 0⟩ (.softmax 1) "s" = .ok (3, after) ∧
      passedOn.Splices ⟨0, 0⟩ [⟨1, 0⟩, ⟨2, 0⟩] (.softmax 1) "s" after ∧
      after.Topological after.ids ∧ after.validate.2 = .ok () := by
  have reached : passedOn.Reachable := ⟨_, rfl⟩
  obtain ⟨before, behind, keeps, _⟩ := reached.insert_exact (.softmax 1) "s"
  have mirrored := reached.wellFormed.toWired.mirrored
  have scheduled : passedOn.topologicalOrder = .ok passedOn.ids := by decide +kernel
  have topological : passedOn.Topological passedOn.ids :=
    (mirrored.stable_of_topologicalOrder scheduled).topological (.refl _)
  have validates : passedOn.validate.2 = .ok () := by decide +kernel
  constructor
  · have accepted : passedOn.insertBefore ⟨1, 0⟩ (.softmax 1) "s" = .ok (3, _) := rfl
    obtain ⟨_, _, source, reads, splices⟩ := before _ _ _ accepted
    have read : passedOn.sourceOf? ⟨1, 0⟩ = some ⟨0, 0⟩ := by decide +kernel
    obtain rfl : source = ⟨0, 0⟩ := Option.some.inj (reads.symm.trans read)
    obtain ⟨order, valid⟩ := keeps _ _ (.inl ⟨_, accepted⟩)
    exact ⟨_, accepted, splices, order topological, valid (.softmax 1) validates⟩
  · have accepted : passedOn.insertAfter ⟨0, 0⟩ (.softmax 1) "s" = .ok (3, _) := rfl
    obtain ⟨_, _, _, splices⟩ := behind _ _ _ accepted
    have readers : passedOn.readersOf ⟨0, 0⟩ = [⟨1, 0⟩, ⟨2, 0⟩] := by decide +kernel
    obtain ⟨order, valid⟩ := keeps _ _ (.inr ⟨_, accepted⟩)
    exact ⟨_, accepted, readers ▸ splices, order topological, valid (.softmax 1) validates⟩

end Graph

end NeuralGraph
