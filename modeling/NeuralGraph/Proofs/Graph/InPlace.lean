import Mathlib.Data.List.InsertIdx
import NeuralGraph.Proofs.Graph.Store

/-! Each structural edit in place does on the store of a wired graph what the edit does on the
graph. The steps behind the first write cannot fail: both ends of an edge are there, and so is the
layer that has just been stored. -/

namespace NeuralGraph

open InPlace

namespace Graph

variable {graph : Graph}

theorem store_of_placed {layer : Layer} {placed : Graph} (joins : graph.Placed layer placed)
    (wired : graph.Wired) : placed.store =
      { layers := Function.update graph.find? graph.nextId (some layer)
        order := placed.ids
        nextId := graph.nextId + 1 } := by
  have layers : placed.find? = Function.update graph.find? graph.nextId (some layer) := by
    funext id
    rw [joins.find? wired, Function.update_apply]
  rw [store, layers, joins.nextId]

theorem store_without (unique : graph.ids.Nodup) (id : LayerId) : (graph.without id).store =
    { layers := Function.update graph.find? id none
      order := graph.ids.filter (· ≠ id)
      nextId := graph.nextId } := by
  have layers : (graph.without id).find? = Function.update graph.find? id none := by
    funext other
    rw [find?_without unique, Function.update_apply]
  have ids : (graph.without id).ids = graph.ids.filter (· ≠ id) := by
    simp only [Graph.ids, Graph.without, List.filter_map]
    rfl
  rw [store, layers, ids]
  rfl

/-- The graph in which a new layer stands, without edges, at some position. -/
def placedAt (graph : Graph) (position : Nat) (kind : LayerKind) (name : String)
    (info : Option TensorInfo) : Graph where
  layers := graph.layers.insertIdx position ((Layer.new graph.nextId kind name).withInfo 0 info)
  nextId := graph.nextId + 1

theorem placed_placedAt {position : Nat} (inside : position ≤ graph.layers.length)
    (kind : LayerKind) (name : String) (info : Option TensorInfo) :
    graph.Placed ((Layer.new graph.nextId kind name).withInfo 0 info)
      (graph.placedAt position kind name info) :=
  placed_of_perm (List.perm_insertIdx _ _ inside)

theorem placeBefore_eq_insertIdx {anchor : LayerId} {layers : List Layer} {position : Nat}
    (there : (layers.map (·.id)).idxOf? anchor = some position) (layer : Layer) :
    placeBefore anchor layer layers = layers.insertIdx position layer := by
  induction layers generalizing position with
  | nil => cases there
  | cons head rest ih =>
    rw [List.map_cons, List.idxOf?_cons] at there
    by_cases here : head.id = anchor
    · simp only [here, beq_self_eq_true, ↓reduceIte, Option.some.injEq] at there
      simp [placeBefore, here, ← there]
    · simp only [beq_iff_eq, here, ↓reduceIte, Option.map_eq_some_iff] at there
      obtain ⟨before, later, rfl⟩ := there
      simp [placeBefore, here, ih later]

theorem positionAfter_le (order : List LayerId) (anchor : LayerId) :
    Store.positionAfter order anchor ≤ order.length := by
  rw [Store.positionAfter]
  cases there : order.idxOf? anchor with
  | none => exact Nat.le_refl _
  | some position => exact (List.idxOf?_eq_some_iff.mp there).1

theorem placeAfter_eq_insertIdx (anchor : LayerId) (layer : Layer) (layers : List Layer) :
    placeAfter anchor layer layers =
      layers.insertIdx (Store.positionAfter (layers.map (·.id)) anchor) layer := by
  induction layers with
  | nil => rfl
  | cons head rest ih =>
    rw [Store.positionAfter] at ih ⊢
    rw [List.map_cons, List.idxOf?_cons]
    by_cases here : head.id = anchor
    · simp [placeAfter, here]
    · cases later : (rest.map (·.id)).idxOf? anchor <;> simp_all [placeAfter]

theorem withInfo_mapConsumers (layer : Layer) (slot index : Nat) (info : Option TensorInfo)
    (f : List InputRef → List InputRef) :
    (layer.mapConsumers index f).withInfo slot info =
      (layer.withInfo slot info).mapConsumers index f := by
  have outputs : ((layer.mapConsumers index f).withInfo slot info).outputs =
      ((layer.withInfo slot info).mapConsumers index f).outputs := by
    apply List.ext_getElem?
    intro other
    simp only [Layer.withInfo, Layer.mapConsumers, List.getElem?_modify]
    by_cases first : index = other <;> by_cases second : slot = other <;>
      simp [first, second, Function.comp_def]
  exact congrArg (fun outputs => { layer with outputs }) outputs

/-- A descriptor may as well be set before both ends of an edge are edited. -/
theorem modify_withInfo_edge (id : LayerId) (slot : Nat) (info : Option TensorInfo)
    (source : OutputRef) (f : List InputRef → List InputRef) (target : InputRef)
    (value : Option OutputRef) :
    ((graph.modify source.layer (·.mapConsumers source.index f)).modify target.layer
        (·.withSource target.index value)).modify id (·.withInfo slot info) =
      ((graph.modify id (·.withInfo slot info)).modify source.layer
        (·.mapConsumers source.index f)).modify target.layer (·.withSource target.index value) := by
  rw [modify_comm (f := (·.withSource target.index value)) (g := (·.withInfo slot info))
      (fun _ => rfl) (fun _ => rfl) (.inr fun _ => rfl),
    modify_comm (f := (·.mapConsumers source.index f)) (g := (·.withInfo slot info))
      (fun _ => rfl) (fun _ => rfl) (.inr fun _ => (withInfo_mapConsumers _ _ _ _ _).symm)]

theorem modify_withInfo_link (id : LayerId) (slot : Nat) (info : Option TensorInfo)
    (source : OutputRef) (target : InputRef) :
    (graph.link source target).modify id (·.withInfo slot info) =
      (graph.modify id (·.withInfo slot info)).link source target :=
  modify_withInfo_edge _ _ _ _ _ _ _

theorem modify_withInfo_unlink (id : LayerId) (slot : Nat) (info : Option TensorInfo)
    (source : OutputRef) (target : InputRef) :
    (graph.unlink source target).modify id (·.withInfo slot info) =
      (graph.modify id (·.withInfo slot info)).unlink source target :=
  modify_withInfo_edge _ _ _ _ _ _ _

theorem modify_withInfo_moveConsumers (id : LayerId) (slot : Nat) (info : Option TensorInfo)
    (source target : OutputRef) (readers : List InputRef) (graph : Graph) :
    (graph.moveConsumers source target readers).modify id (·.withInfo slot info) =
      (graph.modify id (·.withInfo slot info)).moveConsumers source target readers := by
  induction readers generalizing graph with
  | nil => rfl
  | cons reader rest ih =>
    rw [moveConsumers, moveConsumers, ih, modify_withInfo_link, modify_withInfo_unlink]

/-- A layer with a fresh id is edited apart from the others. -/
theorem modify_of_fresh {layers : List Layer} {fresh : LayerId} (f : Layer → Layer)
    (others : ∀ layer ∈ layers, layer.id ≠ fresh) :
    (layers.map fun layer => if layer.id = fresh then f layer else layer) = layers := by
  conv_rhs => rw [← List.map_id layers]
  exact List.map_congr_left fun layer member => if_neg (others layer member)

theorem placedAt_modify (fresh : ∀ id ∈ graph.ids, id < graph.nextId) (position : Nat)
    (kind : LayerKind) (name : String) (info : Option TensorInfo) :
    (graph.placedAt position kind name none).modify graph.nextId (·.withInfo 0 info) =
      graph.placedAt position kind name info := by
  have others : ∀ layer ∈ graph.layers, layer.id ≠ graph.nextId := fun layer member =>
    Nat.ne_of_lt (fresh _ (List.mem_map_of_mem member))
  have declared : ((Layer.new graph.nextId kind name).withInfo 0 none).withInfo 0 info =
      (Layer.new graph.nextId kind name).withInfo 0 info := by
    simp [Layer.withInfo, List.modify_modify_eq, Function.comp_def]
  have same : ((Layer.new graph.nextId kind name).withInfo 0 none).id = graph.nextId := rfl
  simp only [placedAt, modify, List.map_insertIdx, modify_of_fresh _ others, same, ↓reduceIte,
    declared]

end Graph

namespace InPlace

variable {graph : Graph}

theorem run_splice (wired : graph.Wired) {position : Nat} (inside : position ≤ graph.layers.length)
    (kind : LayerKind) (name : String) :
    (splice position kind name).run graph.store =
      .ok graph.nextId (graph.placedAt position kind name none).store := by
  have bare : (Layer.new graph.nextId kind name).withInfo 0 none =
      Layer.new graph.nextId kind name := by
    simp only [Layer.withInfo, Layer.new]
    congr 1
    cases kind.outputCount <;> rfl
  have ids : (graph.placedAt position kind name none).ids =
      graph.ids.insertIdx position graph.nextId := by
    simp only [Graph.ids, Graph.placedAt, List.map_insertIdx]
    rfl
  rw [Graph.store_of_placed (Graph.placed_placedAt inside kind name none) wired, ids, bare]
  have placed : position ≤ graph.ids.length := by simpa [Graph.ids] using inside
  rw [splice, allocate]
  simp only [bind_assoc, pure_bind]
  rw [run_bind_ok (EStateM.run_get _), run_bind_ok (EStateM.run_modify _ _),
    run_bind_ok (EStateM.run_get _)]
  split
  · rename_i outside
    exact absurd placed (Nat.not_le.mpr outside)
  · rfl

theorem run_addLayer (wired : graph.Wired) (kind : LayerKind) (name : String) :
    (addLayer kind name).run graph.store =
      .ok graph.nextId (graph.addLayer kind name).2.store := by
  have ids : (graph.addLayer kind name).2.ids = graph.ids ++ [graph.nextId] := by
    simp only [Graph.ids, Graph.addLayer, List.map_append]
    rfl
  rw [Graph.store_of_placed (Graph.placed_addLayer graph kind name) wired, ids]
  rfl

theorem run_declareFirst {id : LayerId} (there : graph.HasOutput ⟨id, 0⟩)
    (info : Option TensorInfo) :
    (declareFirst id info).run graph.store =
      .ok () (graph.modify id (·.withInfo 0 info)).store := by
  obtain ⟨layer, found, inside⟩ := there
  have stored : graph.store.layers id = some layer := found
  rw [declareFirst, run_bind_ok (run_fetch stored)]
  dsimp only
  rw [if_neg (List.ne_nil_of_length_pos inside)]
  exact run_modify (f := (·.withInfo 0 info)) (fun _ => rfl) id

theorem run_unlinkInputs {id : LayerId} {index : Nat} {slots : List InputSlot} {graph : Graph}
    (inputs : ∀ offset < slots.length, graph.HasInput ⟨id, index + offset⟩)
    (sources : ∀ slot ∈ slots, ∀ source, slot.source = some source → graph.HasOutput source) :
    (unlinkInputs id index slots).run graph.store =
      .ok () (graph.unlinkInputs id index slots).store := by
  induction slots generalizing graph index with
  | nil => rfl
  | cons slot rest ih =>
    have inputsRest : ∀ offset < rest.length, graph.HasInput ⟨id, index + 1 + offset⟩ := by
      intro offset inside
      have there := inputs (offset + 1) (by simpa using inside)
      rwa [Nat.add_comm offset, ← Nat.add_assoc] at there
    have sourcesRest : ∀ other ∈ rest, ∀ source, other.source = some source →
        graph.HasOutput source := fun other member => sources other (List.mem_cons_of_mem _ member)
    rw [unlinkInputs, Graph.unlinkInputs]
    cases reads : slot.source with
    | none => exact ih inputsRest sourcesRest
    | some source =>
      have output := sources slot List.mem_cons_self source reads
      have input : graph.HasInput ⟨id, index⟩ := inputs 0 (Nat.succ_pos _)
      -- unlinking keeps every slot, so the rest of the loop still finds both ends of its edges
      refine (run_bind_ok (run_unlink output input)).trans (ih ?_ ?_)
      · simpa using inputsRest
      · simpa using sourcesRest

theorem run_moveConsumers {source target : OutputRef} {readers : List InputRef} {graph : Graph}
    (left : graph.HasOutput source) (right : graph.HasOutput target)
    (inputs : ∀ reader ∈ readers, graph.HasInput reader) :
    (moveConsumers source target readers).run graph.store =
      .ok () (graph.moveConsumers source target readers).store := by
  induction readers generalizing graph with
  | nil => rfl
  | cons reader rest ih =>
    have input := inputs reader List.mem_cons_self
    have inputsRest : ∀ other ∈ rest, graph.HasInput other := fun other member =>
      inputs other (List.mem_cons_of_mem _ member)
    rw [moveConsumers, Graph.moveConsumers, run_bind_ok (run_unlink left input),
      run_bind_ok (run_link (by simpa using right) (by simpa using input))]
    exact ih (by simpa using left) (by simpa using right) (by simpa using inputsRest)

theorem run_reset (id : LayerId) : (reset id).run graph.store = .ok () (graph.reset id).store :=
  run_modify (f := fun layer => { layer with state := .constructed }) (fun _ => rfl) id

theorem run_resetEach (readers : List InputRef) (graph : Graph) :
    (readers.forM fun reader => reset reader.layer).run graph.store =
      .ok () ((readers.map (·.layer)).foldl Graph.reset graph).store := by
  induction readers generalizing graph with
  | nil => rfl
  | cons reader rest ih =>
    exact (run_bind_ok (run_reset reader.layer)).trans (ih (graph.reset reader.layer))

theorem settles_disconnect (wired : graph.Wired) (target : InputRef) :
    graph.Settles (disconnect target) (graph.disconnect target) := by
  refine settles_fetch fun consumer found => ?_
  cases reads : consumer.source? target.index with
  | none => exact settles_throw _
  | some source =>
    have edge : graph.sourceOf? target = some source := by
      rw [Graph.sourceOf?_of_find? found, reads]
    refine settles_ok ?_
    rw [run_bind_ok (run_unlink (wired.hasOutput edge) (.of_sourceOf? edge))]
    rfl

theorem settles_replace (id : LayerId) (kind : LayerKind) :
    graph.Settles (replace id kind) (graph.replace id kind) := by
  refine settles_fetch fun layer _ => settles_guard fun _ => settles_ok ?_
  rw [run_bind_ok (run_modify (f := (·.withKind kind)) (fun _ => rfl) id)]
  rfl

theorem settles_remove (wired : graph.Wired) (id : LayerId) :
    graph.Settles (remove id) (graph.remove id) := by
  refine settles_fetch fun layer found => settles_guard fun _ => ?_
  have inputs : ∀ offset < layer.inputs.length, graph.HasInput ⟨id, 0 + offset⟩ :=
    fun offset inside => ⟨layer, found, by simpa using inside⟩
  have unlinked := run_unlinkInputs inputs fun slot member source reads =>
    wired.hasOutput_of_mem found member reads
  have ids : (graph.unlinkInputs id 0 layer.inputs).ids = graph.ids :=
    Graph.ids_unlinkInputs id 0 layer.inputs graph
  -- the second lookup finds what unlinking has left of the layer
  obtain ⟨removed, there⟩ := Graph.exists_find? (ids ▸ Graph.mem_ids_of_find? found)
  dsimp only
  rw [Graph.get_eq_ok.mpr there, bind_ok]
  refine settles_ok ?_
  rw [run_bind_ok unlinked, run_bind_ok (EStateM.run_modify _ _), run_bind_ok (run_fetch there)]
  exact congrArg (EStateM.Result.ok removed) (Graph.store_without (ids ▸ wired.unique) id).symm

theorem settles_clone (wired : graph.Wired) (id : LayerId) :
    graph.Settles (clone id) (graph.clone id) :=
  settles_fetch fun layer _ => settles_ok (run_addLayer wired layer.kind layer.name)

theorem settles_cloneFrom (wired : graph.Wired) (origin : Graph) (id : LayerId) :
    graph.Settles (cloneFrom origin.store id) (origin.cloneInto id graph) := by
  rw [cloneFrom, Graph.cloneInto, Graph.get, Graph.store_layers]
  cases origin.find? id with
  | none => exact settles_throw _
  | some layer => exact settles_ok (run_addLayer wired layer.kind layer.name)

theorem settles_setInfo (slot : OutputRef) (info : TensorInfo) :
    graph.Settles (setInfo slot info) (((), ·) <$> graph.setInfo slot info) := by
  unfold Graph.setInfo
  rw [map_bind]
  refine settles_fetch fun producer _ => ?_
  cases producer.outputs[slot.index]? with
  | none => exact settles_throw _
  | some output =>
    refine settles_ok ?_
    rw [run_bind_ok (run_modify (f := (·.withInfo slot.index (some info))) (fun _ => rfl) _),
      run_bind_ok (run_reset slot.layer)]
    exact run_resetEach _ _

theorem settles_connect (unique : graph.ids.Nodup) (source : OutputRef) (target : InputRef) :
    graph.Settles (connect source target) (((), ·) <$> graph.connect source target) := by
  unfold Graph.connect
  rw [map_bind]
  refine settles_fetch fun producer producerFound => ?_
  rw [map_guard]
  refine settles_guard fun inside => ?_
  dsimp only
  rw [map_bind]
  refine settles_fetch fun consumer consumerFound => ?_
  cases there : consumer.inputs[target.index]? with
  | none => exact settles_throw _
  | some slot =>
    rcases slot with ⟨_ | existing⟩
    case some => exact settles_throw _
    case none =>
      dsimp only
      rw [map_guard]
      refine settles_get ?_
      rw [Graph.graph_store unique]
      refine settles_guard fun _ => settles_ok ?_
      obtain ⟨slotInside, _⟩ := List.getElem?_eq_some_iff.mp there
      exact run_link ⟨producer, producerFound, by omega⟩ ⟨consumer, consumerFound, slotInside⟩

theorem settles_insertBefore (wired : graph.Wired) (target : InputRef) (kind : LayerKind)
    (name : String) :
    graph.Settles (insertBefore target kind name) (graph.insertBefore target kind name) := by
  refine settles_check fun checked => settles_fetch fun consumer found => ?_
  cases reads : consumer.source? target.index with
  | none => exact settles_throw _
  | some source =>
    have edge : graph.sourceOf? target = some source := by
      rw [Graph.sourceOf?_of_find? found, reads]
    obtain ⟨position, there⟩ : ∃ position, graph.ids.idxOf? target.layer = some position :=
      Option.ne_none_iff_exists'.mp fun absent =>
        List.idxOf?_eq_none_iff.mp absent (Graph.mem_ids_of_find? found)
    obtain ⟨inside, _⟩ := List.idxOf?_eq_some_iff.mp there
    have stands : position ≤ graph.layers.length := by simpa [Graph.ids] using inside.le
    have joins := Graph.placed_placedAt stands kind name none
    obtain ⟨newInput, newOutput⟩ :=
      joins.spliced wired (Graph.checkSpliceable_eq_ok.mp checked)
    have output := joins.hasOutput wired (wired.hasOutput edge)
    have input := joins.hasInput wired (.of_sourceOf? edge)
    refine settles_get ?_
    rw [Graph.store_order, there]
    refine settles_ok ?_
    -- in place the descriptor comes last; in the graph it comes with the layer, so it is moved
    -- back over the three edges
    rw [run_bind_ok (run_splice wired stands kind name), run_bind_ok (run_unlink output input),
      run_bind_ok (run_link (by simpa using output) (by simpa using newInput)),
      run_bind_ok (run_link (by simpa using newOutput) (by simpa using input)),
      run_bind_ok (run_declareFirst (by simpa using newOutput) _), Graph.modify_withInfo_link,
      Graph.modify_withInfo_link, Graph.modify_withInfo_unlink, Graph.placedAt_modify wired.fresh,
      Graph.graph_store wired.unique, Graph.placedAt, Graph.placeBefore_eq_insertIdx there]
    rfl

theorem settles_insertAfter (wired : graph.Wired) (source : OutputRef) (kind : LayerKind)
    (name : String) :
    graph.Settles (insertAfter source kind name) (graph.insertAfter source kind name) := by
  refine settles_check fun checked => settles_fetch fun producer found => ?_
  cases there : producer.outputs[source.index]? with
  | none => exact settles_throw _
  | some slot =>
    obtain ⟨inside, _⟩ := List.getElem?_eq_some_iff.mp there
    have readers : graph.readersOf source = slot.consumers := by
      simp [Graph.readersOf, found, Layer.readers, there]
    have after := Graph.placeAfter_eq_insertIdx source.layer
      ((Layer.new graph.nextId kind name).withInfo 0 slot.info) graph.layers
    have stands : Store.positionAfter graph.ids source.layer ≤ graph.layers.length := by
      simpa [Graph.ids] using Graph.positionAfter_le graph.ids source.layer
    have joins := Graph.placed_placedAt stands kind name none
    obtain ⟨newInput, newOutput⟩ :=
      joins.spliced wired (Graph.checkSpliceable_eq_ok.mp checked)
    have output := joins.hasOutput wired ⟨producer, found, inside⟩
    have inputs : ∀ reader ∈ slot.consumers,
        (graph.placedAt (Store.positionAfter graph.ids source.layer) kind name none).HasInput
          reader := fun reader member =>
      joins.hasInput wired (.of_sourceOf? (wired.mem_readersOf.mp (readers ▸ member)))
    refine settles_get (settles_ok ?_)
    rw [Graph.store_order, run_bind_ok (run_splice wired stands kind name),
      run_bind_ok (run_moveConsumers output newOutput inputs),
      run_bind_ok (run_link (by simpa using output) (by simpa using newInput)),
      run_bind_ok (run_declareFirst (by simpa using newOutput) _), Graph.modify_withInfo_link,
      Graph.modify_withInfo_moveConsumers, Graph.placedAt_modify wired.fresh, Graph.placedAt, after]
    rfl

end InPlace

end NeuralGraph
