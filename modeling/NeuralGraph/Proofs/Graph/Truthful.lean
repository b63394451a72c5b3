import NeuralGraph.Proofs.Graph.History
import NeuralGraph.Proofs.Graph.Inference

/-! States that tell the truth. A layer that has left the constructed state passes validation, and
stays so under every edit: each call sends back to the constructed state whatever it puts in
doubt. -/

namespace NeuralGraph

namespace Layer

/-- What validation reads in a layer: parameters, sources and declarations. -/
def content (layer : Layer) : LayerKind × List InputSlot × List (Option TensorInfo) :=
  (layer.kind, layer.inputs, layer.outputs.map (·.info))

theorem map_info_mapConsumers (layer : Layer) (index : Nat) (f : List InputRef → List InputRef) :
    (layer.mapConsumers index f).outputs.map (·.info) = layer.outputs.map (·.info) := by
  apply List.ext_getElem?
  intro other
  simp only [mapConsumers, List.getElem?_map, List.getElem?_modify]
  by_cases same : index = other <;> simp [same, Function.comp_def]

@[simp] theorem id_withInfo (layer : Layer) (index : Nat) (info : Option TensorInfo) :
    (layer.withInfo index info).id = layer.id := rfl

theorem content_mapConsumers (layer : Layer) (index : Nat) (f : List InputRef → List InputRef) :
    (layer.mapConsumers index f).content = layer.content := by
  rw [content, map_info_mapConsumers]
  rfl

end Layer

namespace Graph

variable {graph before middle after : Graph}

/-- Every layer that has left the constructed state passes validation. -/
def Truthful (graph : Graph) : Prop :=
  ∀ id layer, graph.find? id = some layer → layer.state ≠ .constructed →
    graph.validateLayer id = .ok ()

theorem Truthful.passes (truthful : graph.Truthful) {id : LayerId} {layer : Layer}
    (found : graph.find? id = some layer) (resolved : layer.state ≠ .constructed) :
    ∃ inputs declared, graph.Passes layer inputs declared :=
  exists_passes_of_validateLayer (truthful id layer found resolved) found

/-- A layer beyond the constructed state was there before with the same content, and what it
reads is still declared as it was. -/
def Upholds (before after : Graph) : Prop :=
  ∀ id layer, after.find? id = some layer → layer.state ≠ .constructed →
    ∃ old, before.find? id = some old ∧ old.state ≠ .constructed ∧ old.content = layer.content ∧
      ∀ slot ∈ layer.inputs, ∀ source ∈ slot.source, ∀ info,
        before.slotInfo? source = some info → after.slotInfo? source = some info

theorem Passes.of_content {old layer : Layer} {inputs : List TensorInfo} {declared : List Shape}
    (passes : before.Passes old inputs declared) (same : old.content = layer.content)
    (carried : ∀ slot ∈ layer.inputs, ∀ source ∈ slot.source, ∀ info,
      before.slotInfo? source = some info → after.slotInfo? source = some info) :
    after.Passes layer inputs declared := by
  have kind : old.kind = layer.kind := congrArg (·.1) same
  have sources : old.inputs = layer.inputs := congrArg (·.2.1) same
  have infos : old.outputs.map (·.info) = layer.outputs.map (·.info) := congrArg (·.2.2) same
  have flows : before.layerInputInfos layer = .ok inputs := by
    rw [layerInputInfos_eq_ok, ← sources]
    exact layerInputInfos_eq_ok.mp passes.flows
  exact passes.of_flows kind.symm infos.symm (flows_of_carried flows carried)

theorem Upholds.truthful (upholds : before.Upholds after) (truthful : before.Truthful) :
    after.Truthful := by
  intro id layer found resolved
  obtain ⟨old, stored, resolvedBefore, same, carried⟩ := upholds id layer found resolved
  obtain ⟨inputs, declared, passes⟩ := truthful.passes stored resolvedBefore
  exact (passes.of_content same carried).validateLayer found

theorem Upholds.refl (graph : Graph) : graph.Upholds graph :=
  fun _ layer found resolved => ⟨layer, found, resolved, rfl, fun _ _ _ _ _ carries => carries⟩

theorem Upholds.trans (first : before.Upholds middle) (second : middle.Upholds after) :
    before.Upholds after := by
  intro id layer found resolved
  obtain ⟨between, stored, resolvedBetween, same, carried⟩ := second id layer found resolved
  obtain ⟨old, storedOld, resolvedOld, sameOld, carriedOld⟩ :=
    first id between stored resolvedBetween
  refine ⟨old, storedOld, resolvedOld, sameOld.trans same, ?_⟩
  intro slot member source reads info carries
  have sources : between.inputs = layer.inputs := congrArg (·.2.1) same
  exact carried slot member source reads info
    (carriedOld slot (sources ▸ member) source reads info carries)

theorem slotInfo?_modify {f : Layer → Layer} (keepsId : ∀ layer, (f layer).id = layer.id)
    (keepsInfos : ∀ layer, (f layer).outputs.map (·.info) = layer.outputs.map (·.info))
    (id : LayerId) (slot : OutputRef) :
    (graph.modify id f).slotInfo? slot = graph.slotInfo? slot := by
  have shown : ∀ graph : Graph, graph.slotInfo? slot =
      ((graph.find? slot.layer).map fun layer => layer.outputs.map (·.info)).bind
        (fun infos => infos[slot.index]?.join) := by
    intro graph
    cases found : graph.find? slot.layer with
    | none => simp [slotInfo?, found]
    | some layer =>
      rw [slotInfo?_of_find? found, Option.map_some, Option.bind_some, List.getElem?_map]
      cases layer.outputs[slot.index]? <;> rfl
  rw [shown, shown, find?_modify keepsId]
  split
  · rename_i same
    simp [same, keepsInfos, Function.comp_def]
  · rfl

/-- An edit of one layer that keeps declarations, and keeps the content of the layer unless it
sends it back. -/
theorem Upholds.modify {f : Layer → Layer} (keepsId : ∀ layer, (f layer).id = layer.id)
    (keepsInfos : ∀ layer, (f layer).outputs.map (·.info) = layer.outputs.map (·.info))
    (keeps : ∀ layer, (f layer).state ≠ .constructed →
      layer.state ≠ .constructed ∧ layer.content = (f layer).content) (id : LayerId) :
    graph.Upholds (graph.modify id f) := by
  intro other layer found resolved
  have carried : ∀ source info, graph.slotInfo? source = some info →
      (graph.modify id f).slotInfo? source = some info := fun source info carries =>
      (slotInfo?_modify keepsId keepsInfos id source).trans carries
  rw [find?_modify keepsId] at found
  split at found
  · obtain ⟨old, stored, rfl⟩ := Option.map_eq_some_iff.mp found
    obtain ⟨resolvedBefore, same⟩ := keeps old resolved
    rename_i here
    exact ⟨old, here ▸ stored, resolvedBefore, same, fun _ _ source _ => carried source⟩
  · exact ⟨layer, found, resolved, rfl, fun _ _ source _ => carried source⟩

theorem upholds_mapConsumers (graph : Graph) (id : LayerId) (index : Nat)
    (f : List InputRef → List InputRef) :
    graph.Upholds (graph.modify id (·.mapConsumers index f)) :=
  .modify (fun _ => Layer.id_mapConsumers _ _) (fun _ => Layer.map_info_mapConsumers _ _ _)
    (fun layer resolved => ⟨resolved, (layer.content_mapConsumers index f).symm⟩) id

theorem upholds_withSource (graph : Graph) (id : LayerId) (index : Nat)
    (source : Option OutputRef) : graph.Upholds (graph.modify id (·.withSource index source)) :=
  .modify (fun _ => Layer.id_withSource _ _) (fun _ => rfl)
    (fun _ resolved => absurd rfl resolved) id

theorem upholds_editKind (graph : Graph) (id : LayerId) (f : LayerKind → LayerKind) :
    graph.Upholds (graph.editKind id f) :=
  @Upholds.modify graph (fun layer => layer.withKind (f layer.kind)) (fun _ => rfl) (fun _ => rfl)
    (fun _ resolved => absurd rfl resolved) id

theorem upholds_link (graph : Graph) (source : OutputRef) (target : InputRef) :
    graph.Upholds (graph.link source target) :=
  (upholds_mapConsumers _ _ _ _).trans (upholds_withSource _ _ _ _)

theorem upholds_unlink (graph : Graph) (source : OutputRef) (target : InputRef) :
    graph.Upholds (graph.unlink source target) :=
  (upholds_mapConsumers _ _ _ _).trans (upholds_withSource _ _ _ _)

theorem upholds_unlinkInputs (id : LayerId) (index : Nat) (slots : List InputSlot)
    (graph : Graph) : graph.Upholds (graph.unlinkInputs id index slots) := by
  induction slots generalizing graph index with
  | nil => exact .refl graph
  | cons slot slots ih =>
    rw [unlinkInputs]
    cases slot.source with
    | none => exact ih (index + 1) graph
    | some source => exact (upholds_unlink graph source ⟨id, index⟩).trans (ih (index + 1) _)

theorem upholds_moveConsumers (source target : OutputRef) (readers : List InputRef)
    (graph : Graph) : graph.Upholds (graph.moveConsumers source target readers) := by
  induction readers generalizing graph with
  | nil => exact .refl graph
  | cons reader readers ih =>
    exact ((upholds_unlink graph source reader).trans (upholds_link _ target reader)).trans (ih _)

/-- A layer joins in the constructed state and under an id that nothing reads. -/
theorem Placed.upholds {layer : Layer} (joins : graph.Placed layer after) (wired : graph.Wired)
    (constructed : layer.state = .constructed) : graph.Upholds after := by
  intro id holder found resolved
  have old : ∀ {id layer}, graph.find? id = some layer → id ≠ graph.nextId := fun found =>
    Nat.ne_of_lt (wired.fresh _ (mem_ids_of_find? found))
  rw [joins.find? wired] at found
  split at found
  · cases found
    exact absurd constructed resolved
  · refine ⟨holder, found, resolved, rfl, ?_⟩
    intro _ _ source _ info carries
    cases stored : graph.find? source.layer with
    | none => simp [slotInfo?, stored] at carries
    | some producer =>
      rw [← carries]
      apply slotInfo?_congr
      rw [joins.find? wired, if_neg (old stored)]

/-- A layer that leaves takes away nothing that is still read. -/
theorem upholds_without {id : LayerId} (unique : graph.ids.Nodup)
    (wired : (graph.without id).Wired) : graph.Upholds (graph.without id) := by
  intro other layer found resolved
  have stored : graph.find? other = some layer := by
    rw [find?_without unique] at found
    split at found
    · cases found
    · exact found
  refine ⟨layer, stored, resolved, rfl, ?_⟩
  intro slot member source reads info carries
  obtain ⟨producer, kept, _⟩ := wired.hasOutput_of_mem found member reads
  rw [← carries]
  apply slotInfo?_congr
  rw [find?_without unique] at kept ⊢
  split at kept
  · cases kept
  · rename_i apart
    rw [if_neg apart]

theorem find?_reset (id other : LayerId) : (graph.reset id).find? other =
    if other = id then (graph.find? id).map Layer.unresolved else graph.find? other :=
  @find?_modify graph Layer.unresolved (fun _ => rfl) id other

theorem resolved_reset {id other : LayerId} {layer : Layer}
    (found : (graph.reset other).find? id = some layer) (resolved : layer.state ≠ .constructed) :
    id ≠ other ∧ graph.find? id = some layer := by
  rw [find?_reset] at found
  split at found
  · obtain ⟨_, _, rfl⟩ := Option.map_eq_some_iff.mp found
    exact absurd rfl resolved
  · rename_i apart
    exact ⟨apart, found⟩

theorem resolved_resetEach {ids : List LayerId} {id : LayerId} {layer : Layer}
    (found : (ids.foldl reset graph).find? id = some layer)
    (resolved : layer.state ≠ .constructed) : id ∉ ids ∧ graph.find? id = some layer := by
  induction ids generalizing graph with
  | nil => exact ⟨List.not_mem_nil, found⟩
  | cons first rest ih =>
    obtain ⟨notLater, foundFirst⟩ := ih found
    obtain ⟨apart, stored⟩ := resolved_reset foundFirst resolved
    exact ⟨by simp [apart, notLater], stored⟩

theorem slotInfo?_withInfo {slot other : OutputRef} (apart : other ≠ slot)
    (info : Option TensorInfo) :
    (graph.modify slot.layer (·.withInfo slot.index info)).slotInfo? other =
      graph.slotInfo? other := by
  rw [slotInfo?, slotInfo?, find?_modify (fun _ => Layer.id_withInfo _ _ _)]
  by_cases sameLayer : other.layer = slot.layer
  · have apartIndex : slot.index ≠ other.index := fun sameIndex =>
      apart (by cases other; cases slot; simp_all)
    rw [if_pos sameLayer, sameLayer]
    cases graph.find? slot.layer with
    | none => rfl
    | some layer => simp [Layer.withInfo, apartIndex]
  · rw [if_neg sameLayer]

/-- A new descriptor sends back its layer and every layer that reads it. -/
theorem Wired.upholds_setInfo (wired : graph.Wired) {slot : OutputRef} {info : TensorInfo}
    (accepted : graph.setInfo slot info = .ok after) : graph.Upholds after := by
  obtain ⟨_, rfl⟩ := setInfo_eq_ok.mp accepted
  intro id layer found resolved
  obtain ⟨unread, foundDeclared⟩ := resolved_resetEach found resolved
  obtain ⟨apart, foundModified⟩ := resolved_reset foundDeclared resolved
  have stored : graph.find? id = some layer := by
    rwa [find?_modify (fun _ => Layer.id_withInfo _ _ _), if_neg apart] at foundModified
  refine ⟨layer, stored, resolved, rfl, ?_⟩
  intro input member source reads carried carries
  rw [(agree_resetEach _ _).slotInfo?, (agree_reset _ _).slotInfo?, slotInfo?_withInfo ?_, carries]
  rintro rfl
  obtain ⟨index, recorded⟩ := exists_sourceOf? stored member reads
  exact unread (List.mem_map.mpr ⟨⟨id, index⟩, wired.mem_readersOf.mpr recorded, rfl⟩)

theorem upholds_connect {source : OutputRef} {target : InputRef}
    (accepted : graph.connect source target = .ok after) : graph.Upholds after := by
  obtain ⟨_, _, _, _, rfl⟩ := connect_eq_ok.mp accepted
  exact upholds_link graph source target

theorem upholds_disconnect {source : OutputRef} {target : InputRef}
    (accepted : graph.disconnect target = .ok (source, after)) : graph.Upholds after := by
  obtain ⟨_, rfl⟩ := disconnect_eq_ok.mp accepted
  exact upholds_unlink graph source target

theorem upholds_replace {id : LayerId} {kind old : LayerKind}
    (accepted : graph.replace id kind = .ok (old, after)) : graph.Upholds after := by
  obtain ⟨_, _, _, _, _, rfl⟩ := replace_eq_ok.mp accepted
  exact upholds_editKind graph id _

theorem Wired.upholds_addLayer (wired : graph.Wired) (kind : LayerKind) (name : String) :
    graph.Upholds (graph.addLayer kind name).2 := (placed_addLayer graph kind name).upholds wired rfl

theorem Wired.upholds_cloneInto (wired : graph.Wired) {origin : Graph} {id fresh : LayerId}
    (accepted : origin.cloneInto id graph = .ok (fresh, after)) : graph.Upholds after := by
  obtain ⟨layer, _, added⟩ := cloneInto_eq_ok.mp accepted
  have upholds := wired.upholds_addLayer layer.kind layer.name
  rwa [added] at upholds

theorem WellFormed.upholds_remove (valid : graph.WellFormed) {id : LayerId} {removed : Layer}
    (accepted : graph.remove id = .ok (removed, after)) : graph.Upholds after := by
  have left := (valid.remove accepted).1.toWired
  obtain ⟨layer, _, _, _, rfl⟩ := remove_eq_ok.mp accepted
  have unique : (graph.unlinkInputs id 0 layer.inputs).ids.Nodup := by simpa using valid.unique
  exact (upholds_unlinkInputs id 0 layer.inputs graph).trans (upholds_without unique left)

theorem Wired.upholds_insertBefore (wired : graph.Wired) {target : InputRef} {kind : LayerKind}
    {name : String} {id : LayerId}
    (accepted : graph.insertBefore target kind name = .ok (id, after)) : graph.Upholds after := by
  obtain ⟨_, source, _, rfl, rfl⟩ := insertBefore_eq_ok.mp accepted
  have joins := placed_placedBefore graph target.layer kind name (graph.slotInfo? source)
  have unlinked := (joins.upholds wired rfl).trans (upholds_unlink _ source target)
  have entered := unlinked.trans (upholds_link _ source ⟨graph.nextId, 0⟩)
  exact entered.trans (upholds_link _ ⟨graph.nextId, 0⟩ target)

theorem Wired.upholds_insertAfter (wired : graph.Wired) {source : OutputRef} {kind : LayerKind}
    {name : String} {id : LayerId}
    (accepted : graph.insertAfter source kind name = .ok (id, after)) : graph.Upholds after := by
  obtain ⟨_, _, rfl, rfl⟩ := insertAfter_eq_ok.mp accepted
  have joins := placed_placedAfter graph source.layer kind name (graph.slotInfo? source)
  have moved := (joins.upholds wired rfl).trans
    (upholds_moveConsumers source ⟨graph.nextId, 0⟩ (graph.readersOf source) _)
  exact moved.trans (upholds_link _ source ⟨graph.nextId, 0⟩)

theorem AgreeOn.truthful (agree : AgreeOn Layer.unresolved before after)
    (passes : ∀ id old layer, before.find? id = some old → after.find? id = some layer →
      layer.state ≠ .constructed → ∃ inputs declared, before.Passes old inputs declared) :
    after.Truthful := by
  intro id layer found resolved
  obtain ⟨old, stored, same⟩ := agree.exists_find? found
  obtain ⟨inputs, declared, pass⟩ := passes id old layer stored found resolved
  have content : old.content = layer.content := by
    rw [same]
    rfl
  refine (pass.of_content content ?_).validateLayer found
  exact fun _ _ source _ info carries => (agree.slotInfo? source).trans carries

theorem Truthful.markResolved (truthful : graph.Truthful) {id : LayerId}
    (checked : graph.validateLayer id = .ok ()) : (graph.markResolved id).Truthful := by
  refine (agree_markResolved graph id).truthful ?_
  intro other old layer stored found resolved
  by_cases same : other = id
  · exact exists_passes_of_validateLayer checked (same ▸ stored)
  · have kept : graph.find? other = some layer := by
      rwa [Graph.markResolved, find?_modify (fun _ => by split <;> rfl), if_neg same] at found
    rw [stored, Option.some.injEq] at kept
    exact truthful.passes stored (kept ▸ resolved)

theorem Truthful.validateEach {ids : List LayerId} (truthful : graph.Truthful) :
    (validateEach ids graph).1.Truthful := by
  induction ids generalizing graph with
  | nil => exact truthful
  | cons id ids ih =>
    rw [Graph.validateEach]
    cases checked : graph.validateLayer id with
    | error _ => exact truthful
    | ok _ => exact ih (truthful.markResolved checked)

/-- Validation resolves the layers that pass, up to the first that does not. -/
theorem Truthful.validate (truthful : graph.Truthful) : graph.validate.1.Truthful := by
  rw [Graph.validate]
  cases graph.topologicalOrder with
  | error _ => exact truthful
  | ok order => exact truthful.validateEach

/-- In a validated graph any state is true. -/
theorem WellFormed.truthful_of_validated (valid : graph.WellFormed)
    (success : graph.validate.2 = .ok ()) (agree : AgreeOn Layer.unresolved graph after) :
    after.Truthful :=
  agree.truthful fun _ _ _ stored _ _ => valid.validate_ok success stored

theorem load_of_refused {error : Error} (refused : graph.validate.2 = .error error)
    (registry : Registry) (handles : TensorHandles) (device : Device) :
    (Network.load graph registry handles device).graph = graph.validate.1 := by
  simp only [Network.load, refused]
  rfl

theorem loadOnHost_of_refused {error : Error} (refused : graph.validate.2 = .error error)
    (registry : Registry) (device : Device) :
    (Network.loadOnHost graph registry device).graph = graph.validate.1 := by
  simp only [Network.loadOnHost, refused]
  rfl

theorem Truthful.load (truthful : graph.Truthful) (valid : graph.WellFormed) (registry : Registry)
    (handles : TensorHandles) (device : Device) :
    (Network.load graph registry handles device).graph.Truthful := by
  cases checked : graph.validate.2 with
  | error _ => exact load_of_refused checked registry handles device ▸ truthful.validate
  | ok _ => exact valid.truthful_of_validated checked (Network.agree_load graph _ _ _)

theorem Truthful.loadOnHost (truthful : graph.Truthful) (valid : graph.WellFormed)
    (registry : Registry) (device : Device) :
    (Network.loadOnHost graph registry device).graph.Truthful := by
  cases checked : graph.validate.2 with
  | error _ => exact loadOnHost_of_refused checked registry device ▸ truthful.validate
  | ok _ => exact valid.truthful_of_validated checked (Network.agree_loadOnHost graph _ _)

theorem isSome_info_declareOutputs (template : TensorInfo) {shapes : List Shape}
    {slots : List OutputSlot} {index : Nat} (carries : ((slots[index]?).bind (·.info)).isSome) :
    (((declareOutputs template shapes slots)[index]?).bind (·.info)).isSome := by
  induction shapes generalizing slots index with
  | nil => cases slots <;> exact carries
  | cons shape shapes ih =>
    cases slots with
    | nil => exact carries
    | cons slot slots =>
      cases index with
      | zero => rfl
      | succ index => exact ih carries

/-- Inference takes no descriptor away. -/
theorem Partway.isSome_slotInfo? (partway : before.Partway after) {slot : OutputRef}
    (carries : (before.slotInfo? slot).isSome) : (after.slotInfo? slot).isSome := by
  cases found : before.find? slot.layer with
  | none => simp [slotInfo?, found] at carries
  | some layer =>
    rw [slotInfo?_of_find? found] at carries
    rcases partway slot.layer layer found with kept | settled
    · rwa [slotInfo?_of_find? kept]
    · cases settled with
      | input stored _ _ kept =>
        rwa [slotInfo?_of_find? (kept.trans (stored.symm.trans found))]
      | operation stored _ _ _ stands =>
        obtain rfl := Option.some.inj (found.symm.trans stored)
        rw [slotInfo?_of_find? stands]
        exact isSome_info_declareOutputs _ carries

/-- What flows into a layer keeps flowing during a pass, if with other shapes. -/
theorem Partway.exists_flows (partway : before.Partway after) {layer : Layer}
    {inputs : List TensorInfo} (flows : before.layerInputInfos layer = .ok inputs) :
    ∃ others, after.layerInputInfos layer = .ok others := by
  rw [layerInputInfos_isOk_iff]
  intro slot member
  obtain ⟨source, info, reads, carries⟩ := layerInputInfos_isOk_iff.mp ⟨inputs, flows⟩ slot member
  have still := partway.isSome_slotInfo? (by rw [carries]; rfl)
  obtain ⟨now, carriesNow⟩ := Option.isSome_iff_exists.mp still
  exact ⟨source, now, reads, carriesNow⟩

/-- A pass that succeeds sends every operation back and leaves the input layers as they are. -/
theorem Truthful.infer (truthful : graph.Truthful) (valid : graph.WellFormed)
    (success : graph.infer.2 = .ok ()) : graph.infer.1.Truthful := by
  intro id layer found resolved
  obtain ⟨old, stored, _⟩ := graph.agree_infer.exists_counterpart (·.id) (fun _ => rfl) found
  obtain ⟨unchanged, binding, binds⟩ :=
    (valid.infer_ok success stored).input_of_resolved found resolved
  obtain ⟨inputs, declared, passes⟩ := truthful.passes unchanged resolved
  obtain ⟨others, flows⟩ := valid.partway_infer.exists_flows passes.flows
  have now : graph.infer.1.Passes layer others declared :=
    ⟨flows, passes.parameters, passes.declares, fun computes => absurd binds (computes binding)⟩
  exact now.validateLayer found

theorem Truthful.empty : Graph.empty.Truthful := by
  intro id layer found
  cases found

private theorem truthful_afterEdit {α : Type} (truthful : graph.Truthful)
    {edited : Except Error α} {pick : α → Graph}
    (upholds : ∀ result, edited = .ok result → graph.Upholds (pick result)) :
    (graph.afterEdit edited pick).Truthful := by
  cases outcome : edited with
  | error _ => exact truthful
  | ok result => exact (upholds result outcome).truthful truthful

/-- Every call keeps the states of a graph true; inference does when it succeeds. -/
theorem Truthful.apply (truthful : graph.Truthful) (valid : graph.WellFormed) (call : Call)
    (succeeds : call = .infer → graph.infer.2 = .ok ()) : (call.apply graph).Truthful := by
  have wired := valid.toWired
  cases call with
  | addLayer kind name => exact (wired.upholds_addLayer kind name).truthful truthful
  | clone id => exact truthful_afterEdit truthful fun _ accepted => wired.upholds_cloneInto accepted
  | cloneFrom origin id =>
    exact truthful_afterEdit truthful fun _ accepted => wired.upholds_cloneInto accepted
  | connect source target => exact truthful_afterEdit truthful fun _ => upholds_connect
  | disconnect target => exact truthful_afterEdit truthful fun _ => upholds_disconnect
  | remove id => exact truthful_afterEdit truthful fun _ => valid.upholds_remove
  | replace id kind => exact truthful_afterEdit truthful fun _ => upholds_replace
  | insertBefore target kind name =>
    exact truthful_afterEdit truthful fun _ => wired.upholds_insertBefore
  | insertAfter source kind name =>
    exact truthful_afterEdit truthful fun _ => wired.upholds_insertAfter
  | setInfo slot info => exact truthful_afterEdit truthful fun _ => wired.upholds_setInfo
  | editKind id f => exact (upholds_editKind graph id f).truthful truthful
  | infer => exact truthful.infer valid (succeeds rfl)
  | validate => exact truthful.validate
  | load registry handles device => exact truthful.load valid registry handles device
  | loadOnHost registry device => exact truthful.loadOnHost valid registry device

/-- No inference among the calls stops with an error. -/
def InfersSucceed : List Call → Graph → Prop
  | [], _ => True
  | call :: calls, graph =>
    (call = .infer → graph.infer.2 = .ok ()) ∧ InfersSucceed calls (call.apply graph)

theorem Truthful.run (truthful : graph.Truthful) (valid : graph.WellFormed) {calls : List Call}
    (succeed : InfersSucceed calls graph) : (Graph.run calls graph).Truthful := by
  induction calls generalizing graph with
  | nil => exact truthful
  | cons call calls ih =>
    obtain ⟨succeeds, later⟩ := succeed
    exact ih (truthful.apply valid call succeeds) (valid.apply call).1 later

/-- States never lie. Whatever is called on a graph, accepted or refused, as long as inference
succeeds where it is called: a layer beyond the constructed state passes validation, so its
inputs are connected to slots with descriptors, its parameters are sound and its outputs have
descriptors. -/
theorem run_truthful {calls : List Call} (succeed : InfersSucceed calls empty) {id : LayerId}
    {layer : Layer} (found : (run calls empty).find? id = some layer)
    (resolved : layer.state = .shapeResolved ∨ layer.state = .workloadBound) :
    (run calls empty).validateLayer id = .ok () ∧
    (∀ slot ∈ layer.inputs, ∃ source info, slot.source = some source ∧
      (run calls empty).slotInfo? source = some info) ∧
    layer.kind.checkParameters = .ok () ∧
    ∀ slot ∈ layer.outputs, ∃ info, slot.info = some info := by
  have beyond : layer.state ≠ .constructed := by
    rcases resolved with same | same <;> simp [same]
  have truthful := Truthful.empty.run WellFormed.empty succeed
  obtain ⟨inputs, declared, passes⟩ := truthful.passes found beyond
  exact ⟨truthful id layer found beyond, layerInputInfos_isOk_iff.mp ⟨inputs, passes.flows⟩,
    passes.parameters, fun _ => passes.exists_info⟩

/-- Two rectifications in a row that are inferred and validated; the second then gets other
parameters. -/
def rectifiedTwice : List Call :=
  [.addLayer (.input 0) "x", .addLayer (.activation { curve := .reLu }) "first",
    .addLayer (.activation { curve := .reLu }) "second", .connect ⟨0, 0⟩ ⟨1, 0⟩,
    .connect ⟨1, 0⟩ ⟨2, 0⟩, .setInfo ⟨0, 0⟩ { shape := ⟨[2]⟩ }, .infer, .validate,
    .editKind 2 fun _ => .softmax 1]

theorem rectifiedTwice_truthful :
    (run rectifiedTwice empty).layers.map (·.state) =
      [.shapeResolved, .shapeResolved, .constructed] ∧
    (run rectifiedTwice empty).validateLayer 1 = .ok () := by
  refine ⟨by decide +kernel, ?_⟩
  have succeed : InfersSucceed rectifiedTwice empty := by
    refine ⟨nofun, nofun, nofun, nofun, nofun, nofun, fun _ => rfl, nofun, nofun, trivial⟩
  exact (run_truthful succeed rfl (.inl (by decide +kernel))).1

end Graph

end NeuralGraph
