import Mathlib.Data.List.Nodup
import NeuralGraph.Graph.Edit
import NeuralGraph.Proofs.Lookup

/-! The two copies of every edge: the source that an input slot records, and the readers that an
output slot records. The main statements say what one edit of a layer, a link and an unlink do to
each copy. -/

namespace NeuralGraph

/-- The readers of an output slot; a slot that is not there has none. -/
def Layer.readers (layer : Layer) (index : Nat) : List InputRef :=
  ((layer.outputs[index]?).map (·.consumers)).getD []

namespace Graph

/-- What an input slot records as its source. -/
def sourceOf? (graph : Graph) (target : InputRef) : Option OutputRef :=
  (graph.find? target.layer).bind (·.source? target.index)

/-- What an output slot records as its readers. -/
def readersOf (graph : Graph) (source : OutputRef) : List InputRef :=
  ((graph.find? source.layer).map (·.readers source.index)).getD []

/-- The input slot is there, connected or not. -/
def HasInput (graph : Graph) (target : InputRef) : Prop :=
  ∃ layer, graph.find? target.layer = some layer ∧ target.index < layer.inputs.length

/-- The output slot is there. -/
def HasOutput (graph : Graph) (source : OutputRef) : Prop :=
  ∃ layer, graph.find? source.layer = some layer ∧ source.index < layer.outputs.length

end Graph

namespace Layer

variable {layer : Layer}

theorem source?_eq_some {index : Nat} {source : OutputRef} :
    layer.source? index = some source ↔ layer.inputs[index]? = some ⟨some source⟩ := by
  cases found : layer.inputs[index]? with
  | none => simp [source?, found]
  | some slot =>
    cases slot
    simp [source?, found]

theorem source?_withSource (index : Nat) (source : Option OutputRef) (other : Nat) :
    (layer.withSource index source).source? other =
      if other = index ∧ index < layer.inputs.length then source else layer.source? other := by
  simp only [source?, withSource, List.getElem?_modify]
  by_cases same : index = other
  · subst other
    by_cases inside : index < layer.inputs.length <;> simp [inside]
  · simp [same, Ne.symm same]

@[simp] theorem readers_withSource (index : Nat) (source : Option OutputRef) (other : Nat) :
    (layer.withSource index source).readers other = layer.readers other := rfl

@[simp] theorem source?_mapConsumers (index : Nat) (f : List InputRef → List InputRef)
    (other : Nat) : (layer.mapConsumers index f).source? other = layer.source? other := rfl

theorem readers_mapConsumers (index : Nat) (f : List InputRef → List InputRef) (other : Nat) :
    (layer.mapConsumers index f).readers other =
      if other = index ∧ index < layer.outputs.length then f (layer.readers index)
      else layer.readers other := by
  simp only [readers, mapConsumers, List.getElem?_modify]
  by_cases same : index = other
  · subst other
    by_cases inside : index < layer.outputs.length <;> simp [inside]
  · simp [same, Ne.symm same]

@[simp] theorem id_withSource (index : Nat) (source : Option OutputRef) :
    (layer.withSource index source).id = layer.id := rfl

@[simp] theorem id_mapConsumers (index : Nat) (f : List InputRef → List InputRef) :
    (layer.mapConsumers index f).id = layer.id := rfl

@[simp] theorem length_inputs_withSource (index : Nat) (source : Option OutputRef) :
    (layer.withSource index source).inputs.length = layer.inputs.length := by
  simp [withSource]

@[simp] theorem length_outputs_mapConsumers (index : Nat) (f : List InputRef → List InputRef) :
    (layer.mapConsumers index f).outputs.length = layer.outputs.length := by
  simp [mapConsumers]

theorem mem_consumers {reader : InputRef} :
    reader ∈ layer.consumers ↔ ∃ index, reader ∈ layer.readers index := by
  simp only [consumers, List.mem_flatMap, readers]
  constructor
  · rintro ⟨slot, member, reads⟩
    obtain ⟨index, found⟩ := List.mem_iff_getElem?.mp member
    exact ⟨index, by simpa [found] using reads⟩
  · rintro ⟨index, reads⟩
    cases found : layer.outputs[index]? with
    | none => simp [found] at reads
    | some slot => exact ⟨slot, List.mem_of_getElem? found, by simpa [found] using reads⟩

theorem mem_producers {producer : LayerId} :
    producer ∈ layer.producers ↔ ∃ index source,
      layer.source? index = some source ∧ source.layer = producer := by
  simp only [producers, List.mem_filterMap, Option.map_eq_some_iff]
  constructor
  · rintro ⟨slot, member, source, reads, same⟩
    obtain ⟨index, found⟩ := List.mem_iff_getElem?.mp member
    exact ⟨index, source, by simp [source?, found, reads], same⟩
  · rintro ⟨index, source, reads, same⟩
    exact ⟨⟨some source⟩, List.mem_of_getElem? (source?_eq_some.mp reads), source, rfl, same⟩

end Layer

namespace Graph

variable {graph : Graph}

theorem id_of_find? {id : LayerId} {layer : Layer} (found : graph.find? id = some layer) :
    layer.id = id := by
  simpa using List.find?_some found

theorem mem_of_find? {id : LayerId} {layer : Layer} (found : graph.find? id = some layer) :
    layer ∈ graph.layers := List.mem_of_find?_eq_some found

theorem get_eq_ok {id : LayerId} {layer : Layer} :
    graph.get id = .ok layer ↔ graph.find? id = some layer := by
  cases found : graph.find? id <;> simp [get, found]

/-- Where no two layers share an id, looking up finds exactly the stored layers. -/
theorem find?_eq_some_iff (unique : graph.ids.Nodup) {id : LayerId} {layer : Layer} :
    graph.find? id = some layer ↔ layer ∈ graph.layers ∧ layer.id = id :=
  find?_key_eq_some_iff unique

theorem find?_eq_none_iff {id : LayerId} : graph.find? id = none ↔ id ∉ graph.ids := by
  simp [find?, ids]

theorem find?_isSome_iff {id : LayerId} : (graph.find? id).isSome ↔ id ∈ graph.ids := by
  rw [Option.isSome_iff_ne_none, ne_eq, find?_eq_none_iff, not_not]

theorem exists_find? {id : LayerId} (member : id ∈ graph.ids) :
    ∃ layer, graph.find? id = some layer :=
  Option.isSome_iff_exists.mp (find?_isSome_iff.mpr member)

theorem mem_ids_of_find? {id : LayerId} {layer : Layer} (found : graph.find? id = some layer) :
    id ∈ graph.ids := find?_isSome_iff.mp (by simp [found])

theorem find?_modify {f : Layer → Layer} (keeps : ∀ layer, (f layer).id = layer.id)
    (id other : LayerId) :
    (graph.modify id f).find? other =
      if other = id then (graph.find? id).map f else graph.find? other := by
  have sameTest :
      ((·.id == other) ∘ fun layer : Layer => if layer.id = id then f layer else layer) =
        (·.id == other) := by
    funext layer
    by_cases same : layer.id = id <;> simp [same, keeps]
  simp only [find?, modify, List.find?_map, sameTest]
  by_cases same : other = id
  · subst other
    rw [if_pos rfl]
    cases found : graph.layers.find? (·.id == id) with
    | none => rfl
    | some layer =>
      have foundId : layer.id = id := by simpa using List.find?_some found
      simp [foundId]
  · rw [if_neg same]
    cases found : graph.layers.find? (·.id == other) with
    | none => rfl
    | some layer =>
      have foundId : layer.id = other := by simpa using List.find?_some found
      simp [foundId, same]

theorem ids_modify {f : Layer → Layer} (keeps : ∀ layer, (f layer).id = layer.id) (id : LayerId) :
    (graph.modify id f).ids = graph.ids := by
  simp only [ids, modify, List.map_map]
  apply List.map_congr_left
  intro layer _
  by_cases same : layer.id = id <;> simp [same, keeps]

@[simp] theorem nextId_modify (id : LayerId) (f : Layer → Layer) :
    (graph.modify id f).nextId = graph.nextId := rfl

theorem sourceOf?_of_find? {target : InputRef} {layer : Layer}
    (found : graph.find? target.layer = some layer) :
    graph.sourceOf? target = layer.source? target.index := by
  simp [sourceOf?, found]

theorem readersOf_of_find? {source : OutputRef} {layer : Layer}
    (found : graph.find? source.layer = some layer) :
    graph.readersOf source = layer.readers source.index := by
  simp [readersOf, found]

theorem HasInput.of_sourceOf? {target : InputRef} {source : OutputRef}
    (reads : graph.sourceOf? target = some source) : graph.HasInput target := by
  obtain ⟨layer, found, slot⟩ := Option.bind_eq_some_iff.mp reads
  obtain ⟨inside, _⟩ := List.getElem?_eq_some_iff.mp (Layer.source?_eq_some.mp slot)
  exact ⟨layer, found, inside⟩

theorem HasOutput.of_mem_readersOf {source : OutputRef} {target : InputRef}
    (member : target ∈ graph.readersOf source) : graph.HasOutput source := by
  cases found : graph.find? source.layer with
  | none => simp [readersOf, found] at member
  | some layer =>
    refine ⟨layer, found, ?_⟩
    by_contra outside
    simp [readersOf, found, Layer.readers, outside] at member

theorem sourceOf?_modify {f : Layer → Layer} (keeps : ∀ layer, (f layer).id = layer.id)
    (id : LayerId) (target : InputRef) :
    (graph.modify id f).sourceOf? target =
      if target.layer = id then (graph.find? id).bind (fun layer => (f layer).source? target.index)
      else graph.sourceOf? target := by
  simp only [sourceOf?, find?_modify keeps]
  split
  · exact Option.bind_map
  · rfl

theorem readersOf_modify {f : Layer → Layer} (keeps : ∀ layer, (f layer).id = layer.id)
    (id : LayerId) (source : OutputRef) :
    (graph.modify id f).readersOf source =
      if source.layer = id then
        ((graph.find? id).map fun layer => (f layer).readers source.index).getD []
      else graph.readersOf source := by
  simp only [readersOf, find?_modify keeps]
  split <;> simp [Function.comp_def]

/-- The edit of a consumer that a link and an unlink share. -/
theorem sourceOf?_withSource (target : InputRef) (source : Option OutputRef) (other : InputRef)
    (slot : source = none ∨ graph.HasInput target) :
    (graph.modify target.layer (·.withSource target.index source)).sourceOf? other =
      if other = target then source else graph.sourceOf? other := by
  rw [sourceOf?_modify (fun _ => Layer.id_withSource _ _)]
  obtain ⟨id, index⟩ := target
  obtain ⟨otherId, otherIndex⟩ := other
  by_cases sameLayer : otherId = id
  · subst otherId
    cases found : graph.find? id with
    | none =>
      rcases slot with none | ⟨layer, there, _⟩
      · simp [sourceOf?, found, none]
      · simp [found] at there
    | some layer =>
      simp only [↓reduceIte, Option.bind_some, Layer.source?_withSource, InputRef.mk.injEq,
        true_and, sourceOf?, found]
      by_cases sameIndex : otherIndex = index
      · subst otherIndex
        rcases slot with rfl | ⟨holder, there, inside⟩
        · by_cases inside : index < layer.inputs.length <;> simp [inside, Layer.source?]
        · rw [found] at there
          cases there
          simp [inside]
      · simp [sameIndex]
  · simp [sameLayer]

/-- The edit of a producer that a link and an unlink share. -/
theorem readersOf_mapConsumers (source : OutputRef) (f : List InputRef → List InputRef)
    (other : OutputRef) (slot : f [] = [] ∨ graph.HasOutput source) :
    (graph.modify source.layer (·.mapConsumers source.index f)).readersOf other =
      if other = source then f (graph.readersOf source) else graph.readersOf other := by
  rw [readersOf_modify (fun _ => Layer.id_mapConsumers _ _)]
  obtain ⟨id, index⟩ := source
  obtain ⟨otherId, otherIndex⟩ := other
  by_cases sameLayer : otherId = id
  · subst otherId
    cases found : graph.find? id with
    | none =>
      rcases slot with none | ⟨layer, there, _⟩
      · simp [readersOf, found, none]
      · simp [found] at there
    | some layer =>
      simp only [↓reduceIte, Option.map_some, Option.getD_some, Layer.readers_mapConsumers,
        OutputRef.mk.injEq, true_and, readersOf, found]
      by_cases sameIndex : otherIndex = index
      · subst otherIndex
        rcases slot with none | ⟨holder, there, inside⟩
        · by_cases inside : index < layer.outputs.length <;> simp [inside, Layer.readers, none]
        · rw [found] at there
          cases there
          simp [inside]
      · simp [sameIndex]
  · simp [sameLayer]

theorem readersOf_withSource (target : InputRef) (value : Option OutputRef) (source : OutputRef) :
    (graph.modify target.layer (·.withSource target.index value)).readersOf source =
      graph.readersOf source := by
  rw [readersOf_modify (fun _ => Layer.id_withSource _ _)]
  by_cases sameLayer : source.layer = target.layer <;> simp [sameLayer, readersOf]

theorem sourceOf?_mapConsumers (source : OutputRef) (f : List InputRef → List InputRef)
    (target : InputRef) :
    (graph.modify source.layer (·.mapConsumers source.index f)).sourceOf? target =
      graph.sourceOf? target := by
  rw [sourceOf?_modify (fun _ => Layer.id_mapConsumers _ _)]
  by_cases sameLayer : target.layer = source.layer <;> simp [sameLayer, sourceOf?]

theorem hasInput_modify {f : Layer → Layer} (keeps : ∀ layer, (f layer).id = layer.id)
    (slots : ∀ layer, (f layer).inputs.length = layer.inputs.length) (id : LayerId)
    (target : InputRef) : (graph.modify id f).HasInput target ↔ graph.HasInput target := by
  simp only [HasInput, find?_modify keeps]
  split
  · rename_i same
    simp [same, slots]
  · rfl

theorem hasOutput_modify {f : Layer → Layer} (keeps : ∀ layer, (f layer).id = layer.id)
    (slots : ∀ layer, (f layer).outputs.length = layer.outputs.length) (id : LayerId)
    (source : OutputRef) : (graph.modify id f).HasOutput source ↔ graph.HasOutput source := by
  simp only [HasOutput, find?_modify keeps]
  split
  · rename_i same
    simp [same, slots]
  · rfl

@[simp] theorem ids_link (source : OutputRef) (target : InputRef) :
    (graph.link source target).ids = graph.ids := by
  simp only [link]
  rw [ids_modify (fun _ => Layer.id_withSource _ _),
    ids_modify (fun _ => Layer.id_mapConsumers _ _)]

@[simp] theorem ids_unlink (source : OutputRef) (target : InputRef) :
    (graph.unlink source target).ids = graph.ids := by
  simp only [unlink]
  rw [ids_modify (fun _ => Layer.id_withSource _ _),
    ids_modify (fun _ => Layer.id_mapConsumers _ _)]

@[simp] theorem nextId_link (source : OutputRef) (target : InputRef) :
    (graph.link source target).nextId = graph.nextId := rfl

@[simp] theorem nextId_unlink (source : OutputRef) (target : InputRef) :
    (graph.unlink source target).nextId = graph.nextId := rfl

theorem hasInput_withSource (target : InputRef) (source : Option OutputRef) (other : InputRef) :
    (graph.modify target.layer (·.withSource target.index source)).HasInput other ↔
      graph.HasInput other :=
  hasInput_modify (fun _ => Layer.id_withSource _ _)
    (fun _ => Layer.length_inputs_withSource _ _) _ _

theorem hasOutput_withSource (target : InputRef) (source : Option OutputRef) (other : OutputRef) :
    (graph.modify target.layer (·.withSource target.index source)).HasOutput other ↔
      graph.HasOutput other :=
  hasOutput_modify (fun _ => Layer.id_withSource _ _) (fun _ => rfl) _ _

theorem hasInput_mapConsumers (source : OutputRef) (f : List InputRef → List InputRef)
    (other : InputRef) :
    (graph.modify source.layer (·.mapConsumers source.index f)).HasInput other ↔
      graph.HasInput other :=
  hasInput_modify (fun _ => Layer.id_mapConsumers _ _) (fun _ => rfl) _ _

theorem hasOutput_mapConsumers (source : OutputRef) (f : List InputRef → List InputRef)
    (other : OutputRef) :
    (graph.modify source.layer (·.mapConsumers source.index f)).HasOutput other ↔
      graph.HasOutput other :=
  hasOutput_modify (fun _ => Layer.id_mapConsumers _ _)
    (fun _ => Layer.length_outputs_mapConsumers _ _) _ _

@[simp] theorem hasInput_link (source : OutputRef) (target other : InputRef) :
    (graph.link source target).HasInput other ↔ graph.HasInput other :=
  (hasInput_withSource _ _ _).trans (hasInput_mapConsumers _ _ _)

@[simp] theorem hasOutput_link (source : OutputRef) (target : InputRef) (other : OutputRef) :
    (graph.link source target).HasOutput other ↔ graph.HasOutput other :=
  (hasOutput_withSource _ _ _).trans (hasOutput_mapConsumers _ _ _)

@[simp] theorem hasInput_unlink (source : OutputRef) (target other : InputRef) :
    (graph.unlink source target).HasInput other ↔ graph.HasInput other :=
  (hasInput_withSource _ _ _).trans (hasInput_mapConsumers _ _ _)

@[simp] theorem hasOutput_unlink (source : OutputRef) (target : InputRef) (other : OutputRef) :
    (graph.unlink source target).HasOutput other ↔ graph.HasOutput other :=
  (hasOutput_withSource _ _ _).trans (hasOutput_mapConsumers _ _ _)

theorem sourceOf?_link {source : OutputRef} {target : InputRef} (slot : graph.HasInput target)
    (other : InputRef) :
    (graph.link source target).sourceOf? other =
      if other = target then some source else graph.sourceOf? other := by
  rw [link, sourceOf?_withSource, sourceOf?_mapConsumers]
  exact .inr ((hasInput_mapConsumers _ _ _).mpr slot)

theorem readersOf_link {source : OutputRef} (slot : graph.HasOutput source) (target : InputRef)
    (other : OutputRef) :
    (graph.link source target).readersOf other =
      if other = source then graph.readersOf source ++ [target] else graph.readersOf other := by
  rw [link, readersOf_withSource, readersOf_mapConsumers _ _ _ (.inr slot)]

theorem sourceOf?_unlink (source : OutputRef) (target other : InputRef) :
    (graph.unlink source target).sourceOf? other =
      if other = target then none else graph.sourceOf? other := by
  rw [unlink, sourceOf?_withSource _ _ _ (.inl rfl), sourceOf?_mapConsumers]

theorem readersOf_unlink (source : OutputRef) (target : InputRef) (other : OutputRef) :
    (graph.unlink source target).readersOf other =
      if other = source then (graph.readersOf source).filter (· ≠ target)
      else graph.readersOf other := by
  rw [unlink, readersOf_withSource, readersOf_mapConsumers _ _ _ (.inl rfl)]

end Graph

end NeuralGraph
