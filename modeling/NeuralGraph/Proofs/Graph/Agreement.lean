import NeuralGraph.Graph.Validation
import NeuralGraph.Proofs.Graph.Splice
import NeuralGraph.Proofs.Outcome

/-! Edits that leave part of every layer alone. A view of a layer says which part; edits of
parameters and descriptors keep the wiring, and validation changes nothing but states. -/

namespace NeuralGraph

namespace Layer

/-- The identity of a layer with its edges at both ends. -/
def wiring (layer : Layer) : LayerId × List InputSlot × List (List InputRef) :=
  (layer.id, layer.inputs, layer.outputs.map (·.consumers))

/-- The layer as it stands after an edit: everything but how far it has come. -/
def unresolved (layer : Layer) : Layer := { layer with state := .constructed }

/-- Everything about a layer but the descriptors of its outputs and how far it has come. -/
def frame (layer : Layer) : Layer :=
  { layer with
    outputs := layer.outputs.map fun slot => { consumers := slot.consumers }
    state := .constructed }

/-- The layer with outputs declared after a template, to be validated again. -/
def declaring (layer : Layer) (template : TensorInfo) (shapes : List Shape) : Layer :=
  { layer with
    outputs := Graph.declareOutputs template shapes layer.outputs
    state := .constructed }

@[simp] theorem id_declaring (layer : Layer) (template : TensorInfo) (shapes : List Shape) :
    (layer.declaring template shapes).id = layer.id := rfl

theorem wiring_unresolved (layer : Layer) : layer.unresolved.wiring = layer.wiring := rfl

theorem wiring_frame (layer : Layer) : layer.frame.wiring = layer.wiring := by
  simp [wiring, frame, Function.comp_def]

theorem inputs_of_wiring {first second : Layer} (same : first.wiring = second.wiring) :
    first.inputs = second.inputs := congrArg (·.2.1) same

theorem source?_of_wiring {first second : Layer} (same : first.wiring = second.wiring)
    (index : Nat) : first.source? index = second.source? index := by
  simp [source?, inputs_of_wiring same]

theorem readers_of_wiring {first second : Layer} (same : first.wiring = second.wiring)
    (index : Nat) : first.readers index = second.readers index := by
  have outputs : first.outputs.map (·.consumers) = second.outputs.map (·.consumers) :=
    congrArg (·.2.2) same
  have slot := congrArg (·[index]?) outputs
  simp only [List.getElem?_map] at slot
  rw [readers, readers, slot]

theorem kind_of_frame {first second : Layer} (same : first.frame = second.frame) :
    first.kind = second.kind := by
  have kinds : first.frame.kind = second.frame.kind := by rw [same]
  exact kinds

theorem inputs_of_frame {first second : Layer} (same : first.frame = second.frame) :
    first.inputs = second.inputs := by
  have inputs : first.frame.inputs = second.frame.inputs := by rw [same]
  exact inputs

theorem length_outputs_of_frame {first second : Layer} (same : first.frame = second.frame) :
    first.outputs.length = second.outputs.length := by
  have lengths : first.frame.outputs.length = second.frame.outputs.length := by rw [same]
  simpa [frame] using lengths

theorem producers_of_wiring {first second : Layer} (same : first.wiring = second.wiring) :
    first.producers = second.producers := by
  rw [producers, producers, inputs_of_wiring same]

theorem wiring_withKind (layer : Layer) (kind : LayerKind) :
    (layer.withKind kind).wiring = layer.wiring := rfl

theorem wiring_withInfo (layer : Layer) (index : Nat) (info : Option TensorInfo) :
    (layer.withInfo index info).wiring = layer.wiring := by
  have kept : (layer.withInfo index info).outputs.map (·.consumers) =
      layer.outputs.map (·.consumers) := by
    apply List.ext_getElem?
    intro other
    simp only [withInfo, List.getElem?_map, List.getElem?_modify]
    by_cases same : index = other <;> simp [same, Function.comp_def]
  simp only [wiring, kept]
  rfl

end Layer

namespace Graph

variable {graph before after : Graph} {α : Type} {view : Layer → α}

/-- Two graphs show the same view of their layers, position by position. -/
structure AgreeOn (view : Layer → α) (before after : Graph) : Prop where
  nextId : after.nextId = before.nextId
  layers : after.layers.map view = before.layers.map view

namespace AgreeOn

theorem refl (view : Layer → α) (graph : Graph) : AgreeOn view graph graph := ⟨rfl, rfl⟩

theorem symm (agree : AgreeOn view before after) : AgreeOn view after before :=
  ⟨agree.nextId.symm, agree.layers.symm⟩

theorem trans {middle : Graph} (first : AgreeOn view before middle)
    (second : AgreeOn view middle after) : AgreeOn view before after :=
  ⟨second.nextId.trans first.nextId, second.layers.trans first.layers⟩

theorem modify (graph : Graph) (id : LayerId) (f : Layer → Layer)
    (keeps : ∀ layer, view (f layer) = view layer) : AgreeOn view graph (graph.modify id f) where
  nextId := rfl
  layers := by
    simp only [Graph.modify, List.map_map]
    apply List.map_congr_left
    intro layer _
    by_cases same : layer.id = id <;> simp [same, keeps]

/-- A view agrees when one that shows more does. -/
theorem coarsen {β : Type} {coarse : Layer → β} (agree : AgreeOn view before after) (f : α → β)
    (shows : ∀ layer, f (view layer) = coarse layer) : AgreeOn coarse before after where
  nextId := agree.nextId
  layers := by
    have mapped := congrArg (List.map f) agree.layers
    simpa [List.map_map, Function.comp_def, shows] using mapped

theorem find? (agree : AgreeOn view before after) (ident : α → LayerId)
    (shows : ∀ layer, ident (view layer) = layer.id) (id : LayerId) :
    (after.find? id).map view = (before.find? id).map view := by
  have lookup : ∀ graph : Graph,
      (graph.layers.map view).find? (ident · == id) = (graph.find? id).map view := by
    intro graph
    simp only [List.find?_map, Graph.find?, Function.comp_def, shows]
  rw [← lookup, ← lookup, agree.layers]

/-- A stored layer has a counterpart that shows the same. -/
theorem exists_counterpart (agree : AgreeOn view before after) (ident : α → LayerId)
    (shows : ∀ layer, ident (view layer) = layer.id) {id : LayerId} {layer : Layer}
    (found : after.find? id = some layer) :
    ∃ old, before.find? id = some old ∧ view old = view layer := by
  have same := agree.find? ident shows id
  rw [found] at same
  exact Option.map_eq_some_iff.mp same.symm

theorem ids (agree : AgreeOn Layer.wiring before after) : after.ids = before.ids := by
  simpa [Graph.ids, Function.comp_def, Layer.wiring] using
    congrArg (List.map (·.1)) agree.layers

theorem sourceOf? (agree : AgreeOn Layer.wiring before after) (target : InputRef) :
    after.sourceOf? target = before.sourceOf? target := by
  have found := agree.find? (·.1) (fun _ => rfl) target.layer
  cases later : after.find? target.layer with
  | none =>
    have absent := Option.map_eq_none_iff.mp (found.symm.trans (by rw [later]; rfl))
    simp [Graph.sourceOf?, later, absent]
  | some layer =>
    obtain ⟨old, earlier, same⟩ := Option.map_eq_some_iff.mp (found.symm.trans (by rw [later]; rfl))
    simp [Graph.sourceOf?, later, earlier, Layer.source?_of_wiring same]

theorem readersOf (agree : AgreeOn Layer.wiring before after) (source : OutputRef) :
    after.readersOf source = before.readersOf source := by
  have found := agree.find? (·.1) (fun _ => rfl) source.layer
  cases later : after.find? source.layer with
  | none =>
    have absent := Option.map_eq_none_iff.mp (found.symm.trans (by rw [later]; rfl))
    simp [Graph.readersOf, later, absent]
  | some layer =>
    obtain ⟨old, earlier, same⟩ := Option.map_eq_some_iff.mp (found.symm.trans (by rw [later]; rfl))
    simp [Graph.readersOf, later, earlier, Layer.readers_of_wiring same]

theorem wellFormed (agree : AgreeOn Layer.wiring before after) (valid : before.WellFormed) :
    after.WellFormed where
  unique := agree.ids ▸ valid.unique
  fresh := by
    rw [agree.ids, agree.nextId]
    exact valid.fresh
  edges := by
    intro source target
    rw [agree.readersOf, agree.sourceOf?, valid.edges]
  ranked := by
    obtain ⟨rank, ranked⟩ := valid.ranked
    exact ⟨rank, fun target source reads => ranked target source (agree.sourceOf? target ▸ reads)⟩

theorem wiring_of_unresolved (agree : AgreeOn Layer.unresolved before after) :
    AgreeOn Layer.wiring before after := agree.coarsen Layer.wiring Layer.wiring_unresolved

theorem wiring_of_frame (agree : AgreeOn Layer.frame before after) :
    AgreeOn Layer.wiring before after := agree.coarsen Layer.wiring Layer.wiring_frame

end AgreeOn

theorem AgreeOn.extends (agree : AgreeOn Layer.wiring before after) : before.Extends after :=
  .of_ids agree.nextId agree.ids

theorem agree_editKind (graph : Graph) (id : LayerId) (f : LayerKind → LayerKind) :
    AgreeOn Layer.wiring graph (graph.editKind id f) :=
  .modify graph id _ fun _ => Layer.wiring_withKind _ _

theorem agree_reset (graph : Graph) (id : LayerId) :
    AgreeOn Layer.unresolved graph (graph.reset id) := .modify graph id _ fun _ => rfl

theorem agree_resetEach (ids : List LayerId) (graph : Graph) :
    AgreeOn Layer.unresolved graph (ids.foldl reset graph) := by
  induction ids generalizing graph with
  | nil => exact .refl _ _
  | cons id rest ih => exact (agree_reset graph id).trans (ih (graph.reset id))

theorem agree_setInfo {slot : OutputRef} {info : TensorInfo}
    (accepted : graph.setInfo slot info = .ok after) : AgreeOn Layer.wiring graph after := by
  obtain ⟨_, rfl⟩ := setInfo_eq_ok.mp accepted
  have declared : AgreeOn Layer.wiring graph
      (graph.modify slot.layer (·.withInfo slot.index (some info))) :=
    .modify graph slot.layer _ fun _ => Layer.wiring_withInfo _ _ _
  exact declared.trans ((agree_reset _ _).trans (agree_resetEach _ _)).wiring_of_unresolved

theorem agree_replace {id : LayerId} {kind old : LayerKind}
    (accepted : graph.replace id kind = .ok (old, after)) : AgreeOn Layer.wiring graph after := by
  obtain ⟨_, _, _, _, _, rfl⟩ := replace_eq_ok.mp accepted
  exact agree_editKind graph id _

theorem agree_markResolved (graph : Graph) (id : LayerId) :
    AgreeOn Layer.unresolved graph (graph.markResolved id) := by
  apply AgreeOn.modify graph id _
  intro layer
  split <;> rfl

theorem agree_markBound (graph : Graph) (id : LayerId) :
    AgreeOn Layer.unresolved graph (graph.markBound id) := .modify graph id _ fun _ => rfl

theorem agree_validateEach (ids : List LayerId) (graph : Graph) :
    AgreeOn Layer.unresolved graph (validateEach ids graph).1 := by
  induction ids generalizing graph with
  | nil => exact .refl _ _
  | cons id rest ih =>
    rw [validateEach]
    cases graph.validateLayer id with
    | error _ => exact .refl _ _
    | ok _ => exact (agree_markResolved graph id).trans (ih (graph.markResolved id))

theorem agree_validate (graph : Graph) : AgreeOn Layer.unresolved graph graph.validate.1 := by
  rw [validate]
  cases graph.topologicalOrder with
  | error _ => exact .refl _ _
  | ok order => exact agree_validateEach order graph

theorem map_consumers_declareOutputs (template : TensorInfo) (shapes : List Shape)
    (slots : List OutputSlot) :
    (declareOutputs template shapes slots).map (·.consumers) = slots.map (·.consumers) := by
  induction shapes generalizing slots with
  | nil => cases slots <;> rfl
  | cons shape shapes ih =>
    cases slots with
    | nil => rfl
    | cons slot slots => simp [declareOutputs, ih]

@[simp] theorem length_declareOutputs (template : TensorInfo) (shapes : List Shape)
    (slots : List OutputSlot) : (declareOutputs template shapes slots).length = slots.length := by
  simpa using congrArg List.length (map_consumers_declareOutputs template shapes slots)

theorem inferLayer_eq_ok {id : LayerId} :
    graph.inferLayer id = .ok after ↔
      (∃ layer binding, graph.find? id = some layer ∧ layer.kind = .input binding ∧
        (∃ declared, declaredShapes layer = .ok declared) ∧ after = graph) ∨
      ∃ layer template inputs inferred, graph.find? id = some layer ∧
        (∀ binding, layer.kind ≠ .input binding) ∧
        graph.layerInputInfos layer = .ok (template :: inputs) ∧
        inferOutputs layer (template :: inputs) = .ok inferred ∧
        after = graph.modify id (·.declaring template inferred) := by
  unfold inferLayer
  rw [get_bind_eq_ok]
  constructor
  · rintro ⟨layer, found, inferred⟩
    split at inferred
    · rename_i binding operation
      obtain ⟨declared, shapes, kept⟩ := bind_eq_ok.mp inferred
      exact .inl ⟨layer, binding, found, operation, ⟨declared, shapes⟩, (pure_eq_ok.mp kept).symm⟩
    · rename_i other
      obtain ⟨inputs, flows, inferred⟩ := bind_eq_ok.mp inferred
      obtain ⟨shapes, gives, inferred⟩ := bind_eq_ok.mp inferred
      cases inputs with
      | nil => exact absurd inferred throw_ne_ok
      | cons template inputs =>
        exact .inr ⟨layer, template, inputs, shapes, found, other, flows, gives,
          (pure_eq_ok.mp inferred).symm⟩
  · rintro (⟨layer, binding, found, operation, ⟨declared, shapes⟩, rfl⟩ |
      ⟨layer, template, inputs, shapes, found, other, flows, gives, rfl⟩)
    · refine ⟨layer, found, ?_⟩
      simp only [operation, shapes]
      rfl
    · refine ⟨layer, found, ?_⟩
      split
      · rename_i binding operation
        exact absurd operation (other binding)
      · simp only [flows, bind_ok, gives]
        rfl

/-- Inference gives at most one layer new descriptors. -/
theorem agree_inferLayer {id : LayerId} (inferred : graph.inferLayer id = .ok after) :
    AgreeOn Layer.frame graph after := by
  have redeclared : ∀ template shapes,
      AgreeOn Layer.frame graph (graph.modify id (·.declaring template shapes)) :=
    fun template shapes => .modify graph id _ fun layer => by
      have readers := congrArg (List.map fun consumers => ({ consumers } : OutputSlot))
        (map_consumers_declareOutputs template shapes layer.outputs)
      simpa [Layer.frame, Layer.declaring, Function.comp_def] using readers
  rcases inferLayer_eq_ok.mp inferred with
    ⟨_, _, _, _, _, rfl⟩ | ⟨_, _, _, _, _, _, _, _, rfl⟩
  · exact .refl _ _
  · exact redeclared _ _

theorem agree_inferEach (ids : List LayerId) (graph : Graph) :
    AgreeOn Layer.frame graph (inferEach ids graph).1 := by
  induction ids generalizing graph with
  | nil => exact .refl _ _
  | cons id rest ih =>
    rw [inferEach]
    cases inferred : graph.inferLayer id with
    | error _ => exact .refl _ _
    | ok next => exact (agree_inferLayer inferred).trans (ih next)

theorem agree_infer (graph : Graph) : AgreeOn Layer.frame graph graph.infer.1 := by
  rw [infer]
  cases graph.topologicalOrder with
  | error _ => exact .refl _ _
  | ok order => exact agree_inferEach order graph

end Graph

end NeuralGraph
