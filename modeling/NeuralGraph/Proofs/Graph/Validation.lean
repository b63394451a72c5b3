import NeuralGraph.Proofs.Graph.Agreement
import NeuralGraph.Proofs.Graph.Schedule
import NeuralGraph.Proofs.Layer.Inference

/-! What validation checks. A layer that passes has a descriptor on every input and output, sound
parameters, and outputs declared as inference says; none of this depends on states. -/

namespace NeuralGraph

namespace Graph

variable {graph before after : Graph}

theorem inputInfosFrom_eq_ok {label : String} {index : Nat} {slots : List InputSlot}
    {infos : List TensorInfo} :
    graph.inputInfosFrom label index slots = .ok infos ↔
      infos.map some = slots.map (·.source.bind graph.slotInfo?) := by
  induction slots generalizing index infos with
  | nil => simp [inputInfosFrom]
  | cons slot slots ih =>
    rw [List.map_cons, List.map_eq_cons_iff]
    cases connected : slot.source with
    | none => simp [inputInfosFrom, connected]
    | some source =>
      cases declared : graph.slotInfo? source with
      | none => simp [inputInfosFrom, connected, declared]
      | some info =>
        simp only [inputInfosFrom, connected, declared, cons_bind_eq_ok, ih, Option.bind_some,
          Option.some.injEq]
        constructor
        · rintro ⟨rest, flows, rfl⟩
          exact ⟨info, rest, rfl, rfl, flows⟩
        · rintro ⟨_, rest, rfl, rfl, flows⟩
          exact ⟨rest, flows, rfl⟩

theorem layerInputInfos_eq_ok {layer : Layer} {infos : List TensorInfo} :
    graph.layerInputInfos layer = .ok infos ↔
      infos.map some = layer.inputs.map (·.source.bind graph.slotInfo?) := inputInfosFrom_eq_ok

theorem declaredInfosFrom_eq_ok {label : String} {index : Nat} {slots : List OutputSlot}
    {infos : List TensorInfo} :
    declaredInfosFrom label index slots = .ok infos ↔ infos.map some = slots.map (·.info) := by
  induction slots generalizing index infos with
  | nil => simp [declaredInfosFrom]
  | cons slot slots ih =>
    rw [List.map_cons, List.map_eq_cons_iff]
    cases declared : slot.info with
    | none => simp [declaredInfosFrom, declared]
    | some info =>
      simp only [declaredInfosFrom, declared, cons_bind_eq_ok, ih, Option.some.injEq]
      constructor
      · rintro ⟨rest, all, rfl⟩
        exact ⟨info, rest, rfl, rfl, all⟩
      · rintro ⟨_, rest, rfl, rfl, all⟩
        exact ⟨rest, all, rfl⟩

theorem declaredShapes_eq_ok {layer : Layer} {shapes : List Shape} :
    declaredShapes layer = .ok shapes ↔
      shapes.map some = layer.outputs.map (·.info.map (·.shape)) := by
  simp only [declaredShapes, bind_eq_ok, pure_eq_ok, declaredInfosFrom_eq_ok]
  constructor
  · rintro ⟨infos, all, rfl⟩
    have shapes := congrArg (List.map (Option.map (·.shape))) all
    simpa [List.map_map, Function.comp_def] using shapes
  · intro all
    generalize layer.outputs = slots at all
    induction slots generalizing shapes with
    | nil => exact ⟨[], rfl, by simpa using all.symm⟩
    | cons slot slots ih =>
      obtain ⟨shape, rest, rfl, first, others⟩ := List.map_eq_cons_iff.mp all
      obtain ⟨info, declared, rfl⟩ := Option.map_eq_some_iff.mp first.symm
      obtain ⟨infos, declaredRest, rfl⟩ := ih others
      exact ⟨info :: infos, by simp [declared, declaredRest], rfl⟩

theorem eq_of_firstMismatch? {index : Nat} {inferred declared : List Shape}
    (lengths : inferred.length = declared.length)
    (same : firstMismatch? index inferred declared = none) : inferred = declared := by
  induction inferred generalizing index declared with
  | nil => exact (List.eq_nil_of_length_eq_zero lengths.symm).symm
  | cons expected inferred ih =>
    cases declared with
    | nil => simp at lengths
    | cons actual declared =>
      simp only [firstMismatch?] at same
      split at same
      · rename_i equal
        rw [equal, ih (by simpa using lengths) same]
      · cases same

/-- Every layer has the slots of its kind. -/
def SlotsMatch (graph : Graph) : Prop :=
  ∀ layer ∈ graph.layers,
    layer.inputs.length = layer.kind.inputCount ∧ layer.outputs.length = layer.kind.outputCount

/-- What validation finds out about one layer. An input layer only has to declare its
outputs. -/
structure Passes (graph : Graph) (layer : Layer) (inputs : List TensorInfo)
    (declared : List Shape) : Prop where
  flows : graph.layerInputInfos layer = .ok inputs
  parameters : layer.kind.checkParameters = .ok ()
  declares : declaredShapes layer = .ok declared
  agrees : (∀ binding, layer.kind ≠ .input binding) → ∃ inferred,
    inferOutputs layer inputs = .ok inferred ∧ firstMismatch? 0 inferred declared = none

theorem validateLayer_eq_ok {id : LayerId} :
    graph.validateLayer id = .ok () ↔
      ∃ layer inputs declared,
        graph.find? id = some layer ∧ graph.Passes layer inputs declared := by
  unfold validateLayer
  rw [get_bind_eq_ok]
  constructor
  · rintro ⟨layer, found, checked⟩
    obtain ⟨inputs, flows, checked⟩ := bind_eq_ok.mp checked
    cases parameters : layer.kind.checkParameters with
    | error fault => simp [parameters, throw_bind_ne_ok] at checked
    | ok _ =>
      simp only [parameters] at checked
      split at checked
      · rename_i binding operation
        obtain ⟨declared, declares, _⟩ := bind_eq_ok.mp checked
        exact ⟨layer, inputs, declared, found, flows, parameters, declares,
          fun other => absurd operation (other binding)⟩
      · obtain ⟨inferred, infers, checked⟩ := bind_eq_ok.mp checked
        obtain ⟨declared, declares, checked⟩ := bind_eq_ok.mp checked
        refine ⟨layer, inputs, declared, found, flows, parameters, declares,
          fun _ => ⟨inferred, infers, ?_⟩⟩
        cases mismatch : firstMismatch? 0 inferred declared with
        | none => rfl
        | some found => exact absurd (mismatch ▸ checked) throw_ne_ok
  · rintro ⟨layer, inputs, declared, found, flows, parameters, declares, agrees⟩
    refine ⟨layer, found, bind_eq_ok.mpr ⟨inputs, flows, ?_⟩⟩
    simp only [parameters]
    split
    · exact bind_eq_ok.mpr ⟨declared, declares, rfl⟩
    · rename_i other
      obtain ⟨inferred, infers, same⟩ := agrees other
      refine bind_eq_ok.mpr ⟨inferred, infers, bind_eq_ok.mpr ⟨declared, declares, ?_⟩⟩
      simp only [same]
      rfl

theorem Passes.validateLayer {id : LayerId} {layer : Layer} {inputs : List TensorInfo}
    {declared : List Shape} (passes : graph.Passes layer inputs declared)
    (found : graph.find? id = some layer) : graph.validateLayer id = .ok () :=
  validateLayer_eq_ok.mpr ⟨layer, inputs, declared, found, passes⟩

theorem exists_passes_of_validateLayer {id : LayerId} {layer : Layer}
    (checked : graph.validateLayer id = .ok ()) (found : graph.find? id = some layer) :
    ∃ inputs declared, graph.Passes layer inputs declared := by
  obtain ⟨holder, inputs, declared, stored, passes⟩ := validateLayer_eq_ok.mp checked
  rw [found, Option.some.injEq] at stored
  exact ⟨inputs, declared, stored ▸ passes⟩

theorem inferOutputs_eq_ok {layer : Layer} {inputs : List TensorInfo} {shapes : List Shape} :
    inferOutputs layer inputs = .ok shapes ↔
      layer.kind.inferShapes (inputs.map (·.shape)) = .ok shapes := by
  unfold inferOutputs
  cases layer.kind.inferShapes (inputs.map (·.shape)) <;> simp

/-- Whether a layer passes depends on its kind, on what it declares and on what flows in. -/
theorem Passes.of_flows {old layer : Layer} {inputs : List TensorInfo} {declared : List Shape}
    (passes : before.Passes old inputs declared) (kind : layer.kind = old.kind)
    (infos : layer.outputs.map (·.info) = old.outputs.map (·.info))
    (flows : after.layerInputInfos layer = .ok inputs) : after.Passes layer inputs declared where
  flows := flows
  parameters := kind ▸ passes.parameters
  declares := by
    have shapes := congrArg (List.map (Option.map (·.shape))) infos
    simp only [List.map_map] at shapes
    exact declaredShapes_eq_ok.mpr ((declaredShapes_eq_ok.mp passes.declares).trans shapes.symm)
  agrees := by
    intro computes
    obtain ⟨inferred, infers, same⟩ := passes.agrees (kind ▸ computes)
    refine ⟨inferred, ?_, same⟩
    rw [inferOutputs_eq_ok, kind]
    exact inferOutputs_eq_ok.mp infers

/-- A layer that passes has a descriptor on each output. -/
theorem Passes.exists_info {layer : Layer} {inputs : List TensorInfo} {declared : List Shape}
    (passes : graph.Passes layer inputs declared) {slot : OutputSlot}
    (member : slot ∈ layer.outputs) : ∃ info, slot.info = some info := by
  have shape : slot.info.map (·.shape) ∈ declared.map some := by
    rw [declaredShapes_eq_ok.mp passes.declares]
    exact List.mem_map_of_mem member
  obtain ⟨_, _, carries⟩ := List.mem_map.mp shape
  obtain ⟨info, declares, _⟩ := Option.map_eq_some_iff.mp carries.symm
  exact ⟨info, declares⟩

/-- Without missing slots, a layer that passes declares exactly what inference says. -/
theorem Passes.inferShapes {layer : Layer} {inputs : List TensorInfo} {declared : List Shape}
    (passes : graph.Passes layer inputs declared)
    (operation : ∀ binding, layer.kind ≠ .input binding)
    (outputs : layer.outputs.length = layer.kind.outputCount) :
    layer.kind.inferShapes (inputs.map (·.shape)) = .ok declared := by
  obtain ⟨inferred, infers, same⟩ := passes.agrees operation
  have gives := inferOutputs_eq_ok.mp infers
  have lengths : inferred.length = declared.length := by
    have slots := congrArg List.length (declaredShapes_eq_ok.mp passes.declares)
    rw [LayerKind.length_inferShapes gives, ← outputs]
    simpa using slots.symm
  rw [gives, eq_of_firstMismatch? lengths same]

/-- The shape that a slot of a stored layer carries. -/
theorem shape_of_find? {slot : OutputRef} {layer : Layer}
    (found : graph.find? slot.layer = some layer) :
    (graph.slotInfo? slot).map (·.shape) =
      ((layer.outputs.map (·.info.map (·.shape)))[slot.index]?).join := by
  simp only [Graph.slotInfo?, found, Option.bind_eq_bind, Option.bind_some, List.getElem?_map]
  cases layer.outputs[slot.index]? <;> rfl

theorem AgreeOn.slotInfo? (agree : AgreeOn Layer.unresolved before after) (slot : OutputRef) :
    after.slotInfo? slot = before.slotInfo? slot := by
  have found := agree.find? (·.id) (fun _ => rfl) slot.layer
  have shown : ∀ graph : Graph, graph.slotInfo? slot =
      ((graph.find? slot.layer).map Layer.unresolved).bind fun layer =>
        (layer.outputs[slot.index]?).bind (·.info) := by
    intro graph
    rw [Graph.slotInfo?]
    cases graph.find? slot.layer <;> rfl
  rw [shown, shown, found]

/-- The stored layer of the same id differs in nothing but its state. -/
theorem AgreeOn.exists_find? (agree : AgreeOn Layer.unresolved before after) {id : LayerId}
    {layer : Layer} (found : after.find? id = some layer) :
    ∃ old, before.find? id = some old ∧ layer = { old with state := layer.state } := by
  obtain ⟨old, earlier, equal⟩ := agree.exists_counterpart (·.id) (fun _ => rfl) found
  refine ⟨old, earlier, ?_⟩
  cases old
  cases layer
  simpa [Layer.unresolved, eq_comm] using equal

theorem AgreeOn.passes (agree : AgreeOn Layer.unresolved before after) {layer : Layer}
    {inputs : List TensorInfo} {declared : List Shape} {state : LayerState}
    (passes : after.Passes { layer with state } inputs declared) :
    before.Passes layer inputs declared := by
  have flows := layerInputInfos_eq_ok.mp passes.flows
  rw [funext agree.slotInfo?] at flows
  exact passes.of_flows rfl rfl (layerInputInfos_eq_ok.mpr flows)

theorem AgreeOn.exists_passes (agree : AgreeOn Layer.unresolved before after) {id : LayerId}
    {layer : Layer} (passes : ∀ {layer}, after.find? id = some layer →
      ∃ inputs declared, after.Passes layer inputs declared)
    (found : before.find? id = some layer) :
    ∃ inputs declared, before.Passes layer inputs declared := by
  obtain ⟨now, stored⟩ :=
    Graph.exists_find? (agree.wiring_of_unresolved.ids ▸ mem_ids_of_find? found)
  obtain ⟨inputs, declared, pass⟩ := passes stored
  obtain ⟨old, earlier, same⟩ := agree.exists_find? stored
  obtain rfl : layer = old := Option.some.inj (found.symm.trans earlier)
  exact ⟨inputs, declared, agree.passes (same ▸ pass)⟩

/-- A schedule is one for every graph that is wired alike. -/
theorem Schedule.of_agree (agree : AgreeOn Layer.wiring before after)
    {done order : List LayerId} (schedule : after.Schedule done order) :
    before.Schedule done order := by
  induction schedule with
  | nil => exact .nil
  | cons found ready _ ih =>
    obtain ⟨old, stored, same⟩ := agree.exists_counterpart (·.1) (fun _ => rfl) found
    refine .cons stored (fun producer reads => ready producer ?_) ih
    rwa [← Layer.producers_of_wiring same]

/-- The scheduler sees nothing of a layer but its wiring. -/
theorem scheduleFrom_of_wiring {fuel : Nat} {done : List LayerId} {first second : List Layer}
    (same : first.map Layer.wiring = second.map Layer.wiring) :
    scheduleFrom fuel done first = scheduleFrom fuel done second := by
  induction fuel generalizing done first second with
  | zero => cases first <;> cases second <;> simp_all [scheduleFrom]
  | succ fuel ih =>
    have chosen : (first.find? (isReady done)).map Layer.wiring =
        (second.find? (isReady done)).map Layer.wiring := by
      have shown : ∀ layers : List Layer, (layers.find? (isReady done)).map Layer.wiring =
          (layers.map Layer.wiring).find? fun wiring =>
            (wiring.2.1.filterMap fun slot => slot.source.map (·.layer)).all done.contains := by
        intro layers
        rw [List.find?_map]
        rfl
      rw [shown, shown, same]
    have erased : ∀ id, (first.eraseP (·.id == id)).map Layer.wiring =
        (second.eraseP (·.id == id)).map Layer.wiring := by
      have shown : ∀ (layers : List Layer) id, (layers.eraseP (·.id == id)).map Layer.wiring =
          (layers.map Layer.wiring).eraseP (·.1 == id) := by
        intro layers id
        rw [List.eraseP_map]
        rfl
      intro id
      rw [shown, shown, same]
    cases first with
    | nil =>
      obtain rfl := List.map_eq_nil_iff.mp same.symm
      rfl
    | cons head rest =>
      obtain ⟨other, others, rfl, _⟩ := List.map_eq_cons_iff.mp same.symm
      simp only [scheduleFrom]
      cases found : (head :: rest).find? (isReady done) with
      | none =>
        rw [found] at chosen
        rw [Option.map_eq_none_iff.mp chosen.symm]
      | some next =>
        rw [found] at chosen
        obtain ⟨twin, foundTwin, twins⟩ := Option.map_eq_some_iff.mp chosen.symm
        have sameId : twin.id = next.id := congrArg (·.1) twins
        rw [foundTwin]
        simp only [sameId]
        rw [ih (erased next.id)]

theorem AgreeOn.topologicalOrder (agree : AgreeOn Layer.wiring before after) :
    after.topologicalOrder = before.topologicalOrder := by
  have lengths := congrArg List.length agree.layers
  simp only [List.length_map] at lengths
  rw [Graph.topologicalOrder, Graph.topologicalOrder, lengths,
    scheduleFrom_of_wiring agree.layers]

theorem validateEach_ok {order : List LayerId} (success : (validateEach order graph).2 = .ok ())
    {id : LayerId} (member : id ∈ order) :
    ∃ layer inputs declared, graph.find? id = some layer ∧ graph.Passes layer inputs declared := by
  induction order generalizing graph with
  | nil => cases member
  | cons first rest ih =>
    rw [validateEach] at success
    cases checked : graph.validateLayer first with
    | error error => simp [checked] at success
    | ok _ =>
      simp only [checked] at success
      rcases List.mem_cons.mp member with rfl | later
      · exact validateLayer_eq_ok.mp checked
      · obtain ⟨layer, inputs, declared, found, passes⟩ := ih success later
        have agree := agree_markResolved graph first
        obtain ⟨old, earlier, same⟩ := agree.exists_find? found
        exact ⟨old, inputs, declared, earlier, agree.passes (same ▸ passes)⟩

/-- Every layer of a validated graph passes. -/
theorem WellFormed.validate_ok (valid : graph.WellFormed) (success : graph.validate.2 = .ok ())
    {layer : Layer} {id : LayerId} (found : graph.find? id = some layer) :
    ∃ inputs declared, graph.Passes layer inputs declared := by
  obtain ⟨order, scheduled⟩ := valid.topologicalOrder
  have member : id ∈ order :=
    (topologicalOrder_sound valid.unique scheduled).1.mem_iff.mpr (mem_ids_of_find? found)
  simp only [validate, scheduled] at success
  obtain ⟨same, inputs, declared, again, passes⟩ := validateEach_ok success member
  rw [found] at again
  cases again
  exact ⟨inputs, declared, passes⟩

private theorem validateEach_total {order : List LayerId} (stored : ∀ id ∈ order, id ∈ graph.ids)
    (passes : ∀ {id layer}, graph.find? id = some layer →
      ∃ inputs declared, graph.Passes layer inputs declared) :
    (validateEach order graph).2 = .ok () := by
  induction order generalizing graph with
  | nil => rfl
  | cons first rest ih =>
    obtain ⟨layer, found⟩ := Graph.exists_find? (stored first List.mem_cons_self)
    obtain ⟨inputs, declared, pass⟩ := passes found
    have checked := pass.validateLayer found
    have agree := agree_markResolved graph first
    rw [validateEach, checked]
    apply ih
    · intro id later
      rw [agree.wiring_of_unresolved.ids]
      exact stored id (List.mem_cons_of_mem _ later)
    · exact fun found => agree.symm.exists_passes passes found

/-- Validation accepts a graph exactly when each of its layers passes. -/
theorem WellFormed.validate_eq_ok (valid : graph.WellFormed) :
    graph.validate.2 = .ok () ↔ ∀ id layer, graph.find? id = some layer →
      ∃ inputs declared, graph.Passes layer inputs declared := by
  constructor
  · exact fun success id layer found => valid.validate_ok success found
  · intro passes
    obtain ⟨order, scheduled⟩ := valid.topologicalOrder
    have perm := (topologicalOrder_sound valid.unique scheduled).1
    simp only [validate, scheduled]
    exact validateEach_total (fun id member => perm.mem_iff.mp member)
      fun found => passes _ _ found

theorem mem_layers_modify {id : LayerId} {f : Layer → Layer} {layer : Layer} :
    layer ∈ (graph.modify id f).layers ↔
      ∃ old ∈ graph.layers, (if old.id = id then f old else old) = layer := List.mem_map

/-- Validation takes each layer that it goes through out of the constructed state. -/
theorem validateEach_resolves {order done : List LayerId}
    (before : ∀ layer ∈ graph.layers, layer.id ∈ done → layer.state ≠ .constructed)
    (success : (validateEach order graph).2 = .ok ()) :
    ∀ layer ∈ (validateEach order graph).1.layers,
      layer.id ∈ done ∨ layer.id ∈ order → layer.state ≠ .constructed := by
  induction order generalizing graph done with
  | nil =>
    intro layer member seen
    exact before layer member (seen.resolve_right List.not_mem_nil)
  | cons first rest ih =>
    rw [validateEach] at success ⊢
    cases checked : graph.validateLayer first with
    | error error => simp [checked] at success
    | ok _ =>
      simp only [checked] at success ⊢
      intro layer member seen
      refine @ih (graph.markResolved first) (first :: done) ?_ success layer member ?_
      · intro layer member seen
        obtain ⟨old, inside, rfl⟩ := mem_layers_modify.mp member
        by_cases here : old.id = first
        · simp only [if_pos here]
          by_cases waits : old.state = .constructed <;> simp [waits]
        · simp only [if_neg here] at seen ⊢
          exact before old inside ((List.mem_cons.mp seen).resolve_left here)
      · rcases seen with earlier | later
        · exact .inl (List.mem_cons_of_mem _ earlier)
        · rcases List.mem_cons.mp later with same | later
          · exact .inl (same ▸ List.mem_cons_self)
          · exact .inr later

theorem WellFormed.validate_resolves (valid : graph.WellFormed)
    (success : graph.validate.2 = .ok ()) :
    ∀ layer ∈ graph.validate.1.layers, layer.state ≠ .constructed := by
  obtain ⟨order, scheduled⟩ := valid.topologicalOrder
  have perm := (topologicalOrder_sound valid.unique scheduled).1
  have agree := agree_validateEach order graph
  simp only [validate, scheduled] at success ⊢
  intro layer member
  refine validateEach_resolves (fun _ _ seen => absurd seen List.not_mem_nil) success layer member
    (.inr (perm.mem_iff.mpr ?_))
  rw [← agree.wiring_of_unresolved.ids]
  exact List.mem_map_of_mem member

end Graph

end NeuralGraph
