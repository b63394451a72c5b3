import NeuralGraph.Proofs.Graph.History
import NeuralGraph.Proofs.Graph.Validation

/-! Inference over a graph. A pass that succeeds leaves every layer with outputs that follow from
its inputs as they then are, so a second pass changes nothing; and validation accepts exactly the
graphs that already carry the shapes inference would declare. -/

namespace NeuralGraph.Graph

variable {graph before after : Graph}

theorem slotInfo?_of_find? {slot : OutputRef} {layer : Layer}
    (found : graph.find? slot.layer = some layer) :
    graph.slotInfo? slot = (layer.outputs[slot.index]?).bind (·.info) := by
  simp [slotInfo?, found]

theorem slotInfo?_congr {slot : OutputRef}
    (same : after.find? slot.layer = before.find? slot.layer) :
    after.slotInfo? slot = before.slotInfo? slot := by
  rw [slotInfo?, slotInfo?, same]

/-- A slot that is not there carries nothing. -/
theorem slotInfo?_eq_none {slot : OutputRef} (absent : ¬graph.HasOutput slot) :
    graph.slotInfo? slot = none := by
  cases found : graph.find? slot.layer with
  | none => simp [slotInfo?, found]
  | some layer =>
    have outside : ¬slot.index < layer.outputs.length := fun inside => absent ⟨layer, found, inside⟩
    simp [slotInfo?_of_find? found, outside]

theorem map_info_declareOutputs (template : TensorInfo) {shapes : List Shape}
    {slots : List OutputSlot} (lengths : shapes.length = slots.length) :
    (declareOutputs template shapes slots).map (·.info) =
      shapes.map fun shape => some { template with shape } := by
  induction shapes generalizing slots with
  | nil =>
    rw [List.eq_nil_of_length_eq_zero lengths.symm]
    rfl
  | cons shape shapes ih =>
    cases slots with
    | nil => simp at lengths
    | cons slot slots => simp [declareOutputs, ih (by simpa using lengths)]

theorem declareOutputs_idem (template : TensorInfo) (shapes : List Shape)
    (slots : List OutputSlot) :
    declareOutputs template shapes (declareOutputs template shapes slots) =
      declareOutputs template shapes slots := by
  induction shapes generalizing slots with
  | nil => cases slots <;> rfl
  | cons shape shapes ih =>
    cases slots with
    | nil => rfl
    | cons slot slots => simp [declareOutputs, ih]

/-- Shapes that agree with the declared ones, as far as both reach, are declared already. -/
theorem map_shape_declareOutputs (template : TensorInfo) {index : Nat}
    {inferred declared : List Shape} {slots : List OutputSlot}
    (declares : declared.map some = slots.map (·.info.map (·.shape)))
    (agrees : firstMismatch? index inferred declared = none) :
    (declareOutputs template inferred slots).map (·.info.map (·.shape)) =
      slots.map (·.info.map (·.shape)) := by
  induction inferred generalizing index declared slots with
  | nil => cases slots <;> rfl
  | cons expected inferred ih =>
    cases slots with
    | nil => rfl
    | cons slot slots =>
      obtain ⟨actual, rest, rfl, first, others⟩ := List.map_eq_cons_iff.mp declares
      simp only [firstMismatch?] at agrees
      split at agrees
      · rename_i same
        simp [declareOutputs, same, first, ih others agrees]
      · cases agrees

theorem firstMismatch?_self (index : Nat) (shapes : List Shape) :
    firstMismatch? index shapes shapes = none := by
  induction shapes generalizing index with
  | nil => rfl
  | cons shape shapes ih => simp [firstMismatch?, ih]

/-- A slot carries the same shape in both graphs, or no descriptor in either. -/
def SameShape (before after : Graph) (slot : OutputRef) : Prop :=
  (after.slotInfo? slot).map (·.shape) = (before.slotInfo? slot).map (·.shape)

/-- Descriptors flow into a layer when each input is connected to a slot that has one. -/
theorem layerInputInfos_isOk_iff {layer : Layer} :
    (∃ inputs, graph.layerInputInfos layer = .ok inputs) ↔ ∀ slot ∈ layer.inputs,
      ∃ source info, slot.source = some source ∧ graph.slotInfo? source = some info := by
  simp only [layerInputInfos_eq_ok]
  generalize layer.inputs = slots
  induction slots with
  | nil => exact ⟨fun _ => by simp, fun _ => ⟨[], rfl⟩⟩
  | cons slot slots ih =>
    rw [List.forall_mem_cons, ← ih]
    constructor
    · rintro ⟨inputs, flows⟩
      obtain ⟨info, rest, rfl, first, later⟩ := List.map_eq_cons_iff.mp flows
      obtain ⟨source, reads, carries⟩ := Option.bind_eq_some_iff.mp first.symm
      exact ⟨⟨source, info, reads, carries⟩, rest, later⟩
    · rintro ⟨⟨source, info, reads, carries⟩, rest, later⟩
      exact ⟨info :: rest, by simp [reads, carries, later]⟩

/-- What flows into a layer is what its sources carry. -/
theorem flows_of_carried {layer : Layer} {inputs : List TensorInfo}
    (flows : before.layerInputInfos layer = .ok inputs)
    (carried : ∀ slot ∈ layer.inputs, ∀ source ∈ slot.source, ∀ info,
      before.slotInfo? source = some info → after.slotInfo? source = some info) :
    after.layerInputInfos layer = .ok inputs := by
  rw [layerInputInfos_eq_ok, layerInputInfos_eq_ok.mp flows]
  apply List.map_congr_left
  intro slot member
  obtain ⟨source, info, reads, carries⟩ :=
    layerInputInfos_isOk_iff.mp ⟨inputs, flows⟩ slot member
  simp [reads, carries, carried slot member source reads info carries]

/-- Inputs with the same shapes flow into a layer whose sources carry the same shapes. -/
theorem exists_flows {layer : Layer} {inputs : List TensorInfo}
    (flows : before.layerInputInfos layer = .ok inputs)
    (same : ∀ slot ∈ layer.inputs, ∀ source ∈ slot.source, before.SameShape after source) :
    ∃ others, after.layerInputInfos layer = .ok others ∧
      others.map (·.shape) = inputs.map (·.shape) := by
  simp only [layerInputInfos_eq_ok] at flows ⊢
  generalize layer.inputs = slots at flows same
  induction slots generalizing inputs with
  | nil =>
    obtain rfl : inputs = [] := by simpa using flows
    exact ⟨[], rfl, rfl⟩
  | cons slot slots ih =>
    obtain ⟨info, rest, rfl, first, later⟩ := List.map_eq_cons_iff.mp flows
    obtain ⟨source, reads, carries⟩ := Option.bind_eq_some_iff.mp first.symm
    have shape := same slot List.mem_cons_self source reads
    rw [SameShape, carries, Option.map_some] at shape
    obtain ⟨now, carriesNow, sameShape⟩ := Option.map_eq_some_iff.mp shape
    obtain ⟨others, flowsLater, shapes⟩ :=
      ih later fun slot member => same slot (List.mem_cons_of_mem _ member)
    exact ⟨now :: others, by simp [reads, carriesNow, flowsLater], by simp [sameShape, shapes]⟩

theorem sameShape_of_find? {slot : OutputRef}
    (same : after.find? slot.layer = before.find? slot.layer) : before.SameShape after slot := by
  rw [SameShape, slotInfo?_congr same]

/-- The shapes that a layer declares are those that its slots carry. -/
theorem sameShape_of_outputs {id : LayerId} {old now : Layer}
    (foundBefore : before.find? id = some old) (foundAfter : after.find? id = some now)
    (same : now.outputs.map (·.info.map (·.shape)) = old.outputs.map (·.info.map (·.shape)))
    (index : Nat) : before.SameShape after ⟨id, index⟩ := by
  rw [SameShape, @shape_of_find? after ⟨id, index⟩ now foundAfter,
    @shape_of_find? before ⟨id, index⟩ old foundBefore, same]

theorem outputs_of_sameShape {id : LayerId} {old now : Layer}
    (foundBefore : before.find? id = some old) (foundAfter : after.find? id = some now)
    (lengths : now.outputs.length = old.outputs.length)
    (same : ∀ index, before.SameShape after ⟨id, index⟩) :
    now.outputs.map (·.info.map (·.shape)) = old.outputs.map (·.info.map (·.shape)) := by
  apply List.ext_getElem (by simp [lengths])
  intro index insideNow insideOld
  have shape := same index
  rw [SameShape, @shape_of_find? after ⟨id, index⟩ now foundAfter,
    @shape_of_find? before ⟨id, index⟩ old foundBefore] at shape
  simpa [List.getElem?_eq_getElem insideNow, List.getElem?_eq_getElem insideOld] using shape

theorem inferOutputs_congr {layer : Layer} {inputs others : List TensorInfo}
    (shapes : others.map (·.shape) = inputs.map (·.shape)) :
    inferOutputs layer others = inferOutputs layer inputs := by
  rw [inferOutputs, inferOutputs, shapes]

/-- What a successful pass has made of a layer: an input layer stays as it was, and any other one
declares what follows from its inputs as the pass leaves them. -/
inductive Settled (before after : Graph) (id : LayerId) : Prop where
  | input {layer : Layer} {binding : UInt32} {declared : List Shape}
      (found : before.find? id = some layer) (binds : layer.kind = .input binding)
      (declares : declaredShapes layer = .ok declared) (kept : after.find? id = some layer)
  | operation {layer : Layer} {template : TensorInfo} {inputs : List TensorInfo}
      {inferred : List Shape} (found : before.find? id = some layer)
      (computes : ∀ binding, layer.kind ≠ .input binding)
      (flows : after.layerInputInfos layer = .ok (template :: inputs))
      (infers : inferOutputs layer (template :: inputs) = .ok inferred)
      (stands : after.find? id = some (layer.declaring template inferred))

/-- A pass sends back the operations that it settles; what it leaves resolved is an input layer
that was so before. -/
theorem Settled.input_of_resolved {id : LayerId} (settled : before.Settled after id)
    {layer : Layer} (found : after.find? id = some layer) (resolved : layer.state ≠ .constructed) :
    before.find? id = some layer ∧ ∃ binding, layer.kind = .input binding := by
  cases settled with
  | input stored binds _ kept =>
    obtain rfl := Option.some.inj (kept.symm.trans found)
    exact ⟨stored, _, binds⟩
  | operation _ _ _ _ stands =>
    obtain rfl := Option.some.inj (stands.symm.trans found)
    exact absurd rfl resolved

/-- What flows into a layer depends on its producers alone. -/
theorem flows_of_find? {layer : Layer} {inputs : List TensorInfo}
    (flows : before.layerInputInfos layer = .ok inputs)
    (same : ∀ producer ∈ layer.producers, after.find? producer = before.find? producer) :
    after.layerInputInfos layer = .ok inputs := by
  refine flows_of_carried flows fun slot member source reads info carries => ?_
  have producer : source.layer ∈ layer.producers :=
    List.mem_filterMap.mpr ⟨slot, member, by simp [Option.mem_def.mp reads]⟩
  exact (slotInfo?_congr (same _ producer)).trans carries

theorem find?_inferLayer {id : LayerId} (inferred : graph.inferLayer id = .ok after)
    {other : LayerId} (apart : other ≠ id) : after.find? other = graph.find? other := by
  rcases inferLayer_eq_ok.mp inferred with
    ⟨_, _, _, _, _, rfl⟩ | ⟨_, _, _, _, _, _, _, _, rfl⟩
  · rfl
  · rw [find?_modify (fun _ => Layer.id_declaring _ _ _), if_neg apart]

/-- A layer is settled once it has been inferred and nothing changes it or its producers. -/
theorem settled_of_inferLayer {id : LayerId} {next : Graph}
    (inferred : graph.inferLayer id = .ok next) (kept : after.find? id = next.find? id)
    (producers : ∀ layer, graph.find? id = some layer → ∀ producer ∈ layer.producers,
      after.find? producer = graph.find? producer) : graph.Settled after id := by
  rcases inferLayer_eq_ok.mp inferred with
    ⟨layer, binding, found, binds, ⟨declared, declares⟩, rfl⟩ |
      ⟨layer, template, inputs, shapes, found, computes, flows, infers, rfl⟩
  · exact .input found binds declares (kept.trans found)
  · refine .operation found computes (flows_of_find? flows (producers layer found)) infers ?_
    rw [kept, find?_modify (fun _ => Layer.id_declaring _ _ _), if_pos rfl, found, Option.map_some]

/-- A successful pass along a schedule settles the layers of the schedule and leaves all others
alone. -/
theorem inferEach_ok {done order : List LayerId} (schedule : graph.Schedule done order)
    (distinct : order.Nodup) (apart : ∀ id ∈ order, id ∉ done)
    (success : inferEach order graph = (after, .ok ())) :
    (∀ id, id ∉ order → after.find? id = graph.find? id) ∧
      ∀ id ∈ order, graph.Settled after id := by
  induction order generalizing graph done with
  | nil =>
    cases success
    exact ⟨fun _ _ => rfl, by simp⟩
  | cons id order ih =>
    obtain ⟨notLater, distinctRest⟩ := List.nodup_cons.mp distinct
    cases schedule with
    | @cons _ _ _ layer found ready rest =>
      rw [inferEach] at success
      cases stepped : graph.inferLayer id with
      | error _ => simp [stepped] at success
      | ok next =>
        simp only [stepped] at success
        have apartRest : ∀ other ∈ order, other ∉ id :: done := by
          intro other member
          rw [List.mem_cons, not_or]
          exact ⟨fun same => notLater (same ▸ member), apart other (List.mem_cons_of_mem _ member)⟩
        obtain ⟨others, settled⟩ := ih (rest.of_agree (agree_inferLayer stepped).wiring_of_frame.symm)
          distinctRest apartRest success
        have untouched : ∀ other, other ∉ id :: order → after.find? other = graph.find? other := by
          intro other outside
          rw [List.mem_cons, not_or] at outside
          exact (others other outside.2).trans (find?_inferLayer stepped outside.1)
        refine ⟨untouched, fun other member => ?_⟩
        rcases List.mem_cons.mp member with rfl | later
        · refine settled_of_inferLayer stepped (others other notLater) ?_
          intro holder stored producer reads
          rw [found, Option.some.injEq] at stored
          subst holder
          exact untouched producer fun scheduled => apart producer scheduled (ready producer reads)
        · have sameFound : next.find? other = graph.find? other :=
            find?_inferLayer stepped fun same => notLater (same ▸ later)
          cases settled other later with
          | input found binds declares kept => exact .input (sameFound ▸ found) binds declares kept
          | operation found computes flows infers stands =>
            exact .operation (sameFound ▸ found) computes flows infers stands

/-- Every layer is settled by a pass that succeeds. -/
theorem WellFormed.infer_ok (valid : graph.WellFormed) (success : graph.infer.2 = .ok ())
    {id : LayerId} {layer : Layer} (found : graph.find? id = some layer) :
    graph.Settled graph.infer.1 id := by
  obtain ⟨order, scheduled⟩ := valid.topologicalOrder
  obtain ⟨perm, schedule⟩ := topologicalOrder_sound valid.unique scheduled
  simp only [infer, scheduled] at success ⊢
  obtain ⟨_, settled⟩ := inferEach_ok schedule (perm.nodup_iff.mpr valid.unique) (by simp)
    (Prod.ext rfl success)
  exact settled id (perm.mem_iff.mpr (mem_ids_of_find? found))

/-- A pass that fails has succeeded up to the layer at which it stops. -/
theorem inferEach_error {ids : List LayerId} {error : Error}
    (failed : inferEach ids graph = (after, .error error)) :
    ∃ done stop rest, ids = done ++ stop :: rest ∧ inferEach done graph = (after, .ok ()) ∧
      after.inferLayer stop = .error error := by
  induction ids generalizing graph with
  | nil => cases failed
  | cons id ids ih =>
    rw [inferEach] at failed
    cases stepped : graph.inferLayer id with
    | error _ =>
      simp only [stepped, Prod.mk.injEq, Except.error.injEq] at failed
      obtain ⟨rfl, rfl⟩ := failed
      exact ⟨[], id, ids, rfl, rfl, stepped⟩
    | ok next =>
      simp only [stepped] at failed
      obtain ⟨done, stop, rest, rfl, success, stops⟩ := ih failed
      refine ⟨id :: done, stop, rest, rfl, ?_, stops⟩
      simp only [inferEach, stepped, success]

/-- A pass that fails settles the layers before the one at which it stops and leaves all others
alone. -/
theorem WellFormed.infer_error (valid : graph.WellFormed) {error : Error}
    (failed : graph.infer.2 = .error error) : ∃ done stop rest,
    graph.topologicalOrder = .ok (done ++ stop :: rest) ∧
      graph.infer.1.inferLayer stop = .error error ∧
      (∀ id, id ∉ done → graph.infer.1.find? id = graph.find? id) ∧
      ∀ id ∈ done, graph.Settled graph.infer.1 id := by
  obtain ⟨order, scheduled⟩ := valid.topologicalOrder
  obtain ⟨perm, schedule⟩ := topologicalOrder_sound valid.unique scheduled
  have distinct := perm.nodup_iff.mpr valid.unique
  simp only [infer, scheduled] at failed ⊢
  obtain ⟨done, stop, rest, rfl, success, stops⟩ := inferEach_error (Prod.ext rfl failed)
  obtain ⟨others, settled⟩ :=
    inferEach_ok schedule.of_append distinct.of_append_left (by simp) success
  exact ⟨done, stop, rest, rfl, stops, others, settled⟩

/-- What a pass may have done to a graph so far: each layer is as it was or settled. -/
def Partway (before after : Graph) : Prop :=
  ∀ id layer, before.find? id = some layer →
    after.find? id = some layer ∨ before.Settled after id

theorem WellFormed.partway_infer (valid : graph.WellFormed) : graph.Partway graph.infer.1 := by
  intro id layer found
  cases outcome : graph.infer.2 with
  | ok _ => exact .inr (valid.infer_ok outcome found)
  | error error =>
    obtain ⟨done, _, _, _, _, others, settled⟩ := valid.infer_error outcome
    by_cases reached : id ∈ done
    · exact .inr (settled id reached)
    · exact .inl ((others id reached).trans found)

theorem modify_eq_self (unique : graph.ids.Nodup) {id : LayerId} {layer : Layer}
    (found : graph.find? id = some layer) {f : Layer → Layer} (fixed : f layer = layer) :
    graph.modify id f = graph := by
  have kept : (graph.layers.map fun other => if other.id = id then f other else other) =
      graph.layers.map fun other => other := by
    apply List.map_congr_left
    intro other member
    split
    · rename_i same
      have stored := (find?_eq_some_iff unique).mpr ⟨member, same⟩
      rw [found, Option.some.injEq] at stored
      exact stored ▸ fixed
    · rfl
  simp only [modify, kept, List.map_id']

/-- Inference has nothing to do on a layer that it has settled. -/
theorem Settled.inferLayer_eq_self {id : LayerId} (settled : before.Settled after id)
    (unique : after.ids.Nodup) : after.inferLayer id = .ok after := by
  rw [inferLayer_eq_ok]
  cases settled with
  | input _ binds declares kept => exact .inl ⟨_, _, kept, binds, ⟨_, declares⟩, rfl⟩
  | @operation layer template inputs inferred _ computes flows infers stands =>
    refine .inr ⟨_, template, inputs, inferred, stands, computes, flows, infers, ?_⟩
    refine (modify_eq_self unique stands ?_).symm
    simp only [Layer.declaring, declareOutputs_idem]

theorem inferEach_eq_self {ids : List LayerId} (fixed : ∀ id ∈ ids, graph.inferLayer id = .ok graph) :
    inferEach ids graph = (graph, .ok ()) := by
  induction ids with
  | nil => rfl
  | cons id ids ih =>
    rw [inferEach, fixed id List.mem_cons_self]
    exact ih fun other member => fixed other (List.mem_cons_of_mem _ member)

/-- After a pass that succeeds a second one changes nothing. -/
theorem WellFormed.infer_infer (valid : graph.WellFormed) (success : graph.infer.2 = .ok ()) :
    graph.infer.1.infer = (graph.infer.1, .ok ()) := by
  have agree := graph.agree_infer.wiring_of_frame
  have inferred := agree.wellFormed valid
  obtain ⟨order, scheduled⟩ := inferred.topologicalOrder
  obtain ⟨perm, _⟩ := topologicalOrder_sound inferred.unique scheduled
  rw [infer, scheduled]
  apply inferEach_eq_self
  intro id member
  obtain ⟨layer, found⟩ := exists_find? (agree.ids ▸ perm.mem_iff.mp member)
  exact (valid.infer_ok success found).inferLayer_eq_self inferred.unique

/-- A layer with outputs of the same shapes keeps all shapes of the graph. -/
theorem SameShape.modify {current : Graph} (same : ∀ slot, graph.SameShape current slot)
    {id : LayerId} {layer : Layer} (found : current.find? id = some layer) {f : Layer → Layer}
    (keepsId : ∀ layer, (f layer).id = layer.id)
    (shapes : (f layer).outputs.map (·.info.map (·.shape)) =
      layer.outputs.map (·.info.map (·.shape))) :
    ∀ slot, graph.SameShape (current.modify id f) slot := by
  rintro ⟨other, index⟩
  refine Eq.trans ?_ (same ⟨other, index⟩)
  by_cases here : other = id
  · subst other
    refine sameShape_of_outputs found ?_ shapes index
    rw [find?_modify keepsId, if_pos rfl, found, Option.map_some]
  · exact @sameShape_of_find? current _ ⟨other, index⟩
      ((find?_modify keepsId _ _).trans (if_neg here))

/-- Where a layer passes, a pass that has kept all shapes so far keeps them at this layer too. -/
theorem Passes.inferLayer {current : Graph} (agree : AgreeOn Layer.frame graph current)
    (same : ∀ slot, graph.SameShape current slot) {id : LayerId} {layer : Layer}
    (found : graph.find? id = some layer) {inputs : List TensorInfo} {declared : List Shape}
    (passes : graph.Passes layer inputs declared)
    (slots : layer.inputs.length = layer.kind.inputCount) :
    ∃ next, current.inferLayer id = .ok next ∧ ∀ slot, graph.SameShape next slot := by
  obtain ⟨now, stored, frame⟩ := agree.symm.exists_counterpart (·.id) (fun _ => rfl) found
  have kind := Layer.kind_of_frame frame
  have shapes := outputs_of_sameShape found stored (Layer.length_outputs_of_frame frame)
    fun index => same ⟨id, index⟩
  have declares := (declaredShapes_eq_ok.mp passes.declares).trans shapes.symm
  by_cases binds : ∃ binding, layer.kind = .input binding
  · obtain ⟨binding, binds⟩ := binds
    exact ⟨current, inferLayer_eq_ok.mpr (.inl ⟨now, binding, stored, kind.trans binds,
      ⟨declared, declaredShapes_eq_ok.mpr declares⟩, rfl⟩), same⟩
  · have computes : ∀ binding, layer.kind ≠ .input binding := not_exists.mp binds
    obtain ⟨inferred, infers, agrees⟩ := passes.agrees computes
    obtain ⟨others, flows, otherShapes⟩ := exists_flows passes.flows fun _ _ source _ =>
      same source
    rw [layerInputInfos_eq_ok, ← Layer.inputs_of_frame frame] at flows
    cases others with
    | nil =>
      have none : layer.kind.inputCount = 0 := by
        rw [← slots, ← Layer.inputs_of_frame frame]
        simpa using (congrArg List.length flows).symm
      exact absurd (LayerKind.inputCount_eq_zero.mp none) binds
    | cons template others =>
      have infersNow : inferOutputs now (template :: others) = .ok inferred := by
        rw [inferOutputs_eq_ok, kind, otherShapes]
        exact inferOutputs_eq_ok.mp infers
      refine ⟨_, inferLayer_eq_ok.mpr (.inr ⟨now, template, others, inferred, stored,
        kind ▸ computes, layerInputInfos_eq_ok.mpr flows, infersNow, rfl⟩), ?_⟩
      exact SameShape.modify same stored (fun _ => rfl)
        (map_shape_declareOutputs template declares agrees)

theorem inferEach_total {ids : List LayerId} {current : Graph} (matched : graph.SlotsMatch)
    (passes : ∀ id layer, graph.find? id = some layer →
      ∃ inputs declared, graph.Passes layer inputs declared)
    (stored : ∀ id ∈ ids, id ∈ graph.ids) (agree : AgreeOn Layer.frame graph current)
    (same : ∀ slot, graph.SameShape current slot) :
    (inferEach ids current).2 = .ok () ∧
      ∀ slot, graph.SameShape (inferEach ids current).1 slot := by
  induction ids generalizing current with
  | nil => exact ⟨rfl, same⟩
  | cons id ids ih =>
    obtain ⟨layer, found⟩ := exists_find? (stored id List.mem_cons_self)
    obtain ⟨inputs, declared, pass⟩ := passes id layer found
    obtain ⟨next, inferred, kept⟩ :=
      pass.inferLayer agree same found (matched layer (mem_of_find? found)).1
    rw [inferEach, inferred]
    exact ih (fun other member => stored other (List.mem_cons_of_mem _ member))
      (agree.trans (agree_inferLayer inferred)) kept

/-- Inference keeps all shapes of a graph whose layers pass. -/
theorem WellFormed.infer_total (valid : graph.WellFormed) (matched : graph.SlotsMatch)
    (passes : ∀ id layer, graph.find? id = some layer →
      ∃ inputs declared, graph.Passes layer inputs declared) :
    graph.infer.2 = .ok () ∧ ∀ slot, graph.SameShape graph.infer.1 slot := by
  obtain ⟨order, scheduled⟩ := valid.topologicalOrder
  have perm := (topologicalOrder_sound valid.unique scheduled).1
  rw [infer, scheduled]
  exact inferEach_total matched passes (fun id member => perm.mem_iff.mp member) (.refl _ _)
    fun _ => rfl

/-- A layer passes when inference settles it without changing shapes. -/
theorem Settled.passes {id : LayerId} (settled : graph.Settled after id) {layer : Layer}
    (found : graph.find? id = some layer) (same : ∀ slot, graph.SameShape after slot)
    (parameters : layer.kind.checkParameters = .ok ())
    (slots : layer.inputs.length = layer.kind.inputCount ∧
      layer.outputs.length = layer.kind.outputCount) :
    ∃ inputs declared, graph.Passes layer inputs declared := by
  cases settled with
  | @input other binding declared stored binds declares =>
    obtain rfl : layer = other := Option.some.inj (found.symm.trans stored)
    have none : layer.inputs = [] := by
      rw [← List.length_eq_zero_iff, slots.1, LayerKind.inputCount_eq_zero]
      exact ⟨binding, binds⟩
    exact ⟨[], declared, layerInputInfos_eq_ok.mpr (by simp [none]), parameters, declares,
      fun computes => absurd binds (computes binding)⟩
  | @operation other template inputs inferred stored computes flows infers stands =>
    obtain rfl : layer = other := Option.some.inj (found.symm.trans stored)
    obtain ⟨others, flowsBefore, shapes⟩ := exists_flows flows fun _ _ source _ =>
      (same source).symm
    have lengths : inferred.length = layer.outputs.length := by
      rw [slots.2]
      exact LayerKind.length_inferShapes (inferOutputs_eq_ok.mp infers)
    have declares : inferred.map some = layer.outputs.map (·.info.map (·.shape)) := by
      have infos := congrArg (List.map (Option.map (·.shape)))
        (map_info_declareOutputs template lengths)
      have kept := outputs_of_sameShape found stands (by simp [Layer.declaring])
        fun index => same ⟨id, index⟩
      rw [← kept]
      simpa [Layer.declaring, Function.comp_def] using infos.symm
    exact ⟨others, inferred, flowsBefore, parameters, declaredShapes_eq_ok.mpr declares,
      fun _ => ⟨inferred, (inferOutputs_congr shapes).trans infers, firstMismatch?_self 0 inferred⟩⟩

theorem Passes.exists_slotInfo? {slot : OutputRef} {layer : Layer} {inputs : List TensorInfo}
    {declared : List Shape} (passes : graph.Passes layer inputs declared)
    (found : graph.find? slot.layer = some layer) (inside : slot.index < layer.outputs.length) :
    ∃ info, graph.slotInfo? slot = some info := by
  obtain ⟨info, declares⟩ := passes.exists_info (List.getElem_mem inside)
  exact ⟨info, by simp [slotInfo?_of_find? found, inside, declares]⟩

/-- Slots that are not there need no check. -/
theorem AgreeOn.sameShape_of_absent (agree : AgreeOn Layer.frame before after) {slot : OutputRef}
    (absent : ¬before.HasOutput slot) : before.SameShape after slot := by
  have absentAfter : ¬after.HasOutput slot := by
    rintro ⟨layer, found, inside⟩
    obtain ⟨old, stored, frame⟩ := agree.exists_counterpart (·.id) (fun _ => rfl) found
    exact absent ⟨old, stored, Layer.length_outputs_of_frame frame ▸ inside⟩
  rw [SameShape, slotInfo?_eq_none absent, slotInfo?_eq_none absentAfter]

/-- Validation accepts exactly the graphs on which inference succeeds, parameters are sound, and
every output slot carries the shape that inference gives it. -/
theorem WellFormed.validate_iff (valid : graph.WellFormed) (matched : graph.SlotsMatch) :
    graph.validate.2 = .ok () ↔
      graph.infer.2 = .ok () ∧
      (∀ layer ∈ graph.layers, layer.kind.checkParameters = .ok ()) ∧
      ∀ slot, graph.HasOutput slot → ∃ info inferred, graph.slotInfo? slot = some info ∧
        graph.infer.1.slotInfo? slot = some inferred ∧ info.shape = inferred.shape := by
  rw [valid.validate_eq_ok]
  constructor
  · intro passes
    obtain ⟨success, same⟩ := valid.infer_total matched passes
    refine ⟨success, fun layer member => ?_, ?_⟩
    · obtain ⟨_, _, pass⟩ := passes layer.id layer ((find?_eq_some_iff valid.unique).mpr ⟨member, rfl⟩)
      exact pass.parameters
    · rintro slot ⟨layer, found, inside⟩
      obtain ⟨_, _, pass⟩ := passes slot.layer layer found
      obtain ⟨info, carries⟩ := pass.exists_slotInfo? found inside
      have shape := same slot
      rw [SameShape, carries, Option.map_some] at shape
      obtain ⟨inferred, now, equal⟩ := Option.map_eq_some_iff.mp shape
      exact ⟨info, inferred, carries, now, equal.symm⟩
  · rintro ⟨success, parameters, shapes⟩ id layer found
    have same : ∀ slot, graph.SameShape graph.infer.1 slot := by
      intro slot
      by_cases there : graph.HasOutput slot
      · obtain ⟨info, inferred, carries, now, equal⟩ := shapes slot there
        rw [SameShape, carries, now, Option.map_some, Option.map_some, equal]
      · exact graph.agree_infer.sameShape_of_absent there
    have member := mem_of_find? found
    exact (valid.infer_ok success found).passes found same (parameters layer member)
      (matched layer member)

/-- An operation that inference has settled takes all but the shapes of its descriptors from the
slot that feeds its first input. -/
theorem Settled.outputs {id : LayerId} (settled : before.Settled after id) {layer : Layer}
    (found : after.find? id = some layer) (computes : ∀ binding, layer.kind ≠ .input binding)
    (slots : layer.outputs.length = layer.kind.outputCount) :
    ∃ source template, layer.source? 0 = some source ∧ after.slotInfo? source = some template ∧
      ∀ slot ∈ layer.outputs, ∃ shape, slot.info = some { template with shape } := by
  cases settled with
  | input stored binds _ kept =>
    rw [found, Option.some.injEq] at kept
    exact absurd binds (kept ▸ computes _)
  | @operation old template inputs inferred stored _ flows infers stands =>
    obtain rfl : layer = old.declaring template inferred := Option.some.inj (found.symm.trans stands)
    rw [layerInputInfos_eq_ok] at flows
    obtain ⟨slot, rest, sources, first, _⟩ := List.map_eq_cons_iff.mp flows.symm
    obtain ⟨source, reads, carries⟩ := Option.bind_eq_some_iff.mp first
    refine ⟨source, template, ?_, carries, ?_⟩
    · simp [Layer.source?, Layer.declaring, sources, reads]
    · intro slot member
      have lengths : inferred.length = old.outputs.length := by
        rw [LayerKind.length_inferShapes (inferOutputs_eq_ok.mp infers)]
        simpa [Layer.declaring] using slots.symm
      have infos := map_info_declareOutputs template lengths
      have info : slot.info ∈ inferred.map fun shape => some { template with shape } :=
        infos ▸ List.mem_map_of_mem member
      obtain ⟨shape, _, declares⟩ := List.mem_map.mp info
      exact ⟨shape, declares.symm⟩

theorem Settled.find?_of_input {id : LayerId} (settled : before.Settled after id) {layer : Layer}
    (found : before.find? id = some layer) {binding : UInt32} (binds : layer.kind = .input binding) :
    after.find? id = some layer := by
  cases settled with
  | input stored _ _ kept => exact kept.trans (stored.symm.trans found)
  | operation stored computes =>
    rw [found, Option.some.injEq] at stored
    exact absurd (stored ▸ binds) (computes binding)

theorem SlotsMatch.of_agree (matched : before.SlotsMatch) (unique : before.ids.Nodup)
    (agree : AgreeOn Layer.frame before after) : after.SlotsMatch := by
  intro layer member
  have unique : after.ids.Nodup := agree.wiring_of_frame.ids ▸ unique
  obtain ⟨old, stored, frame⟩ := agree.exists_counterpart (·.id) (fun _ => rfl)
    ((find?_eq_some_iff unique).mpr ⟨member, rfl⟩)
  rw [← Layer.kind_of_frame frame, ← Layer.inputs_of_frame frame,
    ← Layer.length_outputs_of_frame frame]
  exact matched old (mem_of_find? stored)

/-- Validation accepts exactly what inference would declare. Inference gives the outputs of an
operation the element type and quantization of the slot that feeds its first input, changes no
input layer, nothing but descriptors and states, and nothing at all when it runs again. -/
theorem Reachable.validate_iff_infer (reached : graph.Reachable) (matched : graph.SlotsMatch) :
    (graph.validate.2 = .ok () ↔
      graph.infer.2 = .ok () ∧
      (∀ layer ∈ graph.layers, layer.kind.checkParameters = .ok ()) ∧
      ∀ slot, graph.HasOutput slot → ∃ info inferred, graph.slotInfo? slot = some info ∧
        graph.infer.1.slotInfo? slot = some inferred ∧ info.shape = inferred.shape) ∧
    (graph.infer.2 = .ok () →
      (∀ layer ∈ graph.infer.1.layers, (∀ binding, layer.kind ≠ .input binding) →
        ∃ source template, layer.source? 0 = some source ∧
          graph.infer.1.slotInfo? source = some template ∧
          ∀ slot ∈ layer.outputs, ∃ shape, slot.info = some { template with shape }) ∧
      (∀ id layer binding, graph.find? id = some layer → layer.kind = .input binding →
        graph.infer.1.find? id = some layer) ∧
      AgreeOn Layer.frame graph graph.infer.1 ∧
      graph.infer.1.infer = (graph.infer.1, .ok ())) := by
  have valid := reached.wellFormed
  have agree := graph.agree_infer
  refine ⟨valid.validate_iff matched, fun success => ⟨?_, ?_, agree, valid.infer_infer success⟩⟩
  · intro layer member computes
    have unique := (agree.wiring_of_frame.wellFormed valid).unique
    have found := (find?_eq_some_iff unique).mpr ⟨member, rfl⟩
    obtain ⟨old, stored, _⟩ := agree.exists_counterpart (·.id) (fun _ => rfl) found
    exact (valid.infer_ok success stored).outputs found computes
      (matched.of_agree valid.unique agree layer member).2
  · intro id layer binding found binds
    exact (valid.infer_ok success found).find?_of_input found binds

/-- A graph that declares one element more than its rectification gives. -/
def misdeclared : Graph :=
  run [.addLayer (.input 0) "x", .addLayer (.activation { curve := .reLu }) "relu",
    .connect ⟨0, 0⟩ ⟨1, 0⟩, .setInfo ⟨0, 0⟩ { shape := ⟨[2]⟩, elementType := .qAsymm8 },
    .setInfo ⟨1, 0⟩ { shape := ⟨[3]⟩ }] empty

theorem misdeclared_refused : misdeclared.SlotsMatch ∧ misdeclared.infer.2 = .ok () ∧
    misdeclared.validate.2 ≠ .ok () ∧
    misdeclared.infer.1.infer = (misdeclared.infer.1, .ok ()) := by
  have matched : misdeclared.SlotsMatch := by
    unfold SlotsMatch
    decide +kernel
  have success : misdeclared.infer.2 = .ok () := rfl
  obtain ⟨accepts, gives⟩ := Reachable.validate_iff_infer ⟨_, rfl⟩ matched
  refine ⟨matched, success, fun accepted => ?_, (gives success).2.2.2⟩
  obtain ⟨_, _, shapes⟩ := accepts.mp accepted
  obtain ⟨info, inferred, carries, now, same⟩ := shapes ⟨1, 0⟩ ⟨_, rfl, by decide +kernel⟩
  cases carries
  cases now
  exact absurd same (by decide)

end NeuralGraph.Graph
