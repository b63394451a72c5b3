import NeuralGraph.Proofs.Graph.Truthful

/-! What a failing inference pass leaves behind. The pass rewrites the layers before the one at
which it stops; a resolved layer behind that one keeps its state and its declarations, whatever
now flows into it. -/

namespace NeuralGraph.Graph

variable {graph before after : Graph}

/-- What a layer declares is not what follows from the shapes that flow into it. -/
def Stale (graph : Graph) (layer : Layer) : Prop :=
  (∀ binding, layer.kind ≠ .input binding) ∧ ∃ inputs declared,
    graph.layerInputInfos layer = .ok inputs ∧ declaredShapes layer = .ok declared ∧
    ∀ inferred, inferOutputs layer inputs = .ok inferred → firstMismatch? 0 inferred declared ≠ none

/-- Nothing but its inputs can make a layer that has passed fail. -/
theorem Passes.fails_iff_stale {id : LayerId} {layer : Layer} {inputs : List TensorInfo}
    {declared : List Shape} (passes : before.Passes layer inputs declared)
    (partway : before.Partway after) (found : after.find? id = some layer) :
    after.validateLayer id ≠ .ok () ↔ after.Stale layer := by
  obtain ⟨others, flows⟩ := partway.exists_flows passes.flows
  constructor
  · intro fails
    refine ⟨fun binding binds => fails ?_, others, declared, flows, passes.declares,
      fun inferred infers agrees => fails ?_⟩
    · have now : after.Passes layer others declared :=
        ⟨flows, passes.parameters, passes.declares, fun computes => absurd binds (computes binding)⟩
      exact now.validateLayer found
    · have now : after.Passes layer others declared :=
        ⟨flows, passes.parameters, passes.declares, fun _ => ⟨inferred, infers, agrees⟩⟩
      exact now.validateLayer found
  · rintro ⟨computes, inputsNow, declaredNow, flowsNow, declaresNow, disagree⟩ checked
    obtain ⟨_, _, now⟩ := exists_passes_of_validateLayer checked found
    obtain ⟨inferred, infers, agrees⟩ := now.agrees computes
    obtain rfl := Except.ok.inj (flowsNow.symm.trans now.flows)
    obtain rfl := Except.ok.inj (declaresNow.symm.trans now.declares)
    exact disagree inferred infers agrees

/-- Inputs with the same shapes keep a layer from failing. -/
theorem Passes.of_sameShape {layer : Layer} {inputs : List TensorInfo} {declared : List Shape}
    (passes : before.Passes layer inputs declared)
    (same : ∀ slot ∈ layer.inputs, ∀ source ∈ slot.source, before.SameShape after source) :
    ∃ others, after.Passes layer others declared := by
  obtain ⟨others, flows, shapes⟩ := exists_flows passes.flows same
  refine ⟨others, flows, passes.parameters, passes.declares, fun computes => ?_⟩
  obtain ⟨inferred, infers, agrees⟩ := passes.agrees computes
  exact ⟨inferred, (inferOutputs_congr shapes).trans infers, agrees⟩

/-- A pass keeps the shapes of a layer that has passed, if it keeps those of its inputs. -/
theorem Settled.sameShape {id : LayerId} (settled : before.Settled after id) {layer : Layer}
    (found : before.find? id = some layer) {inputs : List TensorInfo} {declared : List Shape}
    (passes : before.Passes layer inputs declared)
    (same : ∀ slot ∈ layer.inputs, ∀ source ∈ slot.source, before.SameShape after source)
    (index : Nat) : before.SameShape after ⟨id, index⟩ := by
  cases settled with
  | input stored _ _ kept =>
    exact @sameShape_of_find? before after ⟨id, index⟩ (kept.trans stored.symm)
  | @operation holder template rest inferred stored computes flows infers stands =>
    obtain rfl := Option.some.inj (found.symm.trans stored)
    obtain ⟨others, now⟩ := passes.of_sameShape same
    obtain ⟨again, infersAgain, agrees⟩ := now.agrees computes
    obtain rfl := Except.ok.inj (flows.symm.trans now.flows)
    obtain rfl := Except.ok.inj (infers.symm.trans infersAgain)
    exact sameShape_of_outputs found stands
      (map_shape_declareOutputs template (declaredShapes_eq_ok.mp passes.declares) agrees) index

/-- A layer whose inputs do not all keep their shapes reads a slot that has changed. -/
theorem exists_changed_source {id : LayerId} {layer : Layer} (found : before.find? id = some layer)
    (changed : ¬∀ slot ∈ layer.inputs, ∀ source ∈ slot.source, before.SameShape after source) :
    ∃ index source, before.sourceOf? ⟨id, index⟩ = some source ∧
      ¬before.SameShape after source := by
  by_contra none
  refine changed fun slot member source reads => ?_
  by_contra differs
  obtain ⟨index, recorded⟩ := exists_sourceOf? found member reads
  exact none ⟨index, source, recorded, differs⟩

/-- Every change of shape comes from a layer that was in the constructed state. -/
theorem WellFormed.exists_origin (valid : graph.WellFormed) (truthful : graph.Truthful)
    (agree : AgreeOn Layer.frame graph after) (partway : graph.Partway after) {slot : OutputRef}
    (changed : ¬graph.SameShape after slot) :
    ∃ origin holder, graph.find? origin.layer = some holder ∧ holder.state = .constructed ∧
      ¬graph.SameShape after origin ∧
      Relation.ReflTransGen graph.Feeds origin.layer slot.layer := by
  obtain ⟨rank, ranked⟩ := valid.ranked
  induction level : rank slot.layer using Nat.strong_induction_on generalizing slot with
  | _ level ih =>
    obtain ⟨layer, found, _⟩ := not_imp_comm.mp agree.sameShape_of_absent changed
    by_cases constructed : layer.state = .constructed
    · exact ⟨slot, layer, found, constructed, changed, .refl⟩
    · obtain ⟨inputs, declared, passes⟩ := truthful.passes found constructed
      have changedSources :
          ¬∀ slot ∈ layer.inputs, ∀ source ∈ slot.source, graph.SameShape after source := by
        intro same
        rcases partway slot.layer layer found with kept | settled
        · exact changed (sameShape_of_find? (kept.trans found.symm))
        · exact changed (settled.sameShape found passes same slot.index)
      obtain ⟨index, source, recorded, changedSource⟩ := exists_changed_source found changedSources
      have edge : graph.Feeds source.layer slot.layer :=
        valid.toWired.feeds_iff.mpr ⟨_, source, recorded, rfl, rfl⟩
      obtain ⟨origin, holder, stored, state, changedOrigin, path⟩ :=
        ih (rank source.layer) (level ▸ ranked _ _ recorded) changedSource rfl
      exact ⟨origin, holder, stored, state, changedOrigin, path.tail edge⟩

/-- A pass that stops with an error has rewritten the layers before the one at which it stops.
A layer that is then beyond the constructed state is as it was before, and no longer passes
exactly if what it declares is stale. It then does not come before the stop, and it lies behind a
layer in the constructed state that the pass has given another shape. -/
theorem Reachable.infer_error_leaves (reached : graph.Reachable) (truthful : graph.Truthful)
    {error : Error} (failed : graph.infer.2 = .error error) :
    ∃ done stop rest, graph.topologicalOrder = .ok (done ++ stop :: rest) ∧
      graph.infer.1.inferLayer stop = .error error ∧
      ∀ id layer, graph.infer.1.find? id = some layer → layer.state ≠ .constructed →
        graph.find? id = some layer ∧
        (graph.infer.1.validateLayer id ≠ .ok () ↔ graph.infer.1.Stale layer) ∧
        (graph.infer.1.validateLayer id ≠ .ok () → id ∈ stop :: rest ∧
          ∃ origin holder, graph.find? origin.layer = some holder ∧
            holder.state = .constructed ∧ ¬graph.SameShape graph.infer.1 origin ∧
            Relation.TransGen graph.Feeds origin.layer id) := by
  have valid := reached.wellFormed
  have agree := graph.agree_infer
  have partway := valid.partway_infer
  obtain ⟨done, stop, rest, scheduled, stops, others, settled⟩ := valid.infer_error failed
  refine ⟨done, stop, rest, scheduled, stops, fun id layer found resolved => ?_⟩
  obtain ⟨old, stored, _⟩ := agree.exists_counterpart (·.id) (fun _ => rfl) found
  have unchanged : graph.find? id = some layer := by
    rcases partway id old stored with kept | settled
    · exact stored.trans (kept.symm.trans found)
    · exact (settled.input_of_resolved found resolved).1
  obtain ⟨inputs, declared, passes⟩ := truthful.passes unchanged resolved
  refine ⟨unchanged, passes.fails_iff_stale partway found, fun fails => ⟨?_, ?_⟩⟩
  · have listed : id ∈ done ++ stop :: rest :=
      (topologicalOrder_sound valid.unique scheduled).1.mem_iff.mpr (mem_ids_of_find? unchanged)
    refine (List.mem_append.mp listed).resolve_left fun reached => ?_
    obtain ⟨computes, _⟩ := (passes.fails_iff_stale partway found).mp fails
    obtain ⟨_, binding, binds⟩ := (settled id reached).input_of_resolved found resolved
    exact computes binding binds
  · have changedSources : ¬∀ slot ∈ layer.inputs, ∀ source ∈ slot.source,
        graph.SameShape graph.infer.1 source := by
      intro same
      obtain ⟨_, now⟩ := passes.of_sameShape same
      exact fails (now.validateLayer found)
    obtain ⟨index, source, recorded, changed⟩ := exists_changed_source unchanged changedSources
    have edge : graph.Feeds source.layer id :=
      valid.toWired.feeds_iff.mpr ⟨_, source, recorded, rfl, rfl⟩
    obtain ⟨origin, holder, there, state, changedOrigin, path⟩ :=
      valid.exists_origin truthful agree partway changed
    exact ⟨origin, holder, there, state, changedOrigin, .tail' path edge⟩

/-- Two rectifications of one input, the first of which is rectified again. All are resolved;
then one loses its input and the input gets another shape. -/
def reshaping : List Call :=
  [.addLayer (.input 0) "x", .addLayer (.activation { curve := .reLu }) "first",
    .addLayer (.activation { curve := .reLu }) "lost",
    .addLayer (.activation { curve := .reLu }) "second", .connect ⟨0, 0⟩ ⟨1, 0⟩,
    .connect ⟨0, 0⟩ ⟨2, 0⟩, .connect ⟨1, 0⟩ ⟨3, 0⟩, .setInfo ⟨0, 0⟩ { shape := ⟨[2, 3]⟩ }, .infer,
    .validate, .disconnect ⟨2, 0⟩, .setInfo ⟨0, 0⟩ { shape := ⟨[4, 5]⟩ }]

theorem reshaping_leaves_stale :
    (run reshaping empty).infer.2 =
      .error (.layerValidation "Activation:lost" (.inputNotConnected 0)) ∧
    (run reshaping empty).validateLayer 3 = .ok () ∧
    ∃ layer, (run reshaping empty).infer.1.find? 3 = some layer ∧
      layer.state = .shapeResolved ∧ (run reshaping empty).infer.1.Stale layer := by
  have succeed : InfersSucceed reshaping empty :=
    ⟨nofun, nofun, nofun, nofun, nofun, nofun, nofun, nofun, fun _ => rfl, nofun, nofun, nofun,
      trivial⟩
  have failed : (run reshaping empty).infer.2 =
      .error (.layerValidation "Activation:lost" (.inputNotConnected 0)) := rfl
  obtain ⟨_, _, _, _, _, leaves⟩ := Reachable.infer_error_leaves ⟨reshaping, rfl⟩
    (Truthful.empty.run WellFormed.empty succeed) failed
  obtain ⟨_, fails, _⟩ := leaves 3 _ rfl (by decide +kernel)
  have mismatch : (run reshaping empty).infer.1.validateLayer 3 =
      .error (.shapeMismatch "Activation:second" 0 ⟨[4, 5]⟩ ⟨[2, 3]⟩) := rfl
  exact ⟨failed, rfl, _, rfl, by decide +kernel, fails.mp (by rw [mismatch]; nofun)⟩

end NeuralGraph.Graph
