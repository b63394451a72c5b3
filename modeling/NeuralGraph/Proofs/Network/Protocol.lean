import NeuralGraph.Backend.Stub
import NeuralGraph.Proofs.Graph.History
import NeuralGraph.Proofs.Network.Compiled

/-! The protocol between loading and the backends. Layers are taken in the order of a schedule, up
to the first that fails. The backends are asked in the order of preference whether they support a
layer, and the first that does is the one to build it, if the memory fits. -/

namespace NeuralGraph

/-- Whether an id stands for a layer that computes something. -/
def Graph.isOperation (graph : Graph) (id : LayerId) : Bool :=
  (graph.find? id).any fun layer => !layer.kind.isBinding

namespace Loading

variable {loading next : Loading} {registry : Registry} {handles : TensorHandles} {graph : Graph}

/-- Memory for every slot of a layer, on either side. -/
structure Held (handles : TensorHandles) (layer : Layer) : Prop where
  inputs : ∀ slot ∈ layer.inputs, (slot.source.bind handles.find?).isSome = true
  outputs : ∀ index < layer.outputs.length, (handles.find? ⟨layer.id, index⟩).isSome = true

/-- An operation layer with the memory and the resolved descriptors around it. -/
structure Surrounds (graph : Graph) (handles : TensorHandles) (layer : Layer)
    (descriptor : QueueDescriptor) (info : WorkloadInfo) : Prop where
  operation : layer.kind.isBinding = false
  kind : descriptor.kind = layer.kind
  inputs : descriptor.inputs.map some = layer.inputs.map (·.source.bind handles.find?)
  outputs : descriptor.outputs.map some =
    (List.range' 0 layer.outputs.length).map fun index => handles.find? ⟨layer.id, index⟩
  inputInfos : info.inputs.map some = layer.inputs.map (·.source.bind graph.slotInfo?)
  outputInfos : info.outputs.map some = layer.outputs.map (·.info)

/-- How loading stops at a layer: the calls it has made for the layer, why it stops, and the device
that it leaves. -/
inductive Stops (graph : Graph) (registry : Registry) (handles : TensorHandles) (layer : Layer)
    (device : Device) : List BackendCall → Error → Device → Prop where
  | noInput {slot : InputSlot} (member : slot ∈ layer.inputs)
      (missing : slot.source.bind handles.find? = none) :
      Stops graph registry handles layer device [] (.layerValidation layer.label (.noHandle .input))
        device
  | noOutput {index : Nat}
      (inputs : ∀ slot ∈ layer.inputs, (slot.source.bind handles.find?).isSome = true)
      (inside : index < layer.outputs.length) (missing : handles.find? ⟨layer.id, index⟩ = none) :
      Stops graph registry handles layer device []
        (.layerValidation layer.label (.noHandle .output)) device
  /-- A binding layer whose kind was edited may lack the slot that it binds. -/
  | noSlot (held : Held handles layer)
      (bare : (∃ binding, layer.kind = .input binding ∧ layer.outputs = []) ∨
        ∃ binding, layer.kind = .output binding ∧ layer.inputs = []) :
      Stops graph registry handles layer device [] .outOfBounds device
  | unsupported {descriptor : QueueDescriptor} {info : WorkloadInfo} {reasons : List String}
      (around : Surrounds graph handles layer descriptor info)
      (rejected : List.Forall₂ (Rejects layer.kind info) registry.backends reasons) :
      Stops graph registry handles layer device (registry.backends.map (ask layer.kind info))
        (.unsupportedLayer layer.label reasons) device
  | misfit {descriptor : QueueDescriptor} {info : WorkloadInfo} {backend : Backend}
      {asked : List BackendCall} {error : Error}
      (around : Surrounds graph handles layer descriptor info)
      (selects : Selects registry.backends layer.kind info backend asked)
      (refused : descriptor.validate info = .error error) :
      Stops graph registry handles layer device asked error device
  | notBuilt {descriptor : QueueDescriptor} {info : WorkloadInfo} {backend : Backend}
      {asked : List BackendCall} {error : Error} {after : Device}
      (around : Surrounds graph handles layer descriptor info)
      (selects : Selects registry.backends layer.kind info backend asked)
      (fits : descriptor.validate info = .ok ())
      (refused : backend.create descriptor info device = (after, .error error)) :
      Stops graph registry handles layer device (asked ++ [.create backend.id layer.kind]) error
        after

/-- Layers that loading takes one after the other: the calls it makes, the layers it compiles, the
device that it leaves, and whether it gets through. -/
inductive Follows (graph : Graph) (registry : Registry) (handles : TensorHandles) :
    List LayerId → Device → List BackendCall → List LoadedLayer → Device → Except Error Unit →
    Prop where
  | nil {device : Device} : Follows graph registry handles [] device [] [] device (.ok ())
  | binding {id : LayerId} {ids : List LayerId} {layer : Layer} {device final : Device}
      {calls : List BackendCall} {loaded : List LoadedLayer} {outcome : Except Error Unit}
      (found : graph.find? id = some layer) (binds : layer.kind.isBinding = true)
      (held : Held handles layer)
      (rest : Follows graph registry handles ids device calls loaded final outcome) :
      Follows graph registry handles (id :: ids) device calls loaded final outcome
  | operation {id : LayerId} {ids : List LayerId} {layer : Layer} {device next final : Device}
      {descriptor : QueueDescriptor} {info : WorkloadInfo} {backend : Backend}
      {workload : Workload} {asked calls : List BackendCall} {loaded : List LoadedLayer}
      {outcome : Except Error Unit} (found : graph.find? id = some layer)
      (around : Surrounds graph handles layer descriptor info)
      (selects : Selects registry.backends layer.kind info backend asked)
      (fits : descriptor.validate info = .ok ())
      (built : backend.create descriptor info device = (next, .ok workload))
      (rest : Follows graph registry handles ids next calls loaded final outcome) :
      Follows graph registry handles (id :: ids) device
        (asked ++ .create backend.id layer.kind :: calls)
        ({ id, operation := layer.kind.operation, backend := backend.id, workload } :: loaded)
        final outcome
  | stops {id : LayerId} {ids : List LayerId} {layer : Layer} {device final : Device}
      {calls : List BackendCall} {error : Error} (found : graph.find? id = some layer)
      (stops : Stops graph registry handles layer device calls error final) :
      Follows graph registry handles (id :: ids) device calls [] final (.error error)

theorem isSome_of_inputHandles {label : String} {slots : List InputSlot} {inputs : List Handle}
    (reads : inputHandles handles label slots = .ok inputs) :
    ∀ slot ∈ slots, (slot.source.bind handles.find?).isSome = true := by
  intro slot member
  have inside : slot.source.bind handles.find? ∈ inputs.map some := by
    rw [inputHandles_eq_ok.mp reads]
    exact List.mem_map_of_mem member
  obtain ⟨handle, _, same⟩ := List.mem_map.mp inside
  rw [← same]
  rfl

theorem isSome_of_outputHandles {label : String} {id : LayerId} {count : Nat}
    {outputs : List Handle} (writes : outputHandles handles label id 0 count = .ok outputs) :
    ∀ index < count, (handles.find? ⟨id, index⟩).isSome = true := by
  intro index inside
  have member : handles.find? ⟨id, index⟩ ∈ outputs.map some := by
    rw [outputHandles_eq_ok.mp writes]
    exact List.mem_map_of_mem (List.mem_range'_1.mpr ⟨Nat.zero_le _, by omega⟩)
  obtain ⟨handle, _, same⟩ := List.mem_map.mp member
  rw [← same]
  rfl

/-- What compiling a layer has asked when it fails. -/
theorem compile_eq_error {layer : Layer} {descriptor : QueueDescriptor} {info : WorkloadInfo}
    {error : Error} (around : Surrounds graph handles layer descriptor info)
    (resolved : loading.graph.workloadInfo layer.id = .ok info)
    (failed : loading.compile registry layer descriptor.inputs descriptor.outputs =
      (next, .error error)) :
    ∃ calls, Stops graph registry handles layer loading.device calls error next.device ∧
      next.calls = loading.calls ++ calls ∧ next.network = loading.network := by
  obtain ⟨kind, inputs, outputs⟩ := descriptor
  obtain rfl : kind = layer.kind := around.kind
  unfold compile at failed
  simp only [resolved] at failed
  split at failed
  · rename_i refused
    obtain ⟨reasons, rfl, rfl, rejected⟩ := select_eq_error refused
    cases failed
    exact ⟨_, .unsupported around rejected, rfl, rfl⟩
  · rename_i asked backend selected
    have selects := select_eq_ok selected
    split at failed
    · rename_i refused
      cases failed
      exact ⟨asked, .misfit around selects refused, rfl, rfl⟩
    · rename_i fits
      cases created : backend.create ⟨layer.kind, inputs, outputs⟩ info loading.device with
      | mk device outcome =>
        cases outcome with
        | ok workload => simp [created] at failed
        | error error =>
          simp only [created, Prod.mk.injEq, Except.error.injEq] at failed
          obtain ⟨rfl, rfl⟩ := failed
          exact ⟨_, .notBuilt around selects fits created, List.append_assoc _ _ _, rfl⟩

/-- A layer that passes validation has resolved descriptors on every slot. -/
theorem exists_surrounds {id : LayerId} {layer : Layer} {inputs outputs : List Handle}
    (agree : Graph.AgreeOn Layer.unresolved graph loading.graph)
    (settled : ∀ layer ∈ loading.graph.layers, layer.state ≠ .constructed)
    (found : graph.find? id = some layer)
    (passes : ∃ infos declared, graph.Passes layer infos declared)
    (operation : layer.kind.isBinding = false)
    (reads : inputHandles handles layer.label layer.inputs = .ok inputs)
    (writes : outputHandles handles layer.label layer.id 0 layer.outputs.length = .ok outputs) :
    ∃ info, loading.graph.workloadInfo layer.id = .ok info ∧
      Surrounds graph handles layer ⟨layer.kind, inputs, outputs⟩ info := by
  obtain ⟨infos, declared, passes⟩ := passes
  have flows := Graph.layerInputInfos_eq_ok.mp passes.flows
  obtain ⟨shown, all, _⟩ := bind_eq_ok.mp passes.declares
  have declares := Graph.declaredInfosFrom_eq_ok.mp all
  have outputInfos : layer.outputs.filterMap (·.info) = shown := by
    have kept := congrArg (List.filterMap fun info => info) declares
    simpa [List.filterMap_map, Function.comp_def] using kept.symm
  obtain ⟨now, stored, same⟩ := agree.symm.exists_find? found
  obtain rfl := Graph.id_of_find? found
  refine ⟨{ inputs := infos, outputs := shown }, workloadInfo_eq_ok.mpr ⟨now, stored,
    settled now (Graph.mem_of_find? stored), ?_, ?_⟩, ?_⟩
  · rw [funext agree.slotInfo?]
    rw [same] at flows
    exact flows
  · rw [same] at outputInfos
    exact outputInfos.symm
  · exact {
      operation
      kind := rfl
      inputs := inputHandles_eq_ok.mp reads
      outputs := outputHandles_eq_ok.mp writes
      inputInfos := flows
      outputInfos := declares }

/-- What a step has asked when it fails. -/
theorem step_eq_error {id : LayerId} {layer : Layer} {error : Error}
    (agree : Graph.AgreeOn Layer.unresolved graph loading.graph)
    (settled : ∀ layer ∈ loading.graph.layers, layer.state ≠ .constructed)
    (found : graph.find? id = some layer)
    (passes : ∃ infos declared, graph.Passes layer infos declared)
    (failed : loading.step registry handles id = (next, .error error)) :
    ∃ calls, Stops graph registry handles layer loading.device calls error next.device ∧
      next.calls = loading.calls ++ calls ∧ next.network = loading.network := by
  obtain ⟨now, stored, same⟩ := agree.symm.exists_find? found
  obtain rfl := Graph.id_of_find? found
  have got : loading.graph.get layer.id = .ok now := Graph.get_eq_ok.mpr stored
  obtain ⟨state, rfl⟩ : ∃ state, now = { layer with state } := ⟨now.state, by rw [same]⟩
  unfold step at failed
  dsimp only at failed
  rw [got, bind_ok] at failed
  have label : ({ layer with state } : Layer).label = layer.label := rfl
  rw [label] at failed
  cases reads : inputHandles handles layer.label layer.inputs with
  | error refusal =>
    obtain ⟨rfl, slot, member, missing⟩ := inputHandles_eq_error reads
    simp only [reads] at failed
    cases failed
    exact ⟨[], .noInput member missing, by simp, rfl⟩
  | ok inputs =>
    have fed := isSome_of_inputHandles reads
    cases writes : outputHandles handles layer.label layer.id 0 layer.outputs.length with
    | error refusal =>
      obtain ⟨rfl, index, inside, missing⟩ := outputHandles_eq_error writes
      simp only [reads, bind_ok, writes] at failed
      cases failed
      exact ⟨[], .noOutput fed (by omega) missing, by simp, rfl⟩
    | ok outputs =>
      have held : Held handles layer := ⟨fed, isSome_of_outputHandles writes⟩
      simp only [reads, bind_ok, writes, pure, Except.pure] at failed
      split at failed
      · rename_i binding operation
        split at failed
        · rename_i bare
          cases failed
          have none : layer.outputs = [] :=
            List.length_eq_zero_iff.mp (length_outputHandles writes).symm
          exact ⟨[], .noSlot held (.inl ⟨binding, operation, none⟩), by simp, rfl⟩
        · cases failed
      · rename_i binding operation
        split at failed
        · rename_i bare
          cases failed
          have none : layer.inputs = [] := List.map_eq_nil_iff.mp (inputHandles_eq_ok.mp reads).symm
          exact ⟨[], .noSlot held (.inr ⟨binding, operation, none⟩), by simp, rfl⟩
        · cases failed
      · rename_i notInput notOutput
        obtain ⟨info, resolved, around⟩ := exists_surrounds agree settled found passes
          (isBinding_eq_false notInput notOutput) reads writes
        exact compile_eq_error around resolved failed

/-- Loading goes through its layers as the protocol says. -/
theorem run_follows {ids : List LayerId} {final : Loading} {outcome : Except Error Unit}
    (agree : Graph.AgreeOn Layer.unresolved graph loading.graph)
    (settled : ∀ layer ∈ loading.graph.layers, layer.state ≠ .constructed)
    (passes : ∀ {id layer}, graph.find? id = some layer →
      ∃ infos declared, graph.Passes layer infos declared)
    (stored : ∀ id ∈ ids, id ∈ graph.ids)
    (ran : run registry handles ids loading = (final, outcome)) :
    ∃ calls loaded,
      Follows graph registry handles ids loading.device calls loaded final.device outcome ∧
      final.calls = loading.calls ++ calls ∧
      final.network.layers = loading.network.layers ++ loaded := by
  induction ids generalizing loading with
  | nil =>
    cases ran
    exact ⟨[], [], .nil, by simp, by simp⟩
  | cons id ids ih =>
    obtain ⟨layer, found⟩ := Graph.exists_find? (stored id List.mem_cons_self)
    obtain rfl := Graph.id_of_find? found
    have later : ∀ id ∈ ids, id ∈ graph.ids := fun id member =>
      stored id (List.mem_cons_of_mem _ member)
    rw [run] at ran
    split at ran
    · rename_i next error stepped
      cases ran
      obtain ⟨calls, stops, asked, kept⟩ :=
        step_eq_error agree settled found (passes found) stepped
      exact ⟨calls, [], .stops found stops, asked, by rw [kept, List.append_nil]⟩
    · rename_i next _ stepped
      have agreeNext : Graph.AgreeOn Layer.unresolved graph next.graph := by
        have kept := loading.agree_step registry handles layer.id
        rw [stepped] at kept
        exact agree.trans kept
      obtain ⟨now, inputs, outputs, foundNow, reads, writes, done⟩ := step_eq_ok stepped
      obtain ⟨twin, foundTwin, same⟩ := agree.exists_find? foundNow
      obtain rfl := Option.some.inj (found.symm.trans foundTwin)
      rw [same] at reads writes done
      rcases done with ⟨binds, network, rfl, kept, _⟩ | ⟨operation, compiled⟩
      · obtain ⟨calls, loaded, follows, asked, layers⟩ := ih agreeNext settled later ran
        have held : Held handles layer :=
          ⟨isSome_of_inputHandles reads, isSome_of_outputHandles writes⟩
        exact ⟨calls, loaded, .binding found binds held follows, asked, by rw [layers, kept]⟩
      · obtain ⟨info, asked, backend, device, workload, resolved, selects, fits, created, rfl⟩ :=
          compile_eq_ok compiled
        have settledNext : ∀ other ∈ (loading.graph.markBound layer.id).layers,
            other.state ≠ .constructed := by
          intro other member
          obtain ⟨old, inside, rfl⟩ := Graph.mem_layers_modify.mp member
          split
          · simp
          · exact settled old inside
        obtain ⟨calls, loaded, follows, askedLater, layers⟩ := ih agreeNext settledNext later ran
        obtain ⟨twin, resolvedTwin, around⟩ := exists_surrounds agree settled found (passes found)
          operation reads writes
        obtain rfl := Except.ok.inj (resolved.symm.trans resolvedTwin)
        refine ⟨_, _, .operation found around selects fits created follows, ?_, ?_⟩
        · simp only [askedLater, List.append_assoc, List.singleton_append]
        · simp only [layers, List.append_assoc, List.singleton_append]

variable {ids : List LayerId} {device final : Device} {calls : List BackendCall}
  {loaded : List LoadedLayer} {outcome : Except Error Unit}

/-- A build in a list of calls comes right after a backend of that id has supported the layer. -/
def Permitted (registry : Registry) (calls : List BackendCall) : Prop :=
  ∀ earlier id kind later, calls = earlier ++ .create id kind :: later →
    ∃ backend ∈ registry.backends, ∃ info asked, backend.id = id ∧
      backend.supports kind info.inputs info.outputs = .supported ∧
      earlier = asked ++ [ask kind info backend]

theorem create_not_mem_questions {backends : List Backend} {kind other : LayerKind}
    {info : WorkloadInfo} {id : BackendId} :
    BackendCall.create id other ∉ backends.map (ask kind info) := by
  intro member
  obtain ⟨_, _, same⟩ := List.mem_map.mp member
  cases same

theorem permitted_of_questions {backends : List Backend} {kind : LayerKind} {info : WorkloadInfo} :
    Permitted registry (backends.map (ask kind info)) := by
  intro earlier id other later split
  exact absurd (by simp [split]) (@create_not_mem_questions backends kind other info id)

/-- The build that follows the questions about a layer is permitted, and so are later ones. -/
theorem Selects.permitted {kind : LayerKind} {info : WorkloadInfo} {backend : Backend}
    {asked : List BackendCall} (selects : Selects registry.backends kind info backend asked)
    (rest : Permitted registry calls) :
    Permitted registry (asked ++ .create backend.id kind :: calls) := by
  obtain ⟨⟨rejecting, untried, backends, _, rfl⟩, supports⟩ := selects
  intro earlier id other later split
  rcases List.append_eq_append_iff.mp split with ⟨middle, rfl, tail⟩ | ⟨middle, questions, tail⟩
  · cases middle with
    | nil =>
      obtain ⟨same, rfl⟩ := List.cons.inj tail
      cases same
      exact ⟨backend, by simp [backends], info, rejecting.map (ask kind info), rfl, supports,
        by simp⟩
    | cons first middle =>
      obtain ⟨rfl, remaining⟩ := List.cons.inj tail
      obtain ⟨chosen, member, around, asked, same, accepts, rfl⟩ :=
        rest middle id other later remaining
      exact ⟨chosen, member, around, _, same, accepts, (List.append_assoc _ (_ :: asked) _).symm⟩
  · cases middle with
    | nil =>
      obtain ⟨same, rfl⟩ := List.cons.inj tail
      cases same
      refine ⟨backend, by simp [backends], info, rejecting.map (ask kind info), rfl, supports, ?_⟩
      rw [List.append_nil] at questions
      simp [← questions]
    | cons first middle =>
      obtain ⟨rfl, _⟩ := List.cons.inj tail
      exact absurd (by simp [questions])
        (@create_not_mem_questions (rejecting ++ [backend]) kind other info id)

theorem Follows.permitted
    (follows : Follows graph registry handles ids device calls loaded final outcome) :
    Permitted registry calls := by
  have none : Permitted registry [] := by simp [Permitted]
  induction follows with
  | nil => exact none
  | binding _ _ _ _ ih => exact ih
  | operation _ _ selects _ _ _ ih => exact selects.permitted ih
  | stops _ stops =>
    cases stops with
    | noInput | noOutput | noSlot => exact none
    | unsupported => exact permitted_of_questions
    | misfit _ selects =>
      obtain ⟨⟨_, _, _, _, rfl⟩, _⟩ := selects
      exact permitted_of_questions
    | notBuilt _ selects => exact selects.permitted none

/-- Where loading gets through, it compiles the operation layers, in the order it takes them. -/
theorem Follows.ids_loaded
    (follows : Follows graph registry handles ids device calls loaded final outcome)
    (success : outcome = .ok ()) : loaded.map (·.id) = ids.filter graph.isOperation := by
  induction follows with
  | nil => rfl
  | binding found binds _ _ ih =>
    rw [List.filter_cons_of_neg (by simp [Graph.isOperation, found, binds]), ih success]
  | operation found around _ _ _ _ ih =>
    rw [List.filter_cons_of_pos (by simp [Graph.isOperation, found, around.operation]),
      List.map_cons, ih success]
  | stops => cases success

/-- What is compiled goes to the backend that was chosen for it. -/
theorem Follows.chosen
    (follows : Follows graph registry handles ids device calls loaded final outcome) :
    ∀ entry ∈ loaded, ∃ layer descriptor info backend asked, graph.find? entry.id = some layer ∧
      Surrounds graph handles layer descriptor info ∧
      Selects registry.backends layer.kind info backend asked ∧ entry.backend = backend.id := by
  induction follows with
  | nil => simp
  | binding _ _ _ _ ih => exact ih
  | operation found around selects _ _ _ ih =>
    intro entry member
    rcases List.mem_cons.mp member with rfl | member
    · exact ⟨_, _, _, _, _, found, around, selects, rfl⟩
    · exact ih entry member
  | stops => simp

end Loading

namespace Network

open Loading

/-- Capability before construction. A graph that validation refuses is loaded without any call.
Otherwise loading follows the protocol along a topological order of all layers: it gets through and
gives the compiled layers, or it stops at a layer with the error of that layer. No backend builds
what it was not asked about or what it has rejected. -/
theorem load_follows {graph : Graph} (reached : graph.Reachable) (registry : Registry)
    (handles : TensorHandles) (device : Device) :
    (∀ error, graph.validate.2 = .error error →
      (load graph registry handles device).calls = [] ∧
      (load graph registry handles device).outcome = .error error) ∧
    (graph.validate.2 = .ok () → ∃ order, graph.topologicalOrder = .ok order ∧
      order.Perm graph.ids ∧ order.Nodup ∧ graph.Schedule [] order ∧
      ((∃ network, (load graph registry handles device).outcome = .ok network ∧
          Follows graph registry handles order device (load graph registry handles device).calls
            network.layers (load graph registry handles device).device (.ok ()) ∧
          network.layers.map (·.id) = order.filter graph.isOperation ∧
          ∀ entry ∈ network.layers, ∃ layer descriptor info backend asked,
            graph.find? entry.id = some layer ∧ Surrounds graph handles layer descriptor info ∧
            Selects registry.backends layer.kind info backend asked ∧
            entry.backend = backend.id) ∨
        ∃ error loaded final, (load graph registry handles device).outcome = .error error ∧
          Follows graph registry handles order device (load graph registry handles device).calls
            loaded final (.error error) ∧
          (load graph registry handles device).device = releaseLayers loaded final)) ∧
    Permitted registry (load graph registry handles device).calls := by
  have valid := reached.wellFormed
  have none : Permitted registry [] := by simp [Permitted]
  obtain ⟨order, scheduled⟩ := valid.topologicalOrder
  have agree := graph.agree_validate
  have validated := agree.wiring_of_unresolved.topologicalOrder.trans scheduled
  obtain ⟨perm, schedule⟩ := Graph.topologicalOrder_sound valid.unique scheduled
  have distinct := perm.nodup_iff.mpr valid.unique
  unfold load
  dsimp only
  cases checked : graph.validate.2 with
  | error error =>
    simp only [bind, Except.bind]
    refine ⟨fun other same => ?_, nofun, none⟩
    cases same
    exact ⟨trivial, rfl⟩
  | ok _ =>
    simp only [bind_ok, validated]
    refine ⟨nofun, ?_⟩
    cases ran : Loading.run registry handles order
        { graph := graph.validate.1, device, network := { handles } } with
    | mk last outcome =>
      have stored : ∀ id ∈ order, id ∈ graph.ids := fun id member => perm.mem_iff.mp member
      obtain ⟨calls, loaded, follows, asked, layers⟩ := run_follows agree
        (valid.validate_resolves checked) (fun found => valid.validate_ok checked found) stored ran
      obtain rfl : last.calls = calls := asked
      obtain rfl : last.network.layers = loaded := layers
      cases outcome with
      | ok _ =>
        exact ⟨fun _ => ⟨order, scheduled, perm, distinct, schedule,
          .inl ⟨last.network, rfl, follows, follows.ids_loaded rfl, follows.chosen⟩⟩,
          follows.permitted⟩
      | error error =>
        exact ⟨fun _ => ⟨order, scheduled, perm, distinct, schedule,
          .inr ⟨error, _, _, rfl, follows, rfl⟩⟩, follows.permitted⟩

/-- A rectification between an input and an output layer. -/
def rectifier : List Graph.Call :=
  [.addLayer (.input 0) "x", .addLayer (.activation { curve := .reLu }) "rectify",
    .addLayer (.output 0) "y", .connect ⟨0, 0⟩ ⟨1, 0⟩, .connect ⟨1, 0⟩ ⟨2, 0⟩,
    .setInfo ⟨0, 0⟩ { shape := ⟨[2]⟩ }, .infer]

/-- Two backends, the first of which computes no activations. -/
def pickyFirst : Registry where
  backends := [.stub "picky" (· = .activation) fun _ => false,
    .stub "fallback" (fun _ => false) fun _ => false]

def rectifierHandles : TensorHandles where
  entries := [(⟨0, 0⟩, { info := { shape := ⟨[2]⟩ }, buffer := some 0 }),
    (⟨1, 0⟩, { info := { shape := ⟨[2]⟩ }, buffer := some 1 })]

theorem rectifier_falls_back :
    (load (Graph.run rectifier .empty) pickyFirst rectifierHandles {}).calls.map (·.backend) =
        ["picky", "fallback", "fallback"] ∧
      ∃ network, (load (Graph.run rectifier .empty) pickyFirst rectifierHandles {}).outcome =
          .ok network ∧ network.layers.map (·.id) = [1] := by
  refine ⟨by decide +kernel, ?_⟩
  have reached : (Graph.run rectifier .empty).Reachable := ⟨rectifier, rfl⟩
  obtain ⟨_, accepted, _⟩ := load_follows reached pickyFirst rectifierHandles {}
  obtain ⟨order, scheduled, _, _, _, ends⟩ := accepted (by decide +kernel)
  have arranged : (Graph.run rectifier .empty).topologicalOrder = .ok [0, 1, 2] := by
    decide +kernel
  obtain rfl := Except.ok.inj (arranged.symm.trans scheduled)
  rcases ends with ⟨network, loaded, _, ids, _⟩ | ⟨error, _, _, failed, _⟩
  · exact ⟨network, loaded, ids.trans (by decide +kernel)⟩
  · have success : (load (Graph.run rectifier .empty) pickyFirst rectifierHandles
        {}).outcome.toOption.isSome = true := by decide +kernel
    rw [failed] at success
    cases success

end Network

end NeuralGraph
