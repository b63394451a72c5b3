import NeuralGraph.Proofs.Graph.Validation
import NeuralGraph.Proofs.Network.Handles
import NeuralGraph.Proofs.Network.Loading

/-! What a successful load has done. Every operation layer got a workload from a backend that
supports it, bound to the memory of the slots it reads and of its own slots, in the order of a
schedule. -/

namespace NeuralGraph

namespace Loading

/-- A layer with the memory and the descriptors that loading found around it. -/
structure Bound (graph : Graph) (handles : TensorHandles) (layer : Layer)
    (descriptor : QueueDescriptor) (info : WorkloadInfo) : Prop where
  operation : layer.kind.isBinding = false
  kind : descriptor.kind = layer.kind
  inputs : descriptor.inputs.map some = layer.inputs.map (·.source.bind handles.find?)
  outputs : descriptor.outputs.map some =
    (List.range' 0 layer.outputs.length).map fun index => handles.find? ⟨layer.id, index⟩
  inputInfos : info.inputs.map some = layer.inputs.map (·.source.bind graph.slotInfo?)
  outputInfos : info.outputs = layer.outputs.filterMap (·.info)
  fits : descriptor.validate info = .ok ()

/-- Layers of a graph, compiled one after the other; compiling a layer may change the device. -/
inductive Compiles (graph : Graph) (registry : Registry) (handles : TensorHandles) :
    List LayerId → Device → List LoadedLayer → Device → Prop where
  | nil {device : Device} : Compiles graph registry handles [] device [] device
  | binding {id : LayerId} {ids : List LayerId} {layer : Layer} {device final : Device}
      {loaded : List LoadedLayer} (found : graph.find? id = some layer)
      (binds : layer.kind.isBinding = true)
      (rest : Compiles graph registry handles ids device loaded final) :
      Compiles graph registry handles (id :: ids) device loaded final
  | operation {id : LayerId} {ids : List LayerId} {layer : Layer} {device next final : Device}
      {loaded : List LoadedLayer} {descriptor : QueueDescriptor} {info : WorkloadInfo}
      {backend : Backend} {workload : Workload} (found : graph.find? id = some layer)
      (bound : Bound graph handles layer descriptor info) (member : backend ∈ registry.backends)
      (supported : backend.supports layer.kind info.inputs info.outputs = .supported)
      (created : backend.create descriptor info device = (next, .ok workload))
      (rest : Compiles graph registry handles ids next loaded final) :
      Compiles graph registry handles (id :: ids) device
        ({ id, operation := layer.kind.operation, backend := backend.id, workload } :: loaded)
        final

variable {loading next : Loading} {registry : Registry} {handles : TensorHandles}

/-- The question whether a backend supports a layer. -/
def ask (kind : LayerKind) (info : WorkloadInfo) (backend : Backend) : BackendCall :=
  .supports backend.id kind info.inputs info.outputs

/-- A backend turns a layer down, and the text says so. -/
def Rejects (kind : LayerKind) (info : WorkloadInfo) (backend : Backend) (text : String) : Prop :=
  ∃ reason, backend.supports kind info.inputs info.outputs = .unsupported reason ∧
    text = s!"{backend.id}: {reason}"

/-- The first backend that supports a layer, with the questions asked until then. -/
structure Selects (backends : List Backend) (kind : LayerKind) (info : WorkloadInfo)
    (backend : Backend) (calls : List BackendCall) : Prop where
  first : ∃ rejecting untried, backends = rejecting ++ backend :: untried ∧
    (∀ other ∈ rejecting, ∃ text, Rejects kind info other text) ∧
    calls = (rejecting ++ [backend]).map (ask kind info)
  supports : backend.supports kind info.inputs info.outputs = .supported

variable {kind : LayerKind} {info : WorkloadInfo} {backend : Backend} {backends : List Backend}
  {calls : List BackendCall} {error : Error} {label : String}

theorem Selects.mem (selects : Selects backends kind info backend calls) : backend ∈ backends := by
  obtain ⟨_, _, rfl, _⟩ := selects.first
  simp

theorem select_eq_ok {reasons : List String}
    (selected : select label kind info backends reasons = (calls, .ok backend)) :
    Selects backends kind info backend calls := by
  induction backends generalizing reasons calls with
  | nil => cases selected
  | cons first rest ih =>
    unfold select at selected
    dsimp only at selected
    split at selected
    · rename_i accepts
      cases selected
      exact ⟨⟨[], rest, rfl, by simp, rfl⟩, accepts⟩
    · rename_i reason turnedDown
      obtain ⟨rfl, later⟩ := Prod.mk.inj selected
      obtain ⟨⟨rejecting, untried, rfl, reject, asked⟩, accepts⟩ := ih (Prod.ext rfl later)
      refine ⟨⟨first :: rejecting, untried, rfl, ?_, congrArg (ask kind info first :: ·) asked⟩,
        accepts⟩
      intro other member
      rcases List.mem_cons.mp member with rfl | member
      · exact ⟨_, reason, turnedDown, rfl⟩
      · exact reject other member

/-- Where no backend is selected, each of them has been asked and has given its reason. -/
theorem select_eq_error {reasons : List String}
    (refused : select label kind info backends reasons = (calls, .error error)) :
    ∃ given, error = .unsupportedLayer label (reasons ++ given) ∧
      calls = backends.map (ask kind info) ∧ List.Forall₂ (Rejects kind info) backends given := by
  induction backends generalizing reasons calls with
  | nil =>
    cases refused
    exact ⟨[], by simp, rfl, .nil⟩
  | cons first rest ih =>
    unfold select at refused
    dsimp only at refused
    split at refused
    · cases refused
    · rename_i reason turnedDown
      obtain ⟨rfl, later⟩ := Prod.mk.inj refused
      obtain ⟨given, rfl, asked, rejected⟩ := ih (Prod.ext rfl later)
      exact ⟨_ :: given, by simp, congrArg (ask kind info first :: ·) asked,
        .cons ⟨reason, turnedDown, rfl⟩ rejected⟩

theorem inputHandles_eq_ok {label : String} {slots : List InputSlot} {result : List Handle} :
    inputHandles handles label slots = .ok result ↔
      result.map some = slots.map (·.source.bind handles.find?) := by
  induction slots generalizing result with
  | nil => simp [inputHandles]
  | cons slot slots ih =>
    rw [List.map_cons, List.map_eq_cons_iff]
    cases held : slot.source.bind handles.find? with
    | none => simp [inputHandles, held]
    | some handle =>
      simp only [inputHandles, held, cons_bind_eq_ok, ih, Option.some.injEq]
      constructor
      · rintro ⟨rest, all, rfl⟩
        exact ⟨handle, rest, rfl, rfl, all⟩
      · rintro ⟨_, rest, rfl, rfl, all⟩
        exact ⟨rest, all, rfl⟩

theorem outputHandles_eq_ok {label : String} {id : LayerId} {index count : Nat}
    {result : List Handle} :
    outputHandles handles label id index count = .ok result ↔
      result.map some = (List.range' index count).map fun slot => handles.find? ⟨id, slot⟩ := by
  induction count generalizing index result with
  | zero => simp [outputHandles]
  | succ count ih =>
    rw [List.range'_succ, List.map_cons, List.map_eq_cons_iff]
    cases held : handles.find? ⟨id, index⟩ with
    | none => simp [outputHandles, held]
    | some handle =>
      simp only [outputHandles, held, cons_bind_eq_ok, ih, Option.some.injEq]
      constructor
      · rintro ⟨rest, all, rfl⟩
        exact ⟨handle, rest, rfl, rfl, all⟩
      · rintro ⟨_, rest, rfl, rfl, all⟩
        exact ⟨rest, all, rfl⟩

theorem length_outputHandles {id : LayerId} {index count : Nat} {result : List Handle}
    (held : outputHandles handles label id index count = .ok result) : result.length = count := by
  simpa using congrArg List.length (outputHandles_eq_ok.mp held)

theorem inputHandles_eq_error {slots : List InputSlot}
    (failed : inputHandles handles label slots = .error error) :
    error = .layerValidation label (.noHandle .input) ∧
      ∃ slot ∈ slots, slot.source.bind handles.find? = none := by
  induction slots with
  | nil => cases failed
  | cons slot slots ih =>
    unfold inputHandles at failed
    split at failed
    · rename_i missing
      cases failed
      exact ⟨rfl, slot, List.mem_cons_self, missing⟩
    · cases rest : inputHandles handles label slots with
      | ok result =>
        rw [rest] at failed
        cases failed
      | error other =>
        rw [rest] at failed
        cases failed
        obtain ⟨same, other, member, missing⟩ := ih rest
        exact ⟨same, other, List.mem_cons_of_mem _ member, missing⟩

theorem outputHandles_eq_error {id : LayerId} {index count : Nat}
    (failed : outputHandles handles label id index count = .error error) :
    error = .layerValidation label (.noHandle .output) ∧
      ∃ slot < index + count, handles.find? ⟨id, slot⟩ = none := by
  induction count generalizing index with
  | zero => cases failed
  | succ count ih =>
    unfold outputHandles at failed
    split at failed
    · rename_i missing
      cases failed
      exact ⟨rfl, index, by omega, missing⟩
    · cases rest : outputHandles handles label id (index + 1) count with
      | ok result =>
        rw [rest] at failed
        cases failed
      | error other =>
        rw [rest] at failed
        cases failed
        obtain ⟨same, slot, inside, missing⟩ := ih rest
        exact ⟨same, slot, by omega, missing⟩

theorem compile_eq_ok {layer : Layer} {inputs outputs : List Handle}
    (success : loading.compile registry layer inputs outputs = (next, .ok ())) :
    ∃ info asked backend device workload,
      loading.graph.workloadInfo layer.id = .ok info ∧
      Selects registry.backends layer.kind info backend asked ∧
      QueueDescriptor.validate ⟨layer.kind, inputs, outputs⟩ info = .ok () ∧
      backend.create ⟨layer.kind, inputs, outputs⟩ info loading.device = (device, .ok workload) ∧
      next = {
        graph := loading.graph.markBound layer.id
        device
        calls := loading.calls ++ asked ++ [.create backend.id layer.kind]
        network := { loading.network with
          layers := loading.network.layers ++
            [{ id := layer.id, operation := layer.kind.operation, backend := backend.id,
               workload }] } } := by
  unfold compile at success
  cases resolved : loading.graph.workloadInfo layer.id with
  | error error => simp [resolved] at success
  | ok info =>
    simp only [resolved] at success
    split at success
    · cases success
    · rename_i asked backend selected
      split at success
      · cases success
      · rename_i fits
        cases created : backend.create ⟨layer.kind, inputs, outputs⟩ info loading.device with
        | mk device outcome =>
          cases outcome with
          | error error => simp [created] at success
          | ok workload =>
            simp only [created, Prod.mk.injEq, and_true] at success
            subst next
            exact ⟨info, asked, backend, device, workload, rfl, select_eq_ok selected, fits,
              created, rfl⟩

theorem isBinding_eq_false (notInput : ∀ binding, kind ≠ .input binding)
    (notOutput : ∀ binding, kind ≠ .output binding) : kind.isBinding = false := by
  unfold LayerKind.isBinding
  split
  · exact absurd rfl (notInput _)
  · exact absurd rfl (notOutput _)
  · rfl

/-- Binding a layer changes the ends of the network and nothing else. -/
theorem step_eq_ok {id : LayerId} (success : loading.step registry handles id = (next, .ok ())) :
    ∃ layer inputs outputs, loading.graph.find? id = some layer ∧
      inputHandles handles layer.label layer.inputs = .ok inputs ∧
      outputHandles handles layer.label id 0 layer.outputs.length = .ok outputs ∧
      ((layer.kind.isBinding = true ∧ ∃ network, next = { loading with network } ∧
          network.layers = loading.network.layers ∧ network.handles = loading.network.handles) ∨
        (layer.kind.isBinding = false ∧
          loading.compile registry layer inputs outputs = (next, .ok ()))) := by
  unfold step at success
  dsimp only at success
  split at success
  · cases success
  · rename_i layer inputs outputs bound
    obtain ⟨_, found, bound⟩ := Graph.get_bind_eq_ok.mp bound
    obtain ⟨_, reads, bound⟩ := bind_eq_ok.mp bound
    obtain ⟨_, writes, bound⟩ := bind_eq_ok.mp bound
    obtain ⟨rfl, rfl, rfl⟩ : _ = layer ∧ _ = inputs ∧ _ = outputs := by
      simpa using pure_eq_ok.mp bound
    refine ⟨_, _, _, found, reads, writes, ?_⟩
    split at success
    · rename_i binding operation
      split at success
      · cases success
      · simp only [Prod.mk.injEq, and_true] at success
        subst next
        exact .inl ⟨by simp [operation, LayerKind.isBinding], _, rfl, rfl, rfl⟩
    · rename_i binding operation
      split at success
      · cases success
      · simp only [Prod.mk.injEq, and_true] at success
        subst next
        exact .inl ⟨by simp [operation, LayerKind.isBinding], _, rfl, rfl, rfl⟩
    · rename_i notInput notOutput
      exact .inr ⟨isBinding_eq_false notInput notOutput, success⟩

variable {graph : Graph}

theorem workloadInfo_eq_ok {id : LayerId} {info : WorkloadInfo} :
    graph.workloadInfo id = .ok info ↔ ∃ layer, graph.find? id = some layer ∧
      layer.state ≠ .constructed ∧
      info.inputs.map some = layer.inputs.map (·.source.bind graph.slotInfo?) ∧
      info.outputs = layer.outputs.filterMap (·.info) := by
  unfold Graph.workloadInfo
  rw [Graph.get_bind_eq_ok]
  refine exists_congr fun layer => and_congr_right fun _ => ?_
  simp only [guard_eq_ok, bind_eq_ok, pure_eq_ok, Graph.layerInputInfos_eq_ok]
  refine and_congr_right fun _ => ?_
  constructor
  · rintro ⟨inputs, flows, rfl⟩
    exact ⟨flows, rfl⟩
  · rintro ⟨flows, outputs⟩
    exact ⟨info.inputs, flows, by rw [← outputs]⟩

/-- Loading works on a graph whose states move; what it compiles is bound as in the graph it
started from. -/
theorem run_compiles {ids : List LayerId} {final : Loading}
    (agree : Graph.AgreeOn Layer.unresolved graph loading.graph)
    (success : run registry handles ids loading = (final, .ok ())) :
    ∃ loaded, final.network.layers = loading.network.layers ++ loaded ∧
      final.network.handles = loading.network.handles ∧
      Compiles graph registry handles ids loading.device loaded final.device := by
  induction ids generalizing loading with
  | nil =>
    simp only [run, Prod.mk.injEq, and_true] at success
    subst final
    exact ⟨[], by simp, rfl, .nil⟩
  | cons id ids ih =>
    rw [run] at success
    split at success
    · cases success
    · rename_i next _ stepped
      have agreeNext : Graph.AgreeOn Layer.unresolved graph next.graph := by
        have kept := loading.agree_step registry handles id
        rw [stepped] at kept
        exact agree.trans kept
      obtain ⟨rest, layers, sameHandles, compiles⟩ := ih agreeNext success
      obtain ⟨stateful, inputs, outputs, found, reads, writes, done⟩ := step_eq_ok stepped
      obtain ⟨layer, stored, same⟩ := agree.exists_find? found
      rw [same] at reads writes done
      have sameId : layer.id = id := Graph.id_of_find? stored
      rcases done with ⟨binds, network, rfl, kept, keptHandles⟩ | ⟨operation, compiled⟩
      · exact ⟨rest, by rw [layers, kept], by rw [sameHandles, keptHandles],
          .binding stored binds compiles⟩
      · obtain ⟨info, _, backend, device, workload, resolved, selects, fits, created, rfl⟩ :=
          compile_eq_ok compiled
        obtain ⟨holder, holderFound, _, flows, declared⟩ := workloadInfo_eq_ok.mp resolved
        obtain rfl : stateful = holder := by
          have again : loading.graph.find? id = some holder := sameId ▸ holderFound
          exact Option.some.inj (found.symm.trans again)
        rw [same, funext agree.slotInfo?] at flows
        rw [same] at declared
        have bound : Bound graph handles layer ⟨layer.kind, inputs, outputs⟩ info :=
          { operation
            kind := rfl
            inputs := inputHandles_eq_ok.mp reads
            outputs := sameId ▸ outputHandles_eq_ok.mp writes
            inputInfos := flows
            outputInfos := declared
            fits }
        refine ⟨_, ?_, sameHandles,
          .operation stored bound selects.mem selects.supports created compiles⟩
        rw [layers, List.append_assoc, List.singleton_append]
        simp only [sameId]

end Loading

theorem TensorHandles.Declared.of_agree {before after : Graph} {handles : TensorHandles}
    (declared : handles.Declared after) (agree : Graph.AgreeOn Layer.unresolved before after) :
    handles.Declared before := by
  rintro slot ⟨layer, found, inside⟩
  obtain ⟨now, stored⟩ :=
    Graph.exists_find? (agree.wiring_of_unresolved.ids ▸ Graph.mem_ids_of_find? found)
  obtain ⟨old, earlier, same⟩ := agree.exists_find? stored
  obtain rfl : layer = old := Option.some.inj (found.symm.trans earlier)
  rw [same] at stored
  rw [← agree.slotInfo?]
  exact declared slot ⟨_, stored, inside⟩

namespace Network

open Loading

variable {graph origin : Graph} {registry : Registry} {handles : TensorHandles} {device : Device}
  {network : Network}

/-- A network that loading has made from a graph: every layer passed validation, and the operation
layers were compiled in the order of a schedule, from one device to another. -/
structure Loaded (graph : Graph) (registry : Registry) (network : Network)
    (before after : Device) : Prop where
  passes : ∀ layer ∈ graph.layers, ∃ inputs declared, graph.Passes layer inputs declared
  compiled : ∃ order, order.Perm graph.ids ∧ graph.Schedule [] order ∧
    Compiles graph registry network.handles order before network.layers after

/-- The states of the graph do not matter to a load, so what it does can be told by any graph that
agrees in everything else. -/
theorem load_eq_ok (agree : Graph.AgreeOn Layer.unresolved origin graph)
    (valid : origin.WellFormed)
    (success : (load graph registry handles device).outcome = .ok network) :
    network.handles = handles ∧
      Loaded origin registry network device (load graph registry handles device).device := by
  have validGraph := agree.wiring_of_unresolved.wellFormed valid
  have agreeValidated := agree.trans graph.agree_validate
  have validated := agreeValidated.wiring_of_unresolved.wellFormed valid
  unfold load at success ⊢
  dsimp only at success ⊢
  cases checked : graph.validate.2 with
  | error error => simp [checked, bind, Except.bind] at success
  | ok _ =>
    obtain ⟨order, scheduled⟩ := validated.topologicalOrder
    obtain ⟨perm, schedule⟩ := Graph.topologicalOrder_sound validated.unique scheduled
    simp only [checked, scheduled, bind_ok] at success ⊢
    cases ran : Loading.run registry handles order
        { graph := graph.validate.1, device, network := { handles } } with
    | mk final outcome =>
      cases outcome with
      | error error => simp [ran] at success
      | ok _ =>
        simp only [ran, Except.ok.injEq] at success ⊢
        subst network
        obtain ⟨loaded, layers, sameHandles, compiles⟩ := run_compiles agreeValidated ran
        refine ⟨sameHandles, ?_, order, ?_,
          schedule.of_agree agreeValidated.wiring_of_unresolved, ?_⟩
        · intro layer member
          have stored := (Graph.find?_eq_some_iff valid.unique).mpr ⟨member, rfl⟩
          exact agree.exists_passes (fun found => validGraph.validate_ok checked found) stored
        · rwa [agreeValidated.wiring_of_unresolved.ids] at perm
        · rw [layers, List.nil_append, sameHandles]
          exact compiles

/-- Loading onto host memory of its own gives every declared slot a buffer, and loads onto
that. -/
theorem loadOnHost_eq_ok (valid : graph.WellFormed)
    (success : (loadOnHost graph registry device).outcome = .ok network) :
    ∃ host, TensorHandles.allocate graph.validate.1 device.host = .ok (network.handles, host) ∧
      network.handles.Owned host ∧ network.handles.Declared graph ∧
      Loaded graph registry network { device with host }
        (loadOnHost graph registry device).device := by
  have agree := graph.agree_validate
  unfold loadOnHost at success ⊢
  dsimp only at success ⊢
  cases checked : graph.validate.2 with
  | error error => simp [checked, bind, Except.bind] at success
  | ok _ =>
    simp only [checked, bind_ok] at success ⊢
    cases allocated : TensorHandles.allocate graph.validate.1 device.host with
    | error error => simp [allocated] at success
    | ok memory =>
      obtain ⟨handles, host⟩ := memory
      simp only [allocated] at success ⊢
      obtain ⟨rfl, loaded⟩ := load_eq_ok agree valid success
      have unique := (agree.wiring_of_unresolved.wellFormed valid).unique
      obtain ⟨owned, declared⟩ := TensorHandles.allocate_spec unique allocated
      exact ⟨host, rfl, owned, declared.of_agree agree, loaded⟩

end Network

end NeuralGraph
