import NeuralGraph.Proofs.Accelerator.Progress
import NeuralGraph.Proofs.Network.Backends

/-! Progress of loaded networks. On the bundled backends a network that has been loaded runs, for
any contents of its memory, unless some layer was compiled on the reference backend in a
configuration that its kernel cannot run. -/

namespace NeuralGraph

/-- With the descriptors around it, a layer is one that no reference kernel can run. -/
def Graph.Stuck (graph : Graph) (layer : Layer) : Prop :=
  ∃ inputs shapes, graph.layerInputInfos layer = .ok inputs ∧
    Graph.declaredShapes layer = .ok shapes ∧
    Reference.Stuck layer.kind (inputs.map (·.shape)) shapes

/-- A cell is only built with an activation that is known. -/
theorem activation_of_create {backend : Backend} {descriptor : QueueDescriptor}
    {info : WorkloadInfo} {device next : Device} {workload : Workload} {cell : Lstm.Cell}
    {params : Lstm.Params}
    (known : backend = Reference.backend ∨ backend = Accelerator.backend)
    (created : backend.create descriptor info device = (next, .ok workload))
    (kind : descriptor.kind = .lstm cell params) :
    ∃ activation, Lstm.Activation.ofCode cell.activationCode = .ok activation := by
  rcases known with rfl | rfl
  · have built : Reference.build descriptor info = .ok workload := (Prod.mk.inj created).2
    unfold Reference.build at built
    obtain ⟨_, built⟩ := seq_eq_ok.mp built
    rw [kind] at built
    obtain ⟨activation, code, _⟩ := bind_eq_ok.mp built
    exact ⟨activation, code⟩
  · obtain ⟨_, _, built, _⟩ := (Accelerator.create_lstm_eq_ok kind).mp created
    obtain ⟨_, activation, _, _, code, _⟩ :=
      (Accelerator.LstmWorkload.create_eq_ok kind).mp built
    exact ⟨activation, code⟩

namespace Loading.Bound

variable {graph : Graph} {handles : TensorHandles} {layer : Layer} {descriptor : QueueDescriptor}
  {info : WorkloadInfo} {memory : HostMemory} {inputs : List TensorInfo} {shapes : List Shape}

/-- The inputs of a bound layer have the shapes that flow into it. -/
theorem inputShapes (bound : Bound graph handles layer descriptor info)
    (passes : graph.Passes layer inputs shapes) :
    descriptor.inputs.map (·.shape) = inputs.map (·.shape) := by
  obtain ⟨⟨_, same⟩, _, _⟩ := QueueDescriptor.validate_eq_ok.mp bound.fits
  have flows := Graph.layerInputInfos_eq_ok.mp passes.flows
  have injective := List.map_injective_iff.mpr (Option.some_injective TensorInfo)
  rw [same, injective (bound.inputInfos.trans flows.symm)]

theorem stuck_iff (bound : Bound graph handles layer descriptor info)
    (passes : graph.Passes layer inputs shapes) : descriptor.Stuck ↔ graph.Stuck layer := by
  rw [QueueDescriptor.Stuck, bound.kind, bound.inputShapes passes, bound.outputShapes passes]
  constructor
  · exact fun stuck => ⟨inputs, shapes, passes.flows, passes.declares, stuck⟩
  · rintro ⟨others, declared, flows, declares, stuck⟩
    rw [passes.flows, Except.ok.injEq] at flows
    rw [passes.declares, Except.ok.injEq] at declares
    exact flows ▸ declares ▸ stuck

/-- A bound layer that has passed validation is checked, once its activation is known. -/
theorem checked (bound : Bound graph handles layer descriptor info)
    (passes : graph.Passes layer inputs shapes)
    (activation : ∀ cell params, descriptor.kind = .lstm cell params →
      ∃ activation, Lstm.Activation.ofCode cell.activationCode = .ok activation) :
    descriptor.Checked where
  operation := bound.kind ▸ bound.operation
  parameters := bound.kind ▸ passes.parameters
  inferred := by
    have slots : layer.outputs.length = layer.kind.outputCount := by
      have lengths := congrArg List.length bound.outputs
      simp only [List.length_map, List.length_range'] at lengths
      rw [← lengths, ← bound.kind]
      exact (QueueDescriptor.validate_eq_ok.mp bound.fits).2.1
    rw [bound.kind, bound.inputShapes passes, bound.outputShapes passes]
    refine passes.inferShapes (fun binding input => ?_) slots
    have operation := bound.operation
    simp [input, LayerKind.isBinding] at operation
  activation := activation

/-- The memory of a network backs every bound layer. -/
theorem backed (bound : Bound graph handles layer descriptor info)
    (owned : handles.Owned memory) : descriptor.Backed memory where
  toReady := Network.ready_of_bound bound owned
  written := by
    intro handle member
    obtain ⟨index, found⟩ := bound.exists_of_mem_outputs member
    exact owned.held _ handle found
  storable := by
    intro handle member
    obtain ⟨index, found⟩ := bound.exists_of_mem_outputs member
    exact owned.storable _ handle found

end Loading.Bound

/-- A bundled backend runs what it has accepted and built, unless it is the reference backend and
its kernel is stuck. -/
theorem create_progress {backend : Backend} {descriptor : QueueDescriptor} {info : WorkloadInfo}
    {device next : Device} {workload : Workload} {host : HostMemory} {staging : Staging}
    (known : backend = Reference.backend ∨ backend = Accelerator.backend)
    (supported : backend.supports descriptor.kind info.inputs info.outputs = .supported)
    (created : backend.create descriptor info device = (next, .ok workload))
    (fits : descriptor.validate info = .ok ()) (checked : descriptor.Checked)
    (backed : descriptor.Backed host)
    (keeps : Staging.Keeps next.staging.slots.size next.staging staging)
    (free : backend.id = Backend.referenceId → ¬descriptor.Stuck) :
    ∃ after, workload.execute { host, staging } = ({ host := after, staging }, .ok ()) ∧
      after.SameSizes host := by
  rcases known with rfl | rfl
  · obtain ⟨_, runs⟩ := Reference.create_eq_ok created
    rw [runs]
    exact @Reference.execute_progress _ { host, staging } checked backed (free rfl)
  · exact Accelerator.create_progress supported created fits checked backed keeps

/-- Where the kernel is stuck, a workload of the reference backend fails. -/
theorem create_stuck {backend : Backend} {descriptor : QueueDescriptor} {info : WorkloadInfo}
    {device next current final : Device} {workload : Workload}
    (known : backend = Reference.backend ∨ backend = Accelerator.backend)
    (reference : backend.id = Backend.referenceId)
    (created : backend.create descriptor info device = (next, .ok workload))
    (checked : descriptor.Checked) (backed : descriptor.Backed current.host)
    (stuck : descriptor.Stuck) : workload.execute current ≠ (final, .ok ()) := by
  rcases known with rfl | rfl
  · obtain ⟨_, runs⟩ := Reference.create_eq_ok created
    rw [runs]
    exact Reference.execute_stuck checked backed stuck final
  · exact absurd reference (by decide)

namespace Network

open Loading
open Staging (Keeps)

variable {graph : Graph} {registry : Registry} {handles : TensorHandles}

/-- Workloads run one after the other exactly when no kernel of the reference backend among them is
stuck. -/
theorem runEach_ok_iff (bundled : registry.Bundled)
    (passes : ∀ layer ∈ graph.layers, ∃ inputs shapes, graph.Passes layer inputs shapes)
    {order : List LayerId} {before after device : Device} {loaded : List LoadedLayer}
    (compiles : Compiles graph registry handles order before loaded after)
    (owned : handles.Owned device.host)
    (staged : Keeps after.staging.slots.size after.staging device.staging) :
    (∃ final ran, runEach loaded device = (final, .ok (), ran)) ↔
      ∀ entry ∈ loaded, entry.backend = Backend.referenceId → ∀ layer,
        graph.find? entry.id = some layer → ¬graph.Stuck layer := by
  induction compiles generalizing device with
  | nil => exact iff_of_true ⟨device, [], rfl⟩ (by simp)
  | binding _ _ _ ih => exact ih owned staged
  | @operation id _ layer _ _ _ _ descriptor info backend workload found bound member supported
      created rest ih =>
    obtain ⟨inputs, shapes, pass⟩ := passes layer (Graph.mem_of_find? found)
    have known := bundled _ member
    have checked := bound.checked pass fun _ _ => activation_of_create known created
    have backed := bound.backed owned
    have stuckIff := bound.stuck_iff pass
    obtain ⟨_, keepsRest⟩ := compiles_keeps bundled rest
    have keeps := keepsRest.trans (staged.weaken keepsRest.grows)
    rw [List.forall_mem_cons]
    by_cases stuck : backend.id = Backend.referenceId ∧ graph.Stuck layer
    · refine iff_of_false ?_ fun free => free.1 stuck.1 layer found stuck.2
      rintro ⟨final, ran, success⟩
      obtain ⟨middle, _, executed, _⟩ := runEach_cons_eq_ok.mp success
      exact create_stuck known stuck.1 created checked backed (stuckIff.mpr stuck.2) executed
    · rw [not_and] at stuck
      obtain ⟨host, executed, same⟩ := create_progress known (bound.kind ▸ supported) created
        bound.fits checked backed keeps fun reference => stuckIff.not.mpr (stuck reference)
      have head : backend.id = Backend.referenceId → ∀ holder, graph.find? id = some holder →
          ¬graph.Stuck holder := by
        intro reference holder stored
        rw [found, Option.some.injEq] at stored
        exact stored ▸ stuck reference
      rw [and_iff_right head, ← @ih { device with host } (owned.of_sameSizes same) staged]
      constructor
      · rintro ⟨final, ran, success⟩
        obtain ⟨middle, later, again, rest, _⟩ := runEach_cons_eq_ok.mp success
        rw [executed, Prod.mk.injEq] at again
        exact ⟨final, later, again.1 ▸ rest⟩
      · rintro ⟨final, later, rest⟩
        exact ⟨final, _, runEach_cons_eq_ok.mpr ⟨_, later, executed, rest, rfl⟩⟩

/-- What loads on the bundled backends runs, for any contents of its memory, exactly when no layer
was compiled on the reference backend in a configuration that its kernel is stuck on. -/
theorem loaded_runs_iff (reached : graph.Reachable) (bundled : registry.Bundled) {device : Device}
    (owned : handles.Owned device.host) {network : Network}
    (loaded : (load graph registry handles device).outcome = .ok network) {start : HostMemory}
    (sized : start.SameSizes device.host) :
    (∃ final ran, network.execute
        { (load graph registry handles device).device with host := start } =
          (final, .ok (), ran)) ↔
      ∀ entry ∈ network.layers, entry.backend = Backend.referenceId → ∀ layer,
        graph.find? entry.id = some layer → ¬graph.Stuck layer := by
  obtain ⟨rfl, compiled⟩ := load_eq_ok (.refl _ _) reached.wellFormed loaded
  obtain ⟨order, _, _, compiles⟩ := compiled.compiled
  exact @runEach_ok_iff _ _ _ bundled compiled.passes _ _ _
    { (load graph registry network.handles device).device with host := start } _ compiles
    (owned.of_sameSizes sized) (.refl _ _)

/-- Single elements with padding on the right. -/
def wideMargin : Pooling where
  padRight := 3
  poolWidth := 1
  poolHeight := 1
  strideX := 1
  strideY := 1

/-- Pooling of a single value with padding that is wider than the window. -/
def paddedPooling : Graph :=
  Graph.run [.addLayer (.input 0) "x", .addLayer (.pooling2d wideMargin) "pool",
    .addLayer (.output 0) "y", .connect ⟨0, 0⟩ ⟨1, 0⟩, .connect ⟨1, 0⟩ ⟨2, 0⟩,
    .setInfo ⟨0, 0⟩ { shape := ⟨[1, 1, 1, 1]⟩ }, .setInfo ⟨1, 0⟩ { shape := ⟨[1, 1, 1, 3]⟩ }]
    Graph.empty

theorem paddedPooling_allocates :
    (TensorHandles.allocate paddedPooling {}).toOption.isSome = true := by
  decide +kernel

/-- Memory for the slots of the pooling. -/
def paddedMemory : TensorHandles × HostMemory :=
  (TensorHandles.allocate paddedPooling {}).toOption.get paddedPooling_allocates

/-- The pooling, loaded onto its memory. -/
def paddedLoad (registry : Registry) : LoadReport :=
  load paddedPooling registry paddedMemory.1 { host := paddedMemory.2 }

theorem paddedPooling_loads : (paddedLoad Reference.registry).outcome.toOption.isSome = true := by
  decide +kernel

theorem paddedPooling_loads_mixed :
    (paddedLoad acceleratorFirst).outcome.toOption.isSome = true := by
  decide +kernel

/-- The pooling on the reference backend. -/
def paddedReference : Network :=
  (paddedLoad Reference.registry).outcome.toOption.get paddedPooling_loads

/-- The pooling on the accelerator. -/
def paddedMixed : Network :=
  (paddedLoad acceleratorFirst).outcome.toOption.get paddedPooling_loads_mixed

/-- The window over the third position of the result starts right of the single value. -/
theorem paddedPooling_stuck : ∃ layer, paddedPooling.find? 1 = some layer ∧
    paddedPooling.Stuck layer := by
  refine ⟨_, rfl, [{ shape := ⟨[1, 1, 1, 1]⟩ }], [⟨[1, 1, 1, 3]⟩], rfl, rfl,
    .pooling2d (by decide) ⟨0, by decide, 2, by decide, .inl ?_⟩⟩
  decide

theorem paddedPooling_stops :
    (paddedLoad Reference.registry).outcome = .ok paddedReference ∧
      (paddedLoad acceleratorFirst).outcome = .ok paddedMixed ∧
      ∀ start, HostMemory.SameSizes start paddedMemory.2 →
        (¬∃ final ran, paddedReference.execute
          { (paddedLoad Reference.registry).device with host := start } = (final, .ok (), ran)) ∧
        ∃ final ran, paddedMixed.execute
          { (paddedLoad acceleratorFirst).device with host := start } = (final, .ok (), ran) := by
  have reached : paddedPooling.Reachable := ⟨_, rfl⟩
  have owned : paddedMemory.1.Owned paddedMemory.2 :=
    (TensorHandles.allocate_spec reached.wellFormed.unique (eq_ok_get paddedPooling_allocates)).1
  have loaded := eq_ok_get paddedPooling_loads
  have loadedMixed := eq_ok_get paddedPooling_loads_mixed
  refine ⟨loaded, loadedMixed, fun start sized => ⟨fun runs => ?_, ?_⟩⟩
  · have free := (loaded_runs_iff reached
      (fun backend member => .inl (Reference.mem_registry.mp member)) owned loaded sized).mp runs
    have compiled : (1, Backend.referenceId) ∈
        paddedReference.layers.map fun entry => (entry.id, entry.backend) := by
      decide +kernel
    obtain ⟨entry, member, same⟩ := List.mem_map.mp compiled
    obtain ⟨sameId, sameBackend⟩ := Prod.mk.inj same
    obtain ⟨layer, found, stuck⟩ := paddedPooling_stuck
    exact free entry member sameBackend layer (sameId ▸ found) stuck
  · refine (loaded_runs_iff reached bundled_acceleratorFirst owned loadedMixed sized).mpr ?_
    intro entry member reference
    have backends : paddedMixed.layers.map (·.backend) = [Backend.acceleratorId] := by
      decide +kernel
    have listed : entry.backend ∈ paddedMixed.layers.map (·.backend) := List.mem_map_of_mem member
    rw [backends, List.mem_singleton, reference] at listed
    exact absurd listed (by decide)

end Network

end NeuralGraph
