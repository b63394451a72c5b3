import NeuralGraph.Proofs.Accelerator.Backend
import NeuralGraph.Proofs.Network.HostRun

/-! Networks on any mix of the bundled backends. Wherever the workloads of a network follow the
reference kernels, a run along its schedule succeeds if the same graph has been evaluated on the
reference backend, and it leaves the values of that evaluation. -/

namespace NeuralGraph

/-- A registry with no other backends than the bundled ones, in any order of preference. -/
def Registry.Bundled (registry : Registry) : Prop :=
  ∀ backend ∈ registry.backends, backend = Reference.backend ∨ backend = Accelerator.backend

namespace Registry

variable {registry : Registry}

theorem mem_of_find? {id : BackendId} {backend : Backend}
    (found : registry.find? id = some backend) : backend ∈ registry.backends :=
  List.mem_of_find?_eq_some found

theorem bundled_empty : empty.Bundled := by simp [Bundled, empty]

theorem Bundled.register (bundled : registry.Bundled) {backend : Backend}
    (known : backend = Reference.backend ∨ backend = Accelerator.backend) :
    (registry.register backend).Bundled := by
  unfold Registry.register
  split
  · intro other member
    rcases List.mem_append.mp member with old | new
    · exact bundled other old
    · exact List.mem_singleton.mp new ▸ known
  · intro other member
    obtain ⟨old, stored, same⟩ := List.mem_map.mp member
    split at same
    · exact same ▸ known
    · exact same ▸ bundled old stored

theorem Bundled.prefer (bundled : registry.Bundled) (order : List BackendId) :
    (registry.prefer order).Bundled := by
  intro backend member
  rcases List.mem_append.mp member with first | rest
  · obtain ⟨_, _, found⟩ := List.mem_filterMap.mp first
    exact bundled backend (mem_of_find? found)
  · exact bundled backend (List.mem_filter.mp rest).1

end Registry

namespace Network

open Loading
open Staging (Keeps)

variable {graph : Graph} {registry : Registry} {handles others : TensorHandles}
  {memory : HostMemory}

/-- Either backend builds workloads that follow the reference kernels, and leaves alone what was
staged. -/
theorem create_follows {backend : Backend} {descriptor : QueueDescriptor} {info : WorkloadInfo}
    {device next : Device} {workload : Workload}
    (known : backend = Reference.backend ∨ backend = Accelerator.backend)
    (supported : backend.supports descriptor.kind info.inputs info.outputs = .supported)
    (created : backend.create descriptor info device = (next, .ok workload)) :
    next.host = device.host ∧ Keeps device.staging.slots.size device.staging next.staging ∧
      ∀ staging, Keeps next.staging.slots.size next.staging staging →
        workload.Follows descriptor staging := by
  rcases known with rfl | rfl
  · obtain ⟨rfl, runs⟩ := Reference.create_eq_ok created
    refine ⟨rfl, .refl _ _, fun staging _ host after _ success => ?_⟩
    rw [runs]
    exact success
  · exact Accelerator.create_follows supported created

/-- Compiling moves no host memory and leaves alone what was staged. -/
theorem compiles_keeps (bundled : registry.Bundled) {order : List LayerId}
    {loaded : List LoadedLayer} {before after : Device}
    (compiles : Compiles graph registry handles order before loaded after) :
    after.host = before.host ∧
      Keeps before.staging.slots.size before.staging after.staging := by
  induction compiles with
  | nil => exact ⟨rfl, .refl _ _⟩
  | binding _ _ _ ih => exact ih
  | operation found bound member supported created rest ih =>
    obtain ⟨sameHost, keeps, _⟩ :=
      create_follows (bundled _ member) (bound.kind ▸ supported) created
    obtain ⟨laterHost, laterKeeps⟩ := ih
    exact ⟨laterHost.trans sameHost, keeps.trans (laterKeeps.weaken keeps.grows)⟩

/-- Memory in which a graph has been evaluated, with a buffer of the right size for each slot. -/
structure Evaluated (graph : Graph) (handles : TensorHandles) (memory : HostMemory) : Prop where
  declared : handles.Declared graph
  owned : handles.Owned memory
  computed : ∀ layer ∈ graph.layers, layer.kind.isBinding = false →
    layer.Computed handles memory

variable {layer : Layer} {descriptor : QueueDescriptor} {info : WorkloadInfo} {device : Device}

/-- Values of one network fit the buffers of the other. -/
theorem Evaluated.fits (evaluated : Evaluated graph others memory)
    (declared : handles.Declared graph) (owned : handles.Owned device.host)
    (bound : Bound graph handles layer descriptor info) (found : graph.find? layer.id = some layer)
    {results : List (Array Float32)}
    (stand : results.map some = (List.range' 0 layer.outputs.length).map fun index =>
      others.contents memory ⟨layer.id, index⟩) :
    List.Forall₂ device.host.Fits descriptor.outputs results := by
  have slots : List.Forall₂ (fun output value => ∀ handle data, output = some handle →
      value = some data → device.host.Fits handle data)
      (descriptor.outputs.map some) (results.map some) := by
    rw [bound.outputs, stand, List.forall₂_map_left_iff, List.forall₂_map_right_iff,
      List.forall₂_same]
    intro index member handle data bindsHandle holdsData
    have there : graph.HasOutput ⟨layer.id, index⟩ :=
      ⟨layer, found, by simpa using (List.mem_range'_1.mp member).2⟩
    obtain ⟨info, named, slotInfo, foundHandle, sameInfo⟩ := declared _ there
    obtain rfl := Option.some.inj (foundHandle.symm.trans bindsHandle)
    obtain ⟨twinInfo, twin, twinSlot, foundTwin, sameTwin⟩ := evaluated.declared _ there
    obtain rfl := Option.some.inj (slotInfo.symm.trans twinSlot)
    obtain ⟨held, readHeld, sizeHeld⟩ := owned.held _ _ foundHandle
    obtain ⟨value, readValue, sizeValue⟩ := evaluated.owned.held _ _ foundTwin
    simp only [TensorHandles.contents, foundTwin, Option.bind_some, readValue,
      Option.some.injEq] at holdsData
    subst value
    exact ⟨held, readHeld, by rw [sizeValue, sizeHeld, sameTwin, sameInfo]⟩
  rw [List.forall₂_map_left_iff, List.forall₂_map_right_iff] at slots
  exact slots.imp fun _ _ fit => fit _ _ rfl rfl

/-- A layer whose sources hold what they were evaluated to runs on the reference kernel, and its
slots then hold what it was evaluated to. -/
theorem Evaluated.execute (evaluated : Evaluated graph others memory) (valid : graph.WellFormed)
    (declared : handles.Declared graph) (owned : handles.Owned device.host)
    (bound : Bound graph handles layer descriptor info) (found : graph.find? layer.id = some layer)
    {inputs : List TensorInfo} {shapes : List Shape} (passes : graph.Passes layer inputs shapes)
    (sources : ∀ source, source.layer ∈ layer.producers → graph.HasOutput source →
      handles.contents device.host source = others.contents memory source) :
    ∃ host, Reference.execute descriptor device = ({ device with host }, .ok ()) ∧
      host.SameSizes device.host ∧
      (∀ slot, slot.layer ≠ layer.id →
        handles.contents host slot = handles.contents device.host slot) ∧
      ∀ index < layer.outputs.length,
        handles.contents host ⟨layer.id, index⟩ = others.contents memory ⟨layer.id, index⟩ := by
  obtain ⟨views, known, results, read, declares, value, stand⟩ :=
    evaluated.computed layer (Graph.mem_of_find? found) bound.operation
  have reads : views.map some = descriptor.inputs.map device.host.view? := by
    refine bound.views_iff.mpr (read.trans (List.map_congr_left fun slot member => ?_))
    cases feeds : slot.source with
    | none => rfl
    | some source =>
      have there := valid.toWired.hasOutput_of_mem found member feeds
      refine TensorHandles.view?_congr ?_ (sources source ?_ there).symm
      · rw [declared.shape there, evaluated.declared.shape there]
      · exact Layer.mem_producers_of_source member feeds
  have sameShapes : known = shapes := by
    rw [passes.declares, Except.ok.injEq] at declares
    exact declares.symm
  obtain ⟨host, written, sizes, others, standHere⟩ :=
    bound.writeResults_stand owned (evaluated.fits declared owned bound found stand)
  refine ⟨host, Reference.execute_eq_ok.mpr ⟨views, results, host, reads, ?_, written, rfl⟩, sizes,
    others, ?_⟩
  · rw [bound.kind, bound.outputShapes passes, ← sameShapes]
    exact value
  · intro index inside
    have same := congrArg (·[index]?) (standHere.symm.trans stand)
    simpa [List.getElem?_range', inside] using same

/-- Memory that a bound layer can run on. -/
theorem ready_of_bound (bound : Bound graph handles layer descriptor info)
    (owned : handles.Owned memory) : descriptor.Ready memory where
  inputs := by
    intro handle member
    obtain ⟨source, found⟩ := bound.exists_of_mem_inputs member
    exact owned.held source handle found
  outputs := bound.nodup_outputs owned

/-- What the layers in `done` and all input layers hold in memory is what the graph was evaluated
to. -/
def Agrees (graph : Graph) (handles : TensorHandles) (host : HostMemory) (others : TensorHandles)
    (memory : HostMemory) (done : List LayerId) : Prop :=
  ∀ slot, graph.HasOutput slot →
    (slot.layer ∈ done ∨ ∀ layer, graph.find? slot.layer = some layer →
      layer.kind.isBinding = true) →
    handles.contents host slot = others.contents memory slot

namespace Agrees

variable {host after : HostMemory} {done : List LayerId} {id : LayerId}

/-- An input layer is there without running. -/
theorem binding (agrees : Agrees graph handles host others memory done)
    (found : graph.find? id = some layer) (binds : layer.kind.isBinding = true) :
    Agrees graph handles host others memory (id :: done) := by
  intro slot there known
  apply agrees slot there
  rcases known with member | always
  · rcases List.mem_cons.mp member with same | old
    · right
      intro holder stored
      rw [same, found] at stored
      cases stored
      exact binds
    · exact .inl old
  · exact .inr always

/-- An operation layer that has run agrees on its own slots, and leaves the others alone. -/
theorem operation (agrees : Agrees graph handles host others memory done)
    (found : graph.find? layer.id = some layer)
    (kept : ∀ slot, slot.layer ≠ layer.id →
      handles.contents after slot = handles.contents host slot)
    (own : ∀ index < layer.outputs.length,
      handles.contents after ⟨layer.id, index⟩ = others.contents memory ⟨layer.id, index⟩) :
    Agrees graph handles after others memory (layer.id :: done) := by
  intro slot there known
  by_cases here : slot.layer = layer.id
  · obtain ⟨holder, stored, inside⟩ := there
    rw [here, found] at stored
    cases stored
    obtain ⟨_, index⟩ := slot
    cases here
    exact own index inside
  · rw [kept slot here]
    apply agrees slot there
    rcases known with member | always
    · exact .inl ((List.mem_cons.mp member).resolve_left here)
    · exact .inr always

end Agrees

/-- A network runs along a schedule to the values that its graph was evaluated to. -/
theorem Evaluated.runEach (evaluated : Evaluated graph others memory) (valid : graph.WellFormed)
    (bundled : registry.Bundled) (declared : handles.Declared graph)
    (passes : ∀ layer ∈ graph.layers, ∃ inputs shapes, graph.Passes layer inputs shapes)
    {order done : List LayerId} {before after : Device} {loaded : List LoadedLayer}
    (compiles : Compiles graph registry handles order before loaded after)
    (schedule : graph.Schedule done order) (owned : handles.Owned device.host)
    (staged : Keeps after.staging.slots.size after.staging device.staging)
    (agrees : Agrees graph handles device.host others memory done) :
    ∃ final ran, runEach loaded device = (final, .ok (), ran) ∧ final.staging = device.staging ∧
      final.host.SameSizes device.host ∧
      Agrees graph handles final.host others memory (order.reverse ++ done) := by
  induction compiles generalizing done device with
  | nil => exact ⟨device, [], rfl, rfl, .refl _, agrees⟩
  | @binding id _ layer _ _ _ found binds rest ih =>
    cases schedule with
    | cons _ _ scheduleRest =>
      obtain ⟨final, ran, executed, sameStaging, sizes, reached⟩ :=
        ih scheduleRest owned staged (agrees.binding found binds)
      exact ⟨final, ran, executed, sameStaging, sizes, by simpa using reached⟩
  | @operation id _ layer _ next final _ descriptor info backend workload found bound member
      supported created rest ih =>
    cases schedule with
    | cons again ready scheduleRest =>
      rw [found] at again
      cases again
      obtain rfl : layer.id = id := Graph.id_of_find? found
      obtain ⟨inputs, shapes, pass⟩ := passes layer (Graph.mem_of_find? found)
      obtain ⟨_, _, follows⟩ := create_follows (bundled _ member) (bound.kind ▸ supported) created
      obtain ⟨_, keepsRest⟩ := compiles_keeps bundled rest
      have keeps := keepsRest.trans (staged.weaken keepsRest.grows)
      obtain ⟨host, executed, sizes, kept, own⟩ := evaluated.execute valid declared owned bound
        found pass fun source reads there => agrees source there (.inl (ready _ reads))
      have runs := follows device.staging keeps device.host _ (ready_of_bound bound owned) executed
      obtain ⟨last, ran, executedRest, sameStaging, sizesRest, reached⟩ :=
        @ih { device with host } _ scheduleRest (owned.of_sameSizes sizes) staged
          (agrees.operation found kept own)
      exact ⟨last, _, runEach_cons_eq_ok.mpr ⟨_, _, runs, executedRest, rfl⟩, sameStaging,
        sizesRest.trans sizes, by simpa using reached⟩

/-- Any number of runs of a network, at least one, from memory whose input slots hold what the graph
was evaluated on. -/
theorem Evaluated.runs (evaluated : Evaluated graph others memory) (valid : graph.WellFormed)
    (bundled : registry.Bundled) {network : Network} {before after : Device}
    (declared : network.handles.Declared graph)
    (loaded : Loaded graph registry network before after)
    (owned : network.handles.Owned device.host)
    (staged : Keeps after.staging.slots.size after.staging device.staging)
    (agrees : Agrees graph network.handles device.host others memory []) (count : Nat) :
    ∃ final, network.Runs (count + 1) device final ∧ ∀ slot, graph.HasOutput slot →
      network.handles.contents final.host slot = others.contents memory slot := by
  obtain ⟨order, perm, schedule, compiles⟩ := loaded.compiled
  induction count generalizing device with
  | zero =>
    obtain ⟨final, ran, executed, _, _, reached⟩ := evaluated.runEach valid bundled declared
      loaded.passes compiles schedule owned staged agrees
    refine ⟨final, ⟨final, ran, executed, rfl⟩, ?_⟩
    intro slot there
    apply reached slot there
    obtain ⟨layer, found, _⟩ := there
    left
    simpa using perm.mem_iff.mpr (Graph.mem_ids_of_find? found)
  | succ count ih =>
    obtain ⟨middle, ran, executed, sameStaging, sizes, reached⟩ := evaluated.runEach valid bundled
      declared loaded.passes compiles schedule owned staged agrees
    obtain ⟨final, later, equal⟩ := ih (owned.of_sameSizes sizes) (sameStaging ▸ staged)
      fun slot there known => reached slot there (.inr (known.resolve_left (by simp)))
    exact ⟨final, ⟨middle, ran, executed, later⟩, equal⟩

theorem HostRun.evaluated (valid : graph.WellFormed) (run : HostRun graph Reference.registry) :
    Evaluated graph run.network.handles run.final.host := by
  obtain ⟨declared, owned, _, computed⟩ := run.settles valid
  exact ⟨declared, owned, computed⟩

/-- Loading binds the same memory, whatever the backends are. -/
theorem sameMemory_of_bundled (valid : graph.WellFormed) {second : Registry}
    (bundled : registry.Bundled) (bundledSecond : second.Bundled) {network other : Network}
    (loaded : (loadOnHost graph registry device).outcome = .ok network)
    (loadedSecond : (loadOnHost graph second device).outcome = .ok other) :
    network.handles = other.handles ∧
      (loadOnHost graph registry device).device.host =
        (loadOnHost graph second device).device.host := by
  obtain ⟨host, allocated, _, _, first⟩ := loadOnHost_eq_ok valid loaded
  obtain ⟨hostSecond, allocatedSecond, _, _, later⟩ := loadOnHost_eq_ok valid loadedSecond
  obtain ⟨_, _, _, compiles⟩ := first.compiled
  obtain ⟨_, _, _, compilesSecond⟩ := later.compiled
  rw [allocated, Except.ok.injEq, Prod.mk.injEq] at allocatedSecond
  refine ⟨allocatedSecond.1, ?_⟩
  rw [(compiles_keeps bundled compiles).1, (compiles_keeps bundledSecond compilesSecond).1]
  exact allocatedSecond.2

/-- The choice of backends does not change results. A graph that runs on the reference backend also
runs, any number of times, on the bundled backends in any order of preference, and from the same
contents of its input layers every output slot ends up with the same values. -/
theorem bundled_agrees_with_reference (reached : graph.Reachable) (matched : graph.SlotsMatch)
    (bundled : registry.Bundled) (reference : HostRun graph Reference.registry) {network : Network}
    (loaded : (loadOnHost graph registry device).outcome = .ok network) {start : HostMemory}
    (sized : start.SameSizes (loadOnHost graph registry device).device.host)
    (inputs : ∀ layer ∈ graph.layers, ∀ binding, layer.kind = .input binding → ∀ index,
      network.handles.contents start ⟨layer.id, index⟩ = reference.before ⟨layer.id, index⟩)
    (count : Nat) :
    ∃ final,
      network.Runs (count + 1) { (loadOnHost graph registry device).device with host := start }
        final ∧
      ∀ layer ∈ graph.layers, ∀ index < layer.outputs.length,
        network.handles.contents final.host ⟨layer.id, index⟩ =
          reference.after ⟨layer.id, index⟩ := by
  have valid := reached.wellFormed
  obtain ⟨host, _, owned, declared, compiled⟩ := loadOnHost_eq_ok valid loaded
  obtain ⟨order, _, _, compiles⟩ := compiled.compiled
  rw [(compiles_keeps bundled compiles).1] at sized
  have agrees : Agrees graph network.handles start reference.network.handles
      reference.final.host [] := by
    rintro ⟨id, index⟩ ⟨layer, found, inside⟩ known
    have binds := known.resolve_left (by simp)
    have member := Graph.mem_of_find? found
    obtain rfl : layer.id = id := Graph.id_of_find? found
    obtain ⟨binding, kind⟩ := matched.input_of_binding member (binds layer found) inside
    exact (inputs layer member binding kind index).trans
      (reference.kept valid found (binds layer found) index).symm
  obtain ⟨final, ran, equal⟩ := @Evaluated.runs _ _ _ _
    { (loadOnHost graph registry device).device with host := start } (reference.evaluated valid)
    valid bundled _ _ _ declared compiled (owned.of_sameSizes sized) (.refl _ _) agrees count
  refine ⟨final, ran, fun layer member index inside => equal _ ⟨layer, ?_, inside⟩⟩
  exact (Graph.find?_eq_some_iff valid.unique).mpr ⟨member, rfl⟩

/-- The accelerator first, the reference backend for what it does not support. -/
def acceleratorFirst : Registry :=
  ((Registry.empty.register Reference.backend).register Accelerator.backend).prefer
    [Backend.acceleratorId]

theorem bundled_acceleratorFirst : acceleratorFirst.Bundled :=
  ((Registry.bundled_empty.register (.inl rfl)).register (.inr rfl)).prefer _

/-- A graph that adds to its input what the input rectifies to. -/
def rectified : Graph :=
  Graph.run [.addLayer (.input 0) "x", .addLayer (.activation { curve := .reLu }) "relu",
    .addLayer .addition "sum", .addLayer (.output 0) "y", .connect ⟨0, 0⟩ ⟨1, 0⟩,
    .connect ⟨0, 0⟩ ⟨2, 0⟩, .connect ⟨1, 0⟩ ⟨2, 1⟩, .connect ⟨2, 0⟩ ⟨3, 0⟩,
    .setInfo ⟨0, 0⟩ { shape := ⟨[1]⟩ }, .setInfo ⟨1, 0⟩ { shape := ⟨[1]⟩ },
    .setInfo ⟨2, 0⟩ { shape := ⟨[1]⟩ }] Graph.empty

theorem rectified_loads :
    (loadOnHost rectified Reference.registry {}).outcome.toOption.isSome = true := by
  decide +kernel

theorem rectified_loads_mixed :
    (loadOnHost rectified acceleratorFirst {}).outcome.toOption.isSome = true := by
  decide +kernel

/-- The same graph with the rectification on the accelerator. -/
def rectifiedMixed : Network :=
  (loadOnHost rectified acceleratorFirst {}).outcome.toOption.get rectified_loads_mixed

/-- The rectified sum on the reference backend, run once on zeros. -/
def rectifiedRun : HostRun rectified Reference.registry :=
  .once rectified_loads (by decide +kernel)

theorem rectified_agrees :
    rectifiedMixed.layers.map (·.backend) = [Backend.acceleratorId, Backend.referenceId] ∧
      ∃ start final, rectifiedMixed.Runs 1
        { (loadOnHost rectified acceleratorFirst {}).device with host := start } final ∧
        ∀ layer ∈ rectified.layers, ∀ index < layer.outputs.length,
          rectifiedMixed.handles.contents final.host ⟨layer.id, index⟩ =
            rectifiedRun.after ⟨layer.id, index⟩ := by
  refine ⟨by decide +kernel, ?_⟩
  have reached : rectified.Reachable := ⟨_, rfl⟩
  have matched : rectified.SlotsMatch := by
    unfold Graph.SlotsMatch
    decide +kernel
  have loaded : (loadOnHost rectified acceleratorFirst {}).outcome = .ok rectifiedMixed :=
    eq_ok_get rectified_loads_mixed
  obtain ⟨handles, host⟩ := sameMemory_of_bundled reached.wellFormed bundled_acceleratorFirst
    (fun backend member => .inl (Reference.mem_registry.mp member)) loaded
    (eq_ok_get rectified_loads)
  obtain ⟨final, ran, agrees⟩ := bundled_agrees_with_reference reached matched
    bundled_acceleratorFirst rectifiedRun loaded (.refl _) (fun layer _ _ _ index => by
      rw [rectifiedRun, HostRun.before_once, handles, host]) 0
  exact ⟨_, final, ran, agrees⟩

end Network

end NeuralGraph
