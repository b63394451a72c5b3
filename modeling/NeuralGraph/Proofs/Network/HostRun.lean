import NeuralGraph.Proofs.Graph.History
import NeuralGraph.Proofs.Network.Evaluation

/-! Runs of a network on host memory of its own. The values that a run leaves are those of the
graph as a recursive definition: they do not depend on how often it ran, nor on the ids and the
order that layers got when they were inserted. -/

namespace NeuralGraph

/-- The same position at another layer. -/
def OutputRef.rename (f : LayerId → LayerId) (slot : OutputRef) : OutputRef :=
  ⟨f slot.layer, slot.index⟩

namespace Graph

/-- Among the layers that only bind, those with slots for their outputs are input layers. -/
theorem SlotsMatch.input_of_binding {graph : Graph} (matched : graph.SlotsMatch) {layer : Layer}
    (member : layer ∈ graph.layers) (binds : layer.kind.isBinding = true) {index : Nat}
    (inside : index < layer.outputs.length) : ∃ binding, layer.kind = .input binding := by
  rw [(matched layer member).2] at inside
  cases kind : layer.kind with
  | input binding => exact ⟨binding, rfl⟩
  | output binding => simp [kind, LayerKind.outputCount] at inside
  | _ => simp [kind, LayerKind.isBinding] at binds

/-- Every layer of the graph has a twin in the other one: of the same kind, with the same
declared shapes, and fed by the twins of its sources. -/
def Twins (rename : LayerId → LayerId) (graph other : Graph) : Prop :=
  ∀ layer ∈ graph.layers, ∃ twin, other.find? (rename layer.id) = some twin ∧
    twin.kind = layer.kind ∧
    twin.inputs.map (·.source) = layer.inputs.map (·.source.map (·.rename rename)) ∧
    twin.outputs.map (·.info.map (·.shape)) = layer.outputs.map (·.info.map (·.shape))

variable {graph other : Graph} {rename : LayerId → LayerId}

theorem Twins.slot (twins : Twins rename graph other) {slot : OutputRef}
    (there : graph.HasOutput slot) : other.HasOutput (slot.rename rename) ∧
      (other.slotInfo? (slot.rename rename)).map (·.shape) =
        (graph.slotInfo? slot).map (·.shape) := by
  obtain ⟨layer, found, inside⟩ := there
  obtain ⟨twin, twinFound, _, _, outputs⟩ := twins layer (mem_of_find? found)
  rw [id_of_find? found] at twinFound
  have lengths := congrArg List.length outputs
  have shapes := congrArg (·[slot.index]?) outputs
  simp only [List.length_map, List.getElem?_map] at lengths shapes
  refine ⟨⟨twin, twinFound, by simp only [OutputRef.rename]; omega⟩, ?_⟩
  rw [@shape_of_find? other (slot.rename rename) twin twinFound, shape_of_find? found,
    List.getElem?_map, List.getElem?_map]
  exact congrArg Option.join shapes

end Graph

namespace Network

variable {graph other : Graph} {rename : LayerId → LayerId} {handles others : TensorHandles}
  {memory otherMemory : HostMemory}

/-- Computed twins hold the same values if their sources do. -/
theorem contents_of_twin (valid : graph.WellFormed) (twins : graph.Twins rename other)
    (declared : handles.Declared graph) (declaredTwins : others.Declared other)
    {layer twin : Layer} (found : graph.find? layer.id = some layer)
    (twinFound : other.find? (rename layer.id) = some twin) (kind : twin.kind = layer.kind)
    (inputs : twin.inputs.map (·.source) =
      layer.inputs.map (·.source.map (·.rename rename)))
    (outputs : twin.outputs.map (·.info.map (·.shape)) =
      layer.outputs.map (·.info.map (·.shape)))
    (computed : layer.Computed handles memory) (computedTwin : twin.Computed others otherMemory)
    (sources : ∀ source, source.layer ∈ layer.producers → graph.HasOutput source →
      others.contents otherMemory (source.rename rename) = handles.contents memory source) :
    ∀ index < layer.outputs.length,
      others.contents otherMemory ⟨rename layer.id, index⟩ =
        handles.contents memory ⟨layer.id, index⟩ := by
  obtain ⟨views, shapes, results, read, declares, evaluated, stand⟩ := computed
  obtain ⟨twinViews, twinShapes, twinResults, twinRead, twinDeclares, twinEvaluated, twinStand⟩ :=
    computedTwin
  have sameViews : twinViews = views := by
    refine List.map_injective_iff.mpr (Option.some_injective _) ?_
    have feeds := congrArg (List.map (·.bind (others.view? otherMemory))) inputs
    simp only [List.map_map, Function.comp_def, Option.bind_map] at feeds
    rw [twinRead, read, feeds]
    apply List.map_congr_left
    intro slot member
    cases reads : slot.source with
    | none => rfl
    | some source =>
      have there := valid.toWired.hasOutput_of_mem found member reads
      obtain ⟨twinThere, sameShape⟩ := twins.slot there
      refine TensorHandles.view?_congr ?_ (sources source ?_ there)
      · rw [declared.shape there, declaredTwins.shape twinThere, sameShape]
      · exact Layer.mem_producers_of_source member reads
  have sameShapes : twinShapes = shapes := by
    refine List.map_injective_iff.mpr (Option.some_injective _) ?_
    rw [Graph.declaredShapes_eq_ok.mp declares, Graph.declaredShapes_eq_ok.mp twinDeclares,
      outputs]
  rw [kind, sameViews, sameShapes, evaluated, Except.ok.injEq] at twinEvaluated
  subst twinResults
  have lengths := congrArg List.length outputs
  simp only [List.length_map] at lengths
  rw [lengths, Graph.id_of_find? twinFound, stand] at twinStand
  intro index inside
  have slots := congrArg (·[index]?) twinStand
  simpa [List.getElem?_range', inside] using slots.symm

/-- Twins hold the same values where both compute them and the input layers hold the same: by
induction along a schedule, evaluation gives both the same results. -/
theorem contents_of_twins (valid : graph.WellFormed) (twins : graph.Twins rename other)
    (declared : handles.Declared graph) (declaredTwins : others.Declared other)
    (computed : ∀ layer ∈ graph.layers, layer.kind.isBinding = false →
      layer.Computed handles memory)
    (computedTwins : ∀ layer ∈ other.layers, layer.kind.isBinding = false →
      layer.Computed others otherMemory)
    (bound : ∀ layer ∈ graph.layers, layer.kind.isBinding = true →
      ∀ index < layer.outputs.length,
        others.contents otherMemory ⟨rename layer.id, index⟩ =
          handles.contents memory ⟨layer.id, index⟩)
    {done order : List LayerId} (schedule : graph.Schedule done order)
    (known : ∀ slot, slot.layer ∈ done → graph.HasOutput slot →
      others.contents otherMemory (slot.rename rename) = handles.contents memory slot) :
    ∀ slot, slot.layer ∈ order → graph.HasOutput slot →
      others.contents otherMemory (slot.rename rename) = handles.contents memory slot := by
  induction schedule with
  | nil => intro slot member; cases member
  | @cons done order id layer found ready rest ih =>
    have member := Graph.mem_of_find? found
    obtain rfl : layer.id = id := Graph.id_of_find? found
    have here : ∀ index < layer.outputs.length,
        others.contents otherMemory ⟨rename layer.id, index⟩ =
          handles.contents memory ⟨layer.id, index⟩ := by
      cases operation : layer.kind.isBinding with
      | true => exact bound layer member operation
      | false =>
        obtain ⟨twin, twinFound, kind, inputs, outputs⟩ := twins layer member
        exact contents_of_twin valid twins declared declaredTwins found twinFound kind inputs
          outputs (computed layer member operation)
          (computedTwins twin (Graph.mem_of_find? twinFound) (kind ▸ operation))
          fun source reads there => known source (ready _ reads) there
    have knownNext : ∀ slot, slot.layer ∈ layer.id :: done → graph.HasOutput slot →
        others.contents otherMemory (slot.rename rename) = handles.contents memory slot := by
      rintro ⟨slotLayer, index⟩ slotMember there
      rcases List.mem_cons.mp slotMember with same | old
      · obtain ⟨holder, stored, inside⟩ := there
        simp only at same stored inside
        rw [same, found] at stored
        cases stored
        rw [OutputRef.rename, same]
        exact here index inside
      · exact known _ old there
    intro slot slotMember there
    rcases List.mem_cons.mp slotMember with same | later
    · exact knownNext slot (same ▸ List.mem_cons_self) there
    · exact ih knownNext slot later there

/-- A number of runs, one after the other, that all succeed. -/
def Runs (network : Network) : Nat → Device → Device → Prop
  | 0, device, final => final = device
  | count + 1, device, final =>
    ∃ after ran, network.execute device = (after, .ok (), ran) ∧ network.Runs count after final

/-- A network loaded onto host memory of its own, filled with any values of the right number, and
run at least once. -/
structure HostRun (graph : Graph) (registry : Registry) where
  device : Device
  network : Network
  loaded : (loadOnHost graph registry device).outcome = .ok network
  start : HostMemory
  sized : start.SameSizes (loadOnHost graph registry device).device.host
  further : Nat
  final : Device
  ran : network.Runs (further + 1)
    { (loadOnHost graph registry device).device with host := start } final

namespace HostRun

variable {registry : Registry}

/-- What a slot holds before the first run. -/
def before (run : HostRun graph registry) (slot : OutputRef) : Option (Array Float32) :=
  run.network.handles.contents run.start slot

/-- What a slot holds after the last run. -/
def after (run : HostRun graph registry) (slot : OutputRef) : Option (Array Float32) :=
  run.network.handles.contents run.final.host slot

/-- What a slot holds after the last run, in the shape of its handle. -/
def view? (run : HostRun graph registry) (slot : OutputRef) : Option Reference.View :=
  run.network.handles.view? run.final.host slot

theorem Runs.once {network : Network} {device : Device}
    (success : (network.execute device).2.1.toOption.isSome = true) :
    network.Runs 1 device (network.execute device).1 :=
  ⟨_, _, Prod.ext rfl (Prod.ext (eq_ok_get success) rfl), rfl⟩

/-- One run on the zeros that loading has allocated. -/
def once {device : Device}
    (loads : (loadOnHost graph registry device).outcome.toOption.isSome = true)
    (succeeds : (((loadOnHost graph registry device).outcome.toOption.get loads).execute
      (loadOnHost graph registry device).device).2.1.toOption.isSome = true) :
    HostRun graph registry where
  device := device
  network := (loadOnHost graph registry device).outcome.toOption.get loads
  loaded := eq_ok_get loads
  start := (loadOnHost graph registry device).device.host
  sized := .refl _
  further := 0
  final := _
  ran := Runs.once succeeds

theorem before_once {device : Device}
    (loads : (loadOnHost graph registry device).outcome.toOption.isSome = true)
    (succeeds : (((loadOnHost graph registry device).outcome.toOption.get loads).execute
      (loadOnHost graph registry device).device).2.1.toOption.isSome = true) (slot : OutputRef) :
    (once loads succeeds).before slot =
      ((loadOnHost graph registry device).outcome.toOption.get loads).handles.contents
        (loadOnHost graph registry device).device.host slot := rfl

end HostRun

/-- Compiling reference workloads leaves the device alone. -/
theorem device_of_compiles {order : List LayerId} {loaded : List LoadedLayer}
    {before after : Device}
    (compiles : Loading.Compiles graph Reference.registry handles order before loaded after) :
    after = before := by
  induction compiles with
  | nil => rfl
  | binding _ _ _ ih => exact ih
  | operation _ _ member _ created _ ih =>
    obtain rfl := Reference.mem_registry.mp member
    obtain ⟨rfl, _⟩ := Reference.create_eq_ok created
    exact ih

/-- Any number of runs of a loaded network, at least one: input slots stay as they were, and every
operation layer ends up computed. -/
theorem Runs.settles {network : Network} {count : Nat} {device final before after : Device}
    (valid : graph.WellFormed) (loaded : Loaded graph Reference.registry network before after)
    (owned : network.handles.Owned device.host)
    (ran : network.Runs (count + 1) device final) :
    final.host.SameSizes device.host ∧
      (∀ slot, (∀ layer, graph.find? slot.layer = some layer → layer.kind.isBinding = true) →
        network.handles.contents final.host slot = network.handles.contents device.host slot) ∧
      ∀ layer ∈ graph.layers, layer.kind.isBinding = false →
        layer.Computed network.handles final.host := by
  obtain ⟨order, perm, schedule, compiles⟩ := loaded.compiled
  induction count generalizing device with
  | zero =>
    obtain ⟨middle, executed, success, rfl⟩ := ran
    obtain ⟨sizes, kept, settled⟩ := runEach_settles compiles schedule
      (perm.nodup_iff.mpr valid.unique) (by simp) loaded.passes owned (.nil _ _ _) success
    refine ⟨sizes, kept, ?_⟩
    intro layer member operation
    have stored := (Graph.find?_eq_some_iff valid.unique).mpr ⟨member, rfl⟩
    refine settled.computed layer.id ?_ layer stored operation
    simpa using perm.mem_iff.mpr (Graph.mem_ids_of_find? stored)
  | succ count ih =>
    obtain ⟨middle, executed, success, later⟩ := ran
    obtain ⟨sizes, keptFirst, _⟩ := runEach_settles compiles schedule
      (perm.nodup_iff.mpr valid.unique) (by simp) loaded.passes owned (.nil _ _ _) success
    obtain ⟨sizesLater, kept, computed⟩ := ih (owned.of_sameSizes sizes) later
    exact ⟨sizesLater.trans sizes, fun slot binds => (kept slot binds).trans (keptFirst slot binds),
      computed⟩

/-- What the parts of a run on host memory come to. -/
theorem HostRun.settles (valid : graph.WellFormed) (run : HostRun graph Reference.registry) :
    run.network.handles.Declared graph ∧ run.network.handles.Owned run.final.host ∧
      (∀ slot, (∀ layer, graph.find? slot.layer = some layer → layer.kind.isBinding = true) →
        run.after slot = run.before slot) ∧
      ∀ layer ∈ graph.layers, layer.kind.isBinding = false →
        layer.Computed run.network.handles run.final.host := by
  obtain ⟨host, _, owned, declared, loaded⟩ := loadOnHost_eq_ok valid run.loaded
  obtain ⟨order, _, _, compiles⟩ := loaded.compiled
  have sized := run.sized
  rw [device_of_compiles compiles] at sized
  have ownedStart := owned.of_sameSizes sized
  obtain ⟨sizes, settled⟩ := Runs.settles valid loaded ownedStart run.ran
  exact ⟨declared, ownedStart.of_sameSizes sizes, settled⟩

theorem HostRun.kept (valid : graph.WellFormed) (run : HostRun graph Reference.registry)
    {id : LayerId} {layer : Layer} (found : graph.find? id = some layer)
    (binds : layer.kind.isBinding = true) (index : Nat) :
    run.after ⟨id, index⟩ = run.before ⟨id, index⟩ := by
  obtain ⟨_, _, kept, _⟩ := run.settles valid
  apply kept
  intro holder stored
  rw [found] at stored
  cases stored
  exact binds

/-- Running a reference network evaluates its graph. Input layers keep what they hold; every
output slot of every operation layer ends up with its buffer of the evaluation of the layer, on
what its sources end up with and on its declared shapes. What the slots end up with is therefore
the same for every graph of twins that is given the same inputs, however often it runs. -/
theorem hostRun_evaluates (reached : graph.Reachable) (matched : graph.SlotsMatch)
    (run : HostRun graph Reference.registry) :
    (∀ layer ∈ graph.layers, ∀ binding, layer.kind = .input binding → ∀ index,
      run.after ⟨layer.id, index⟩ = run.before ⟨layer.id, index⟩) ∧
    (∀ layer ∈ graph.layers, layer.kind.isBinding = false → ∃ views shapes results,
      views.map some = layer.inputs.map (·.source.bind run.view?) ∧
      Graph.declaredShapes layer = .ok shapes ∧
      Reference.evaluate layer.kind views shapes = .ok results ∧
      ∀ index < layer.outputs.length, ∃ buffer, results[index]? = some buffer ∧
        run.after ⟨layer.id, index⟩ = some buffer) ∧
    ∀ (other : Graph) (rename : LayerId → LayerId), other.Reachable → graph.Twins rename other →
      ∀ otherRun : HostRun other Reference.registry,
        (∀ layer ∈ graph.layers, ∀ binding, layer.kind = .input binding → ∀ index,
          otherRun.before ⟨rename layer.id, index⟩ = run.before ⟨layer.id, index⟩) →
        ∀ layer ∈ graph.layers, ∀ index < layer.outputs.length,
          otherRun.after ⟨rename layer.id, index⟩ = run.after ⟨layer.id, index⟩ := by
  have valid := reached.wellFormed
  obtain ⟨declared, _, _, computed⟩ := run.settles valid
  refine ⟨?_, ?_, ?_⟩
  · intro layer member binding operation index
    have stored := (Graph.find?_eq_some_iff valid.unique).mpr ⟨member, rfl⟩
    exact run.kept valid stored (by simp [operation, LayerKind.isBinding]) index
  · intro layer member operation
    obtain ⟨views, shapes, results, read, declares, evaluated, stand⟩ :=
      computed layer member operation
    refine ⟨views, shapes, results, read, declares, evaluated, ?_⟩
    intro index inside
    have slots := congrArg (·[index]?) stand
    simp only [List.getElem?_map, List.getElem?_range' inside, Option.map_some, Nat.zero_add,
      Nat.one_mul] at slots
    obtain ⟨buffer, there, same⟩ := Option.map_eq_some_iff.mp slots
    exact ⟨buffer, there, same.symm⟩
  · intro other rename reachedOther twins otherRun inputs layer member index inside
    have validOther := reachedOther.wellFormed
    obtain ⟨declaredOther, _, _, computedOther⟩ := otherRun.settles validOther
    obtain ⟨order, scheduled⟩ := valid.topologicalOrder
    obtain ⟨perm, schedule⟩ := Graph.topologicalOrder_sound valid.unique scheduled
    have stored := (Graph.find?_eq_some_iff valid.unique).mpr ⟨member, rfl⟩
    refine contents_of_twins valid twins declared declaredOther computed computedOther ?_ schedule
      (by simp) ⟨layer.id, index⟩ (perm.mem_iff.mpr (Graph.mem_ids_of_find? stored))
      ⟨layer, stored, inside⟩
    intro holder memberHolder binds slot insideHolder
    obtain ⟨twin, twinFound, kind, _⟩ := twins holder memberHolder
    have storedHolder := (Graph.find?_eq_some_iff valid.unique).mpr ⟨memberHolder, rfl⟩
    obtain ⟨binding, operation⟩ := matched.input_of_binding memberHolder binds insideHolder
    calc
      otherRun.after _ = otherRun.before _ :=
        otherRun.kept validOther twinFound (kind ▸ binds) slot
      _ = run.before _ := inputs holder memberHolder binding operation slot
      _ = run.after _ := (run.kept valid storedHolder binds slot).symm

/-- A graph that adds its input to itself. -/
def doubling : Graph :=
  Graph.run [.addLayer (.input 0) "x", .addLayer .addition "sum", .addLayer (.output 0) "y",
    .connect ⟨0, 0⟩ ⟨1, 0⟩, .connect ⟨0, 0⟩ ⟨1, 1⟩, .connect ⟨1, 0⟩ ⟨2, 0⟩,
    .setInfo ⟨0, 0⟩ { shape := ⟨[1]⟩ }, .setInfo ⟨1, 0⟩ { shape := ⟨[1]⟩ }] Graph.empty

theorem reachable_doubling : doubling.Reachable := ⟨_, rfl⟩

theorem slotsMatch_doubling : doubling.SlotsMatch := by
  unfold Graph.SlotsMatch
  decide +kernel

theorem doubling_loads :
    (loadOnHost doubling Reference.registry {}).outcome.toOption.isSome = true := by
  decide +kernel

/-- The network that doubles one zero, once. -/
def doublingRun : HostRun doubling Reference.registry :=
  .once doubling_loads (by decide +kernel)

theorem doublingRun_evaluates : doublingRun.after ⟨0, 0⟩ = doublingRun.before ⟨0, 0⟩ ∧
    ∃ views shapes results, Reference.evaluate .addition views shapes = .ok results ∧
      ∃ buffer, results[0]? = some buffer ∧ doublingRun.after ⟨1, 0⟩ = some buffer := by
  have evaluated := hostRun_evaluates reachable_doubling slotsMatch_doubling doublingRun
  constructor
  · exact evaluated.1 doubling.layers[0] (List.getElem_mem (by decide +kernel)) 0 rfl 0
  · obtain ⟨views, shapes, results, _, _, value, stand⟩ :=
      evaluated.2.1 doubling.layers[1] (List.getElem_mem (by decide +kernel)) rfl
    exact ⟨views, shapes, results, value, stand 0 (by decide +kernel)⟩

end Network

end NeuralGraph
