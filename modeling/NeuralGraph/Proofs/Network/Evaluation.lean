import NeuralGraph.Proofs.Backend.Descriptor
import NeuralGraph.Proofs.Network.Compiled
import NeuralGraph.Proofs.Reference.Execution

/-! Networks on the reference backend. Running one along its schedule leaves memory in which every
operation layer holds its value on what its sources hold; such memory is determined by what the
input layers hold. -/

namespace NeuralGraph

namespace TensorHandles

/-- The values behind a slot. -/
def contents (handles : TensorHandles) (memory : HostMemory) (slot : OutputRef) :
    Option (Array Float32) :=
  (handles.find? slot).bind memory.read?

/-- The values behind a slot, in the shape of its handle. -/
def view? (handles : TensorHandles) (memory : HostMemory) (slot : OutputRef) :
    Option Reference.View :=
  (handles.find? slot).bind memory.view?

variable {handles others : TensorHandles} {memory other : HostMemory}

theorem view?_congr {slot twin : OutputRef}
    (shapes : (others.find? twin).map (·.shape) = (handles.find? slot).map (·.shape))
    (same : others.contents other twin = handles.contents memory slot) :
    others.view? other twin = handles.view? memory slot := by
  simp only [contents, view?] at same ⊢
  cases found : handles.find? slot with
  | none =>
    rw [found] at shapes
    simp [Option.map_eq_none_iff.mp shapes]
  | some handle =>
    rw [found] at shapes same
    obtain ⟨held, foundTwin, sameShape⟩ := Option.map_eq_some_iff.mp shapes
    rw [foundTwin] at same ⊢
    simp only [Option.bind_some] at same ⊢
    simp only [HostMemory.view?, same, sameShape]

theorem Owned.of_sameSizes (owned : Owned handles memory) (same : other.SameSizes memory) :
    Owned handles other where
  held := by
    intro slot handle found
    obtain ⟨data, there, size⟩ := owned.held slot handle found
    have sizes := same handle
    rw [there] at sizes
    obtain ⟨now, nowThere, nowSize⟩ := Option.map_eq_some_iff.mp sizes
    exact ⟨now, nowThere, nowSize.trans size⟩
  storable := owned.storable
  distinct := owned.distinct

theorem Declared.shape (declared : handles.Declared graph) {slot : OutputRef}
    (there : graph.HasOutput slot) :
    (handles.find? slot).map (·.shape) = (graph.slotInfo? slot).map (·.shape) := by
  obtain ⟨info, handle, slotInfo, found, rfl⟩ := declared slot there
  simp [slotInfo, found, Handle.shape]

end TensorHandles

/-- In this memory the layer holds its value: slot by slot, what evaluation gives on the contents
of its sources and on its declared shapes. -/
def Layer.Computed (layer : Layer) (handles : TensorHandles) (memory : HostMemory) : Prop :=
  ∃ views shapes results,
    views.map some = layer.inputs.map (·.source.bind (handles.view? memory)) ∧
    Graph.declaredShapes layer = .ok shapes ∧
    Reference.evaluate layer.kind views shapes = .ok results ∧
    results.map some = (List.range' 0 layer.outputs.length).map fun index =>
      handles.contents memory ⟨layer.id, index⟩

namespace Loading.Bound

variable {graph : Graph} {handles : TensorHandles} {layer : Layer} {descriptor : QueueDescriptor}
  {info : WorkloadInfo} {memory : HostMemory}

/-- Views of the bound inputs are views of the sources. -/
theorem views_iff (bound : Bound graph handles layer descriptor info)
    {views : List Reference.View} :
    views.map some = descriptor.inputs.map memory.view? ↔
      views.map some = layer.inputs.map (·.source.bind (handles.view? memory)) := by
  have inputs := congrArg (List.map (·.bind memory.view?)) bound.inputs
  simp only [List.map_map, Function.comp_def, Option.bind_some, Option.bind_assoc] at inputs
  rw [inputs]
  rfl

/-- Where the results of a bound layer stand. -/
theorem contents_iff (bound : Bound graph handles layer descriptor info)
    {results : List (Array Float32)} :
    results.map some = descriptor.outputs.map memory.read? ↔
      results.map some = (List.range' 0 layer.outputs.length).map fun index =>
        handles.contents memory ⟨layer.id, index⟩ := by
  have outputs := congrArg (List.map (·.bind memory.read?)) bound.outputs
  simp only [List.map_map, Function.comp_def, Option.bind_some] at outputs
  rw [outputs]
  rfl

theorem exists_of_mem_outputs (bound : Bound graph handles layer descriptor info)
    {handle : Handle} (member : handle ∈ descriptor.outputs) :
    ∃ index, handles.find? ⟨layer.id, index⟩ = some handle := by
  have shown : some handle ∈ descriptor.outputs.map some := List.mem_map_of_mem member
  rw [bound.outputs] at shown
  obtain ⟨index, _, found⟩ := List.mem_map.mp shown
  exact ⟨index, found⟩

theorem exists_of_mem_inputs (bound : Bound graph handles layer descriptor info)
    {handle : Handle} (member : handle ∈ descriptor.inputs) :
    ∃ source, handles.find? source = some handle := by
  have shown : some handle ∈ descriptor.inputs.map some := List.mem_map_of_mem member
  rw [bound.inputs] at shown
  obtain ⟨slot, _, binds⟩ := List.mem_map.mp shown
  obtain ⟨source, _, found⟩ := Option.bind_eq_some_iff.mp binds
  exact ⟨source, found⟩

/-- No two outputs of a layer share a buffer. -/
theorem nodup_outputs (bound : Bound graph handles layer descriptor info)
    (owned : handles.Owned memory) : (descriptor.outputs.map (·.buffer)).Nodup := by
  have apart : ((List.range' 0 layer.outputs.length).map fun index =>
      handles.find? ⟨layer.id, index⟩).Pairwise fun first second =>
        ∀ left right, first = some left → second = some right → left.buffer ≠ right.buffer := by
    refine List.pairwise_map.mpr (List.Pairwise.imp ?_ List.nodup_range')
    intro first second different left right leftFound rightFound same
    have sameSlot := owned.distinct _ _ left right leftFound rightFound same
    simp only [OutputRef.mk.injEq, true_and] at sameSlot
    exact different sameSlot
  rw [← bound.outputs] at apart
  refine List.pairwise_map.mpr ((List.pairwise_map.mp apart).imp ?_)
  intro left right different
  exact different left right rfl rfl

/-- The outputs of a bound layer have the declared shapes. -/
theorem outputShapes (bound : Bound graph handles layer descriptor info)
    {inputs : List TensorInfo} {declared : List Shape}
    (passes : graph.Passes layer inputs declared) :
    descriptor.outputs.map (·.shape) = declared := by
  obtain ⟨_, _, same⟩ := QueueDescriptor.validate_eq_ok.mp bound.fits
  have declares := Graph.declaredShapes_eq_ok.mp passes.declares
  have shapes := congrArg (List.filterMap id) declares
  simp only [List.filterMap_map, Function.comp_def, id, List.filterMap_some] at shapes
  rw [same, bound.outputInfos, List.map_filterMap, shapes]

end Loading.Bound

namespace Layer

variable {layer : Layer} {handles : TensorHandles} {memory other : HostMemory}

theorem mem_producers_of_source {slot : InputSlot} {source : OutputRef}
    (member : slot ∈ layer.inputs) (reads : slot.source = some source) :
    source.layer ∈ layer.producers :=
  List.mem_filterMap.mpr ⟨slot, member, by simp [reads]⟩

/-- Views of sources whose contents stay are the same views. -/
theorem inputViews_congr
    (sources : ∀ source, source.layer ∈ layer.producers →
      handles.contents other source = handles.contents memory source) :
    layer.inputs.map (·.source.bind (handles.view? other)) =
      layer.inputs.map (·.source.bind (handles.view? memory)) := by
  apply List.map_congr_left
  intro slot member
  cases reads : slot.source with
  | none => rfl
  | some source =>
    exact TensorHandles.view?_congr rfl (sources source (mem_producers_of_source member reads))

/-- A layer stays computed while nothing writes its slots or those it reads. -/
theorem Computed.of_contents (computed : layer.Computed handles memory)
    (sources : ∀ source, source.layer ∈ layer.producers →
      handles.contents other source = handles.contents memory source)
    (own : ∀ index, handles.contents other ⟨layer.id, index⟩ =
      handles.contents memory ⟨layer.id, index⟩) : layer.Computed handles other := by
  obtain ⟨views, shapes, results, read, declared, evaluated, stand⟩ := computed
  refine ⟨views, shapes, results, ?_, declared, evaluated, ?_⟩
  · rw [inputViews_congr sources, read]
  · simpa only [own] using stand

end Layer

namespace Loading.Bound

variable {graph : Graph} {handles : TensorHandles} {layer : Layer} {descriptor : QueueDescriptor}
  {info : WorkloadInfo} {device final : Device}

/-- Results written to the outputs of a layer stand there, and no other slot changes. -/
theorem writeResults_stand (bound : Bound graph handles layer descriptor info)
    (owned : handles.Owned device.host) {results : List (Array Float32)}
    (fits : List.Forall₂ device.host.Fits descriptor.outputs results) :
    ∃ host, Reference.writeResults descriptor.outputs results device.host = (host, .ok ()) ∧
      host.SameSizes device.host ∧
      (∀ slot, slot.layer ≠ layer.id →
        handles.contents host slot = handles.contents device.host slot) ∧
      results.map some = (List.range' 0 layer.outputs.length).map fun index =>
        handles.contents host ⟨layer.id, index⟩ := by
  obtain ⟨host, written, sizes, stand, others⟩ :=
    Reference.writeResults_of_fits (bound.nodup_outputs owned) fits
  refine ⟨host, written, sizes, ?_, bound.contents_iff.mp stand⟩
  intro slot apart
  simp only [TensorHandles.contents]
  cases found : handles.find? slot with
  | none => rfl
  | some handle =>
    apply others handle
    intro shared
    obtain ⟨output, member, same⟩ := List.mem_map.mp shared
    obtain ⟨index, outputFound⟩ := bound.exists_of_mem_outputs member
    exact apart (congrArg (·.layer) (owned.distinct _ _ _ _ found outputFound same.symm))

/-- A successful run of a bound layer leaves the layer computed. -/
theorem computed_of_execute (bound : Bound graph handles layer descriptor info)
    (owned : handles.Owned device.host) {inputs : List TensorInfo} {declared : List Shape}
    (passes : graph.Passes layer inputs declared) (acyclic : layer.id ∉ layer.producers)
    (success : Reference.execute descriptor device = (final, .ok ())) :
    final.host.SameSizes device.host ∧
      (∀ slot, slot.layer ≠ layer.id →
        handles.contents final.host slot = handles.contents device.host slot) ∧
      layer.Computed handles final.host := by
  obtain ⟨views, results, host, read, evaluated, written, rfl⟩ :=
    Reference.execute_eq_ok.mp success
  rw [bound.kind, bound.outputShapes passes] at evaluated
  have lengths : descriptor.outputs.length = results.length := by
    rw [Reference.length_evaluate evaluated, ← bound.kind]
    exact (QueueDescriptor.validate_eq_ok.mp bound.fits).2.1
  obtain ⟨after, sameWrite, sizes, others, stand⟩ :=
    bound.writeResults_stand owned (Reference.fits_of_writeResults lengths written)
  obtain rfl : host = after := by
    rw [written] at sameWrite
    exact congrArg (·.1) sameWrite
  refine ⟨sizes, others, views, declared, results, ?_, passes.declares, evaluated, stand⟩
  rw [bound.views_iff.mp read]
  refine (Layer.inputViews_congr fun source reads => others source ?_).symm
  exact fun same => acyclic (same ▸ reads)

end Loading.Bound

namespace Network

open Loading

variable {graph : Graph} {handles : TensorHandles}

/-- The first workload runs, and then the others do. -/
theorem runEach_cons_eq_ok {entry : LoadedLayer} {entries ran : List LoadedLayer}
    {device final : Device} :
    runEach (entry :: entries) device = (final, .ok (), ran) ↔ ∃ middle later,
      entry.workload.execute device = (middle, .ok ()) ∧
      runEach entries middle = (final, .ok (), later) ∧ entry :: later = ran := by
  rw [runEach]
  cases executed : entry.workload.execute device with
  | mk middle outcome =>
    cases outcome with
    | error error => simp
    | ok _ => simp [Prod.ext_iff, and_assoc]

/-- A stretch of a schedule has run: its operation layers are computed, and it contains all that
they read. -/
structure Settled (graph : Graph) (handles : TensorHandles) (memory : HostMemory)
    (done : List LayerId) : Prop where
  closed : ∀ id ∈ done, ∀ layer, graph.find? id = some layer →
    ∀ producer ∈ layer.producers, producer ∈ done
  computed : ∀ id ∈ done, ∀ layer, graph.find? id = some layer →
    layer.kind.isBinding = false → layer.Computed handles memory

namespace Settled

variable {memory after : HostMemory} {done : List LayerId} {id : LayerId} {layer : Layer}

theorem nil (graph : Graph) (handles : TensorHandles) (memory : HostMemory) :
    Settled graph handles memory [] := ⟨by simp, by simp⟩

/-- A layer whose sources are settled settles once it is computed. -/
theorem cons (settled : Settled graph handles memory done) (found : graph.find? id = some layer)
    (ready : ∀ producer ∈ layer.producers, producer ∈ done) (fresh : id ∉ done)
    (others : ∀ slot, slot.layer ≠ id → handles.contents after slot = handles.contents memory slot)
    (computed : layer.kind.isBinding = false → layer.Computed handles after) :
    Settled graph handles after (id :: done) where
  closed := by
    intro other member holder stored producer reads
    rcases List.mem_cons.mp member with rfl | old
    · rw [found] at stored
      cases stored
      exact List.mem_cons_of_mem _ (ready producer reads)
    · exact List.mem_cons_of_mem _ (settled.closed other old holder stored producer reads)
  computed := by
    intro other member holder stored operation
    rcases List.mem_cons.mp member with rfl | old
    · rw [found] at stored
      cases stored
      exact computed operation
    · have sameId : holder.id = other := Graph.id_of_find? stored
      refine (settled.computed other old holder stored operation).of_contents ?_ ?_
      · intro source reads
        refine others source fun same => fresh ?_
        exact same ▸ settled.closed other old holder stored _ reads
      · intro index
        exact others _ fun same : holder.id = id => fresh (same ▸ sameId ▸ old)

end Settled

private theorem fresh_cons {id : LayerId} {order done : List LayerId}
    (distinct : (id :: order).Nodup) (fresh : ∀ other ∈ id :: order, other ∉ done) :
    ∀ other ∈ order, other ∉ id :: done := by
  intro other later
  rw [List.mem_cons, not_or]
  exact ⟨fun same => (List.nodup_cons.mp distinct).1 (same ▸ later),
    fresh other (List.mem_cons_of_mem _ later)⟩

/-- The contents of a slot that no operation layer fills survive every run, and a run of a whole
schedule computes every operation layer on it. -/
theorem runEach_settles {order done : List LayerId} {before after device final : Device}
    {loaded ran : List LoadedLayer}
    (compiles : Compiles graph Reference.registry handles order before loaded after)
    (schedule : graph.Schedule done order) (distinct : order.Nodup)
    (fresh : ∀ id ∈ order, id ∉ done)
    (passes : ∀ layer ∈ graph.layers, ∃ inputs declared, graph.Passes layer inputs declared)
    (owned : handles.Owned device.host) (settled : Settled graph handles device.host done)
    (success : runEach loaded device = (final, .ok (), ran)) :
    final.host.SameSizes device.host ∧
      (∀ slot, (∀ layer, graph.find? slot.layer = some layer → layer.kind.isBinding = true) →
        handles.contents final.host slot = handles.contents device.host slot) ∧
      Settled graph handles final.host (order.reverse ++ done) := by
  induction compiles generalizing done device ran with
  | nil =>
    simp only [runEach, Prod.mk.injEq, true_and] at success
    obtain ⟨rfl, _⟩ := success
    exact ⟨.refl _, fun _ _ => rfl, settled⟩
  | binding found binds rest ih =>
    cases schedule with
    | cons again ready scheduleRest =>
      rw [found] at again
      cases again
      have settledNext := settled.cons found ready (fresh _ List.mem_cons_self)
        (fun _ _ => rfl) (fun operation => absurd (binds.symm.trans operation) (by simp))
      obtain ⟨sizes, kept, done⟩ := ih scheduleRest (List.nodup_cons.mp distinct).2
        (fresh_cons distinct fresh) owned settledNext success
      exact ⟨sizes, kept, by simpa using done⟩
  | @operation id _ layer _ _ _ _ descriptor info backend workload found bound member supported
      created rest ih =>
    cases schedule with
    | cons again ready scheduleRest =>
      rw [found] at again
      cases again
      obtain rfl := Reference.mem_registry.mp member
      obtain ⟨rfl, runs⟩ := Reference.create_eq_ok created
      have sameId : layer.id = id := Graph.id_of_find? found
      obtain ⟨inputs, declared, pass⟩ := passes layer (Graph.mem_of_find? found)
      have acyclic : layer.id ∉ layer.producers := fun reads =>
        fresh id List.mem_cons_self (sameId ▸ ready _ reads)
      obtain ⟨middle, _, executed, later, _⟩ := runEach_cons_eq_ok.mp success
      obtain ⟨sizesFirst, others, computed⟩ :=
        bound.computed_of_execute owned pass acyclic (runs ▸ executed)
      rw [sameId] at others
      have settledNext := settled.cons found ready (fresh _ List.mem_cons_self) others
        fun _ => computed
      obtain ⟨sizes, kept, done⟩ := ih scheduleRest (List.nodup_cons.mp distinct).2
        (fresh_cons distinct fresh) (owned.of_sameSizes sizesFirst) settledNext later
      refine ⟨sizes.trans sizesFirst, ?_, by simpa using done⟩
      intro slot binds
      rw [kept slot binds]
      apply others slot
      intro same
      rw [same] at binds
      exact absurd (bound.operation.symm.trans (binds layer found)) (by simp)

end Network

end NeuralGraph
