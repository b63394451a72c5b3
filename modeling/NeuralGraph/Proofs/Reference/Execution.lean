import NeuralGraph.Proofs.Memory.Host
import NeuralGraph.Proofs.Outcome
import NeuralGraph.Reference.Backend

/-! One run of a reference workload: it reads its inputs, evaluates its layer, and succeeds when
every result fits the buffer that it is written to. -/

namespace NeuralGraph

/-- The values behind a handle, in the shape of the handle. -/
def HostMemory.view? (memory : HostMemory) (handle : Handle) : Option Reference.View :=
  (memory.read? handle).map fun data => { shape := handle.shape, data }

/-- Memory that a descriptor can run on: its inputs hold all of their values, and each of its
outputs has a buffer of its own. -/
structure QueueDescriptor.Ready (descriptor : QueueDescriptor) (memory : HostMemory) : Prop where
  inputs : ∀ handle ∈ descriptor.inputs, ∃ data,
    memory.read? handle = some data ∧ data.size = handle.info.elementCount
  outputs : (descriptor.outputs.map (·.buffer)).Nodup

namespace Reference

variable {memory after : HostMemory}

theorem readView_eq_ok {handle : Handle} {view : View} :
    readView memory handle = .ok view ↔ memory.view? handle = some view := by
  unfold readView HostMemory.view?
  cases memory.read? handle <;> simp

theorem readViews_eq_ok {handles : List Handle} {views : List View} :
    handles.mapM (readView memory) = .ok views ↔ views.map some = handles.map memory.view? := by
  have same : ∀ view handle, Except.ok view = readView memory handle ↔
      some view = memory.view? handle := fun view handle => by
    rw [eq_comm, readView_eq_ok, eq_comm]
  rw [mapM_eq_ok]
  simp only [← List.forall₂_eq_eq_eq, List.forall₂_map_left_iff, List.forall₂_map_right_iff, same]

theorem fits_of_writeResults {handles : List Handle} {results : List (Array Float32)}
    (lengths : handles.length = results.length)
    (success : writeResults handles results memory = (after, .ok ())) :
    List.Forall₂ memory.Fits handles results := by
  induction handles generalizing results memory with
  | nil =>
    rw [List.eq_nil_of_length_eq_zero lengths.symm]
    exact .nil
  | cons handle handles ih =>
    cases results with
    | nil => simp at lengths
    | cons data results =>
      simp only [writeResults] at success
      cases copied : memory.copyFrom handle data with
      | error error => simp [copied] at success
      | ok written =>
        simp only [copied] at success
        obtain ⟨fits, rfl⟩ := HostMemory.copyFrom_eq_ok.mp copied
        refine .cons fits ((ih (by simpa using lengths) success).imp ?_)
        exact fun _ _ later => later.of_sameSizes (HostMemory.sameSizes_replace fits).symm

theorem writeResults_eq_replaceEach {handles : List Handle} {results : List (Array Float32)}
    (fits : List.Forall₂ memory.Fits handles results) :
    writeResults handles results memory = (memory.replaceEach (handles.zip results), .ok ()) := by
  induction handles generalizing results memory with
  | nil =>
    cases fits
    rfl
  | cons handle handles ih =>
    cases fits with
    | cons head rest =>
      have sizes := HostMemory.sameSizes_replace head
      rw [writeResults, HostMemory.copyFrom_eq_ok.mpr ⟨head, rfl⟩]
      exact ih (rest.imp fun _ _ fit => fit.of_sameSizes sizes)

/-- Results that fit are all written, and nothing else changes. -/
theorem writeResults_of_fits {handles : List Handle} {results : List (Array Float32)}
    (distinct : (handles.map (·.buffer)).Nodup)
    (fits : List.Forall₂ memory.Fits handles results) :
    ∃ after, writeResults handles results memory = (after, .ok ()) ∧
      after.SameSizes memory ∧
      results.map some = handles.map after.read? ∧
      ∀ other, other.buffer ∉ handles.map (·.buffer) →
        after.read? other = memory.read? other := by
  induction handles generalizing results memory with
  | nil =>
    cases fits
    exact ⟨memory, rfl, .refl memory, rfl, fun _ _ => rfl⟩
  | cons handle handles ih =>
    cases fits with
    | @cons _ data _ results head rest =>
      obtain ⟨notLater, distinctRest⟩ := List.nodup_cons.mp distinct
      have sizes := HostMemory.sameSizes_replace head
      obtain ⟨after, written, same, read, others⟩ :=
        ih distinctRest (rest.imp fun _ _ fit => fit.of_sameSizes sizes)
      have first : after.read? handle = some data := by
        rw [others handle notLater, HostMemory.read?_replace head, if_pos rfl]
      refine ⟨after, ?_, same.trans sizes, by simp [first, read], ?_⟩
      · rw [writeResults, HostMemory.copyFrom_eq_ok.mpr ⟨head, rfl⟩]
        exact written
      · intro other outside
        simp only [List.map_cons, List.mem_cons, not_or] at outside
        rw [others other outside.2, HostMemory.read?_replace head, if_neg outside.1]

/-- Results of the expected sizes fit full buffers. -/
theorem fits_of_sizes {handles : List Handle} {results : List (Array Float32)}
    (held : ∀ handle ∈ handles, ∃ data,
      memory.read? handle = some data ∧ data.size = handle.info.elementCount)
    (sizes : List.Forall₂ (fun data shape => data.size = shape.elementCount) results
      (handles.map (·.shape))) : List.Forall₂ memory.Fits handles results := by
  refine ((List.forall₂_and_left _ _).mpr
    ⟨held, (List.forall₂_map_right_iff.mp sizes).flip⟩).imp ?_
  rintro handle data ⟨⟨held, read, size⟩, same⟩
  exact ⟨held, read, same.trans size.symm⟩

section Evaluate

variable {view a b input outputState cellState : View} {out : Shape} {shapes : List Shape}
  {weights : Constant} {bias : Option Constant} {results : List (Array Float32)}

theorem single_eq_ok {computed : Except Error (Array Float32)} :
    (do return [← computed]) = .ok results ↔ ∃ data, computed = .ok data ∧ [data] = results := by
  rw [bind_eq_ok]
  simp only [pure_eq_ok]

theorem evaluate_softmax_eq_ok {beta : Float32} :
    evaluate (.softmax beta) [view] shapes = .ok results ↔
      ∃ data, softmax beta view = .ok data ∧ [data] = results :=
  single_eq_ok

theorem evaluate_addition_eq_ok :
    evaluate .addition [a, b] [out] = .ok results ↔
      ∃ data, addition a b out = .ok data ∧ [data] = results :=
  single_eq_ok

theorem evaluate_fullyConnected_eq_ok {dense : Dense} :
    evaluate (.fullyConnected dense weights bias) [view] shapes = .ok results ↔
      ∃ data, fullyConnected dense view weights bias = .ok data ∧ [data] = results :=
  single_eq_ok

theorem evaluate_convolution2d_eq_ok {convolution : Convolution} :
    evaluate (.convolution2d convolution weights bias) [view] [out] = .ok results ↔
      ∃ data, convolution2d convolution view weights bias out = .ok data ∧ [data] = results :=
  single_eq_ok

theorem evaluate_pooling2d_eq_ok {pooling : Pooling} :
    evaluate (.pooling2d pooling) [view] [out] = .ok results ↔
      ∃ data, pooling2d pooling view out = .ok data ∧ [data] = results :=
  single_eq_ok

theorem evaluate_lstm_eq_ok {cell : Lstm.Cell} {params : Lstm.Params} :
    evaluate (.lstm cell params) [input, outputState, cellState] shapes = .ok results ↔
      ∃ activation result, Lstm.Activation.ofCode cell.activationCode = .ok activation ∧
        lstm cell params activation input outputState cellState = .ok result ∧
        [result.scratch, result.outputState, result.cellState, result.output] = results := by
  simp only [evaluate, requireInput, List.getElem?_cons_zero, List.getElem?_cons_succ, bind_ok,
    bind_eq_ok, pure_eq_ok, exists_and_left]

end Evaluate

/-- Evaluation gives one buffer for each output slot of the kind. -/
theorem length_evaluate {kind : LayerKind} {views : List View} {shapes : List Shape}
    {results : List (Array Float32)} (evaluated : evaluate kind views shapes = .ok results) :
    results.length = kind.outputCount := by
  have single : ∀ {computed : Except Error (Array Float32)},
      (do return [← computed]) = .ok results → results.length = 1 := by
    intro computed gives
    obtain ⟨data, _, rfl⟩ := single_eq_ok.mp gives
    rfl
  cases kind with
  | input _ => cases evaluated
  | output _ => cases evaluated
  | activation curve =>
    obtain ⟨_, _, same⟩ := bind_eq_ok.mp evaluated
    rw [← pure_eq_ok.mp same]
    rfl
  | softmax beta =>
    obtain ⟨_, _, rest⟩ := bind_eq_ok.mp evaluated
    exact single rest
  | addition =>
    obtain ⟨_, _, rest⟩ := bind_eq_ok.mp evaluated
    obtain ⟨_, _, rest⟩ := bind_eq_ok.mp rest
    obtain ⟨_, _, rest⟩ := bind_eq_ok.mp rest
    exact single rest
  | fullyConnected dense weights bias =>
    obtain ⟨_, _, rest⟩ := bind_eq_ok.mp evaluated
    exact single rest
  | convolution2d convolution weights bias =>
    obtain ⟨_, _, rest⟩ := bind_eq_ok.mp evaluated
    obtain ⟨_, _, rest⟩ := bind_eq_ok.mp rest
    exact single rest
  | pooling2d pooling =>
    obtain ⟨_, _, rest⟩ := bind_eq_ok.mp evaluated
    obtain ⟨_, _, rest⟩ := bind_eq_ok.mp rest
    exact single rest
  | lstm cell params =>
    obtain ⟨_, _, rest⟩ := bind_eq_ok.mp evaluated
    obtain ⟨_, _, rest⟩ := bind_eq_ok.mp rest
    obtain ⟨_, _, rest⟩ := bind_eq_ok.mp rest
    obtain ⟨_, _, rest⟩ := bind_eq_ok.mp rest
    obtain ⟨_, _, same⟩ := bind_eq_ok.mp rest
    rw [← pure_eq_ok.mp same]
    rfl

theorem execute_eq_ok {descriptor : QueueDescriptor} {device final : Device} :
    execute descriptor device = (final, .ok ()) ↔ ∃ views results host,
      views.map some = descriptor.inputs.map device.host.view? ∧
      evaluate descriptor.kind views (descriptor.outputs.map (·.shape)) = .ok results ∧
      writeResults descriptor.outputs results device.host = (host, .ok ()) ∧
      final = { device with host } := by
  have computes : ∀ results, (do
      let inputs ← descriptor.inputs.mapM (readView device.host)
      evaluate descriptor.kind inputs (descriptor.outputs.map (·.shape)) :
        Except Error (List (Array Float32))) = .ok results ↔
      ∃ views, views.map some = descriptor.inputs.map device.host.view? ∧
        evaluate descriptor.kind views (descriptor.outputs.map (·.shape)) = .ok results := by
    intro results
    simp only [bind_eq_ok, readViews_eq_ok]
  unfold execute
  constructor
  · intro success
    dsimp only at success
    split at success
    · cases success
    · rename_i results computed
      obtain ⟨views, read, evaluated⟩ := (computes results).mp computed
      cases written : writeResults descriptor.outputs results device.host with
      | mk host outcome =>
        simp only [written, Prod.mk.injEq] at success
        obtain ⟨rfl, rfl⟩ := success
        exact ⟨views, results, host, read, evaluated, written, rfl⟩
  · rintro ⟨views, results, host, read, evaluated, written, rfl⟩
    simp only [(computes results).mpr ⟨views, read, evaluated⟩, written]

theorem mem_registry {candidate : Backend} :
    candidate ∈ registry.backends ↔ candidate = backend := by
  simp [registry, Registry.empty, Registry.register, Registry.find?]

/-- A reference workload executes its descriptor; building it leaves the device alone. -/
theorem create_eq_ok {descriptor : QueueDescriptor} {info : WorkloadInfo} {device next : Device}
    {workload : Workload} (created : backend.create descriptor info device = (next, .ok workload)) :
    next = device ∧ workload.execute = execute descriptor := by
  obtain ⟨rfl, built⟩ : device = next ∧ build descriptor info = .ok workload := by
    simpa [backend] using created
  refine ⟨rfl, ?_⟩
  obtain ⟨_, bound⟩ := seq_eq_ok.mp built
  split at bound
  · obtain ⟨_, _, bound⟩ := bind_eq_ok.mp bound
    obtain ⟨_, bound⟩ := seq_eq_ok.mp bound
    rw [← pure_eq_ok.mp bound]
  · obtain ⟨_, bound⟩ := seq_eq_ok.mp bound
    rw [← pure_eq_ok.mp bound]

end Reference

end NeuralGraph
