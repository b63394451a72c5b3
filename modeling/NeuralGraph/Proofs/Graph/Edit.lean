import NeuralGraph.Proofs.Graph.Reachability
import NeuralGraph.Proofs.Outcome

/-! When each edit is accepted, and which graph it then gives. -/

namespace NeuralGraph.Graph

variable {graph : Graph}

/-- Opens a lookup at the start of an edit. -/
theorem get_bind_eq_ok {α : Type} {id : LayerId} {next : Layer → Except Error α} {result : α} :
    (do next (← graph.get id)) = .ok result ↔
      ∃ layer, graph.find? id = some layer ∧ next layer = .ok result := by
  rw [bind_eq_ok]
  simp only [get_eq_ok]

theorem checkSpliceable_eq_ok {kind : LayerKind} :
    checkSpliceable kind = .ok () ↔ kind.inputCount = 1 ∧ kind.outputCount = 1 := by
  unfold checkSpliceable
  split <;> simp_all

theorem connect_eq_ok {source : OutputRef} {target : InputRef} {after : Graph} :
    graph.connect source target = .ok after ↔
      graph.HasOutput source ∧ graph.HasInput target ∧ graph.sourceOf? target = none ∧
        graph.reaches target.layer source.layer = false ∧ after = graph.link source target := by
  unfold connect
  rw [get_bind_eq_ok]
  constructor
  · rintro ⟨producer, producerFound, checked⟩
    by_cases outside : producer.outputs.length ≤ source.index
    · simp [outside, throw_bind_ne_ok] at checked
    · rw [if_neg outside] at checked
      obtain ⟨consumer, consumerFound, accepted⟩ := get_bind_eq_ok.mp checked
      cases slot : consumer.inputs[target.index]? with
      | none => simp [slot, throw_ne_ok] at accepted
      | some input =>
        obtain ⟨inside, _⟩ := List.getElem?_eq_some_iff.mp slot
        cases taken : input.source with
        | some existing =>
          simp [slot, taken, throw_bind_ne_ok] at accepted
        | none =>
          cases path : graph.reaches target.layer source.layer with
          | true =>
            simp only [slot, taken, path, ↓reduceIte, throw_bind_ne_ok] at accepted
          | false =>
            refine ⟨⟨producer, producerFound, by omega⟩, ⟨consumer, consumerFound, inside⟩, ?_,
              rfl, ?_⟩
            · simp [sourceOf?_of_find? consumerFound, Layer.source?, slot, taken]
            · simpa [slot, taken, path, pure, Except.pure, bind, Except.bind, eq_comm]
                using accepted
  · rintro ⟨⟨producer, producerFound, inside⟩, ⟨consumer, consumerFound, slotInside⟩, free, path,
      rfl⟩
    refine ⟨producer, producerFound, ?_⟩
    rw [if_neg (by omega)]
    refine get_bind_eq_ok.mpr ⟨consumer, consumerFound, ?_⟩
    have slot : consumer.inputs[target.index]? = some consumer.inputs[target.index] :=
      List.getElem?_eq_getElem slotInside
    have unconnected : consumer.inputs[target.index].source = none := by
      simpa [sourceOf?_of_find? consumerFound, Layer.source?, slot] using free
    simp [slot, unconnected, path, pure, Except.pure]

theorem disconnect_eq_ok {source : OutputRef} {target : InputRef} {after : Graph} :
    graph.disconnect target = .ok (source, after) ↔
      graph.sourceOf? target = some source ∧ after = graph.unlink source target := by
  unfold disconnect
  rw [get_bind_eq_ok]
  constructor
  · rintro ⟨consumer, found, accepted⟩
    cases reads : consumer.source? target.index with
    | none => simp [reads, throw_ne_ok] at accepted
    | some existing =>
      simp only [reads, pure, Except.pure, Except.ok.injEq, Prod.mk.injEq] at accepted
      obtain ⟨rfl, rfl⟩ := accepted
      exact ⟨by rw [sourceOf?_of_find? found, reads], rfl⟩
  · rintro ⟨reads, rfl⟩
    obtain ⟨consumer, found, slot⟩ := Option.bind_eq_some_iff.mp reads
    exact ⟨consumer, found, by simp [slot, pure, Except.pure]⟩

/-- The graph without the layers of one id, whatever edges they have. -/
def without (graph : Graph) (id : LayerId) : Graph :=
  { graph with layers := graph.layers.filter (·.id ≠ id) }

theorem remove_eq_ok {id : LayerId} {removed : Layer} {after : Graph} :
    graph.remove id = .ok (removed, after) ↔ ∃ layer, graph.find? id = some layer ∧
      layer.consumers = [] ∧ (graph.unlinkInputs id 0 layer.inputs).find? id = some removed ∧
      after = (graph.unlinkInputs id 0 layer.inputs).without id := by
  unfold remove
  rw [get_bind_eq_ok]
  refine exists_congr fun layer => and_congr_right fun _ => ?_
  by_cases unread : layer.consumers = []
  · simp only [unread, ne_eq, not_true_eq_false, ↓reduceIte, true_and]
    refine get_bind_eq_ok.trans ?_
    simp only [pure, Except.pure, Except.ok.injEq, Prod.mk.injEq]
    constructor
    · rintro ⟨_, found, rfl, rfl⟩
      exact ⟨found, rfl⟩
    · rintro ⟨found, rfl⟩
      exact ⟨removed, found, rfl, rfl⟩
  · simp [unread, throw_bind_ne_ok]

theorem replace_eq_ok {id : LayerId} {kind old : LayerKind} {after : Graph} :
    graph.replace id kind = .ok (old, after) ↔ ∃ layer, graph.find? id = some layer ∧
      kind.inputCount = layer.inputs.length ∧ kind.outputCount = layer.outputs.length ∧
      old = layer.kind ∧ after = graph.editKind id fun _ => kind := by
  unfold replace
  rw [get_bind_eq_ok]
  refine exists_congr fun layer => and_congr_right fun _ => ?_
  by_cases fits : kind.inputCount = layer.inputs.length ∧ kind.outputCount = layer.outputs.length
  · simp [fits, pure, Except.pure, eq_comm]
  · rw [if_pos (by tauto)]
    constructor
    · intro accepted
      exact absurd accepted throw_bind_ne_ok
    · rintro ⟨inputs, outputs, _⟩
      exact absurd ⟨inputs, outputs⟩ fits

theorem cloneInto_eq_ok {target after : Graph} {id fresh : LayerId} :
    graph.cloneInto id target = .ok (fresh, after) ↔ ∃ layer, graph.find? id = some layer ∧
      target.addLayer layer.kind layer.name = (fresh, after) := by
  unfold cloneInto
  rw [get_bind_eq_ok]
  simp [pure, Except.pure]

/-- The graph in which the layer to be spliced in stands, without edges, before its anchor. -/
def placedBefore (graph : Graph) (anchor : LayerId) (kind : LayerKind) (name : String)
    (info : Option TensorInfo) : Graph where
  layers := placeBefore anchor ((Layer.new graph.nextId kind name).withInfo 0 info) graph.layers
  nextId := graph.nextId + 1

/-- The graph in which the layer to be spliced in stands, without edges, behind its anchor. -/
def placedAfter (graph : Graph) (anchor : LayerId) (kind : LayerKind) (name : String)
    (info : Option TensorInfo) : Graph where
  layers := placeAfter anchor ((Layer.new graph.nextId kind name).withInfo 0 info) graph.layers
  nextId := graph.nextId + 1

theorem insertBefore_eq_ok {target : InputRef} {kind : LayerKind} {name : String} {id : LayerId}
    {after : Graph} :
    graph.insertBefore target kind name = .ok (id, after) ↔
      (kind.inputCount = 1 ∧ kind.outputCount = 1) ∧ ∃ source,
        graph.sourceOf? target = some source ∧ id = graph.nextId ∧
        after = (((graph.placedBefore target.layer kind name (graph.slotInfo? source)).unlink
          source target).link source ⟨id, 0⟩).link ⟨id, 0⟩ target := by
  unfold insertBefore
  cases spliceable : checkSpliceable kind with
  | error error =>
    have refused : ¬(kind.inputCount = 1 ∧ kind.outputCount = 1) := by
      rw [← checkSpliceable_eq_ok, spliceable]
      simp
    simp [bind, Except.bind, refused]
  | ok _ =>
    have fits := checkSpliceable_eq_ok.mp spliceable
    simp only [fits, and_self, true_and]
    refine get_bind_eq_ok.trans ?_
    constructor
    · rintro ⟨consumer, found, accepted⟩
      cases reads : consumer.source? target.index with
      | none => simp [reads, throw_ne_ok] at accepted
      | some source =>
        simp only [reads, pure, Except.pure, Except.ok.injEq, Prod.mk.injEq] at accepted
        obtain ⟨rfl, rfl⟩ := accepted
        exact ⟨source, by rw [sourceOf?_of_find? found, reads], rfl, rfl⟩
    · rintro ⟨source, reads, rfl, rfl⟩
      obtain ⟨consumer, found, slot⟩ := Option.bind_eq_some_iff.mp reads
      refine ⟨consumer, found, ?_⟩
      simp only [slot]
      rfl

theorem insertAfter_eq_ok {source : OutputRef} {kind : LayerKind} {name : String} {id : LayerId}
    {after : Graph} :
    graph.insertAfter source kind name = .ok (id, after) ↔
      (kind.inputCount = 1 ∧ kind.outputCount = 1) ∧ graph.HasOutput source ∧
        id = graph.nextId ∧
        after = ((graph.placedAfter source.layer kind name (graph.slotInfo? source)).moveConsumers
          source ⟨id, 0⟩ (graph.readersOf source)).link source ⟨id, 0⟩ := by
  unfold insertAfter
  cases spliceable : checkSpliceable kind with
  | error error =>
    have refused : ¬(kind.inputCount = 1 ∧ kind.outputCount = 1) := by
      rw [← checkSpliceable_eq_ok, spliceable]
      simp
    simp [bind, Except.bind, refused]
  | ok _ =>
    have fits := checkSpliceable_eq_ok.mp spliceable
    simp only [fits, and_self, true_and]
    refine get_bind_eq_ok.trans ?_
    constructor
    · rintro ⟨producer, found, accepted⟩
      cases slot : producer.outputs[source.index]? with
      | none => simp [slot, throw_ne_ok] at accepted
      | some output =>
        obtain ⟨inside, _⟩ := List.getElem?_eq_some_iff.mp slot
        simp only [slot, pure, Except.pure, Except.ok.injEq, Prod.mk.injEq] at accepted
        obtain ⟨rfl, rfl⟩ := accepted
        refine ⟨⟨producer, found, inside⟩, rfl, ?_⟩
        simp [slotInfo?, readersOf, Layer.readers, found, slot, placedAfter]
    · rintro ⟨⟨producer, found, inside⟩, rfl, rfl⟩
      have slot : producer.outputs[source.index]? = some producer.outputs[source.index] :=
        List.getElem?_eq_getElem inside
      refine ⟨producer, found, ?_⟩
      simp [slotInfo?, readersOf, Layer.readers, found, slot, placedAfter, pure, Except.pure]

theorem setInfo_eq_ok {slot : OutputRef} {info : TensorInfo} {after : Graph} :
    graph.setInfo slot info = .ok after ↔ graph.HasOutput slot ∧
      after = ((graph.readersOf slot).map (·.layer)).foldl reset
        ((graph.modify slot.layer (·.withInfo slot.index (some info))).reset slot.layer) := by
  unfold setInfo
  refine get_bind_eq_ok.trans ?_
  constructor
  · rintro ⟨producer, found, accepted⟩
    cases there : producer.outputs[slot.index]? with
    | none => simp [there, throw_ne_ok] at accepted
    | some output =>
      obtain ⟨inside, _⟩ := List.getElem?_eq_some_iff.mp there
      simp only [there, pure, Except.pure, Except.ok.injEq] at accepted
      refine ⟨⟨producer, found, inside⟩, ?_⟩
      simp [← accepted, readersOf, Layer.readers, found, there]
  · rintro ⟨⟨producer, found, inside⟩, rfl⟩
    have there : producer.outputs[slot.index]? = some producer.outputs[slot.index] :=
      List.getElem?_eq_getElem inside
    refine ⟨producer, found, ?_⟩
    simp [readersOf, Layer.readers, found, there, pure, Except.pure]

end NeuralGraph.Graph
