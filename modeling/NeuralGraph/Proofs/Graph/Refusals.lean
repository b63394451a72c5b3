import NeuralGraph.Proofs.Graph.InPlace
import NeuralGraph.Proofs.Graph.Slots

/-! When a structural edit is refused, and that a refusal leaves no trace. -/

namespace NeuralGraph

open InPlace

namespace Graph

variable {graph : Graph} {α : Type}

/-- An edit in place that does what the edit of the graph does, that fails just when it is refused,
and that then leaves everything as it was, without an access out of bounds on the way. -/
structure AllOrNothing (graph : Graph) (edit : InPlace α) (edited : Except Error (α × Graph))
    (refused : Prop) : Prop where
  settles : graph.Settles edit edited
  fails : (∃ error store, edit.run graph.store = .error error store) ↔ refused
  restores : ∀ error store, edit.run graph.store = .error error store →
    store = graph.store ∧ error ≠ .outOfBounds

theorem AllOrNothing.of_settles {edit : InPlace α} {edited : Except Error (α × Graph)}
    {refused : Prop} (settles : graph.Settles edit edited)
    (accepted : (∃ result, edited = .ok result) ↔ ¬refused)
    (inBounds : Avoids (· = .outOfBounds) edited) : graph.AllOrNothing edit edited refused := by
  cases edited with
  | ok result =>
    have passes : ¬refused := accepted.mp ⟨result, rfl⟩
    have ran : edit.run graph.store = .ok result.1 result.2.store := settles
    exact ⟨settles, by simp [ran, passes], by simp [ran]⟩
  | error error =>
    have refuses : refused := by_contra fun passes => by simpa using accepted.mpr passes
    have ran : edit.run graph.store = .error error graph.store := settles
    refine ⟨settles, by simp [ran, refuses], fun _ _ failed => ?_⟩
    cases ran.symm.trans failed
    exact ⟨rfl, inBounds.spares error rfl⟩

theorem exists_map_eq_ok {edited : Except Error Graph} :
    (∃ result, (((), ·) <$> edited : Except Error (Unit × Graph)) = .ok result) ↔
      ∃ after, edited = .ok after := by
  cases edited <;> simp [Functor.map, Except.map]

theorem disconnect_accepted {target : InputRef} :
    (∃ result, graph.disconnect target = .ok result) ↔
      ¬(¬graph.HasInput target ∨ graph.sourceOf? target = none) := by
  simp only [Prod.exists, disconnect_eq_ok]
  cases reads : graph.sourceOf? target with
  | none => simp
  | some source => simp [HasInput.of_sourceOf? reads]

/-- What nothing reads has no edge out of it, on either side. -/
theorem Wired.consumers_eq_nil_iff (wired : graph.Wired) {id : LayerId} {layer : Layer}
    (found : graph.find? id = some layer) :
    layer.consumers = [] ↔ ¬∃ reader source, graph.sourceOf? reader = some source ∧
      source.layer = id := by
  rw [List.eq_nil_iff_forall_not_mem]
  constructor
  · rintro unread ⟨reader, ⟨_, index⟩, reads, rfl⟩
    have member := wired.mem_readersOf.mpr reads
    rw [readersOf_of_find? found] at member
    exact unread reader (Layer.mem_consumers.mpr ⟨index, member⟩)
  · intro unread reader member
    obtain ⟨index, there⟩ := Layer.mem_consumers.mp member
    have same : graph.readersOf ⟨id, index⟩ = layer.readers index := readersOf_of_find? found
    rw [← same] at there
    exact unread ⟨reader, ⟨id, index⟩, wired.mem_readersOf.mp there, rfl⟩

theorem Wired.remove_accepted (wired : graph.Wired) {id : LayerId} :
    (∃ result, graph.remove id = .ok result) ↔
      ¬(graph.find? id = none ∨
        ∃ reader source, graph.sourceOf? reader = some source ∧ source.layer = id) := by
  simp only [Prod.exists, remove_eq_ok]
  cases found : graph.find? id with
  | none => simp
  | some layer =>
    have stored : id ∈ (graph.unlinkInputs id 0 layer.inputs).ids := by
      simpa using mem_ids_of_find? found
    obtain ⟨removed, there⟩ := exists_find? stored
    simp [wired.consumers_eq_nil_iff found, there]

theorem replace_accepted {id : LayerId} {kind : LayerKind} :
    (∃ result, graph.replace id kind = .ok result) ↔
      ¬(graph.find? id = none ∨
        ∃ layer, graph.find? id = some layer ∧ kind.slotCounts ≠ layer.slotCounts) := by
  simp only [Prod.exists, replace_eq_ok]
  cases found : graph.find? id with
  | none => simp
  | some layer => simp [LayerKind.slotCounts, Layer.slotCounts]

theorem cloneInto_accepted {target : Graph} {id : LayerId} :
    (∃ result, graph.cloneInto id target = .ok result) ↔ ¬graph.find? id = none := by
  simp only [Prod.exists, cloneInto_eq_ok]
  cases graph.find? id <;> simp [addLayer]

theorem insertBefore_accepted {target : InputRef} {kind : LayerKind} {name : String} :
    (∃ result, graph.insertBefore target kind name = .ok result) ↔
      ¬(kind.slotCounts ≠ (1, 1) ∨ ¬graph.HasInput target ∨ graph.sourceOf? target = none) := by
  simp only [Prod.exists, insertBefore_eq_ok]
  cases reads : graph.sourceOf? target with
  | none => simp
  | some source => simp [HasInput.of_sourceOf? reads, LayerKind.slotCounts]

theorem insertAfter_accepted {source : OutputRef} {kind : LayerKind} {name : String} :
    (∃ result, graph.insertAfter source kind name = .ok result) ↔
      ¬(kind.slotCounts ≠ (1, 1) ∨ ¬graph.HasOutput source) := by
  simp only [Prod.exists, insertAfter_eq_ok]
  simp [LayerKind.slotCounts]

theorem setInfo_accepted {slot : OutputRef} {info : TensorInfo} :
    (∃ after, graph.setInfo slot info = .ok after) ↔ ¬¬graph.HasOutput slot := by
  simp [setInfo_eq_ok]

theorem connect_accepted {source : OutputRef} {target : InputRef} :
    (∃ after, graph.connect source target = .ok after) ↔
      ¬(¬graph.HasOutput source ∨ ¬graph.HasInput target ∨ graph.sourceOf? target ≠ none ∨
        graph.reaches target.layer source.layer = true) := by
  simp [connect_eq_ok]

theorem inBounds_get (graph : Graph) (id : LayerId) : Avoids (· = .outOfBounds) (graph.get id) := by
  rw [get]
  cases graph.find? id with
  | none => exact .error (by simp)
  | some layer => exact .ok layer

theorem inBounds_checkSpliceable (kind : LayerKind) :
    Avoids (· = .outOfBounds) (checkSpliceable kind) := by
  rw [checkSpliceable]
  split
  · exact .ok ()
  · exact .error (by simp)

theorem inBounds_connect (source : OutputRef) (target : InputRef) :
    Avoids (· = .outOfBounds) (graph.connect source target) := by
  refine .bind (inBounds_get graph _) fun producer => .guard (by simp) ?_
  refine .bind (inBounds_get graph _) fun consumer => ?_
  cases consumer.inputs[target.index]? with
  | none => exact .error (by simp)
  | some slot =>
    rcases slot with ⟨_ | existing⟩
    · exact .guard (by simp) (.ok _)
    · exact .error (by simp)

theorem inBounds_disconnect (target : InputRef) :
    Avoids (· = .outOfBounds) (graph.disconnect target) := by
  refine .bind (inBounds_get graph _) fun consumer => ?_
  cases consumer.source? target.index with
  | none => exact .error (by simp)
  | some source => exact .ok _

theorem inBounds_remove (id : LayerId) : Avoids (· = .outOfBounds) (graph.remove id) :=
  .bind (inBounds_get graph id) fun _ => .guard (by simp) (.bind (inBounds_get _ id) fun _ => .ok _)

theorem inBounds_replace (id : LayerId) (kind : LayerKind) :
    Avoids (· = .outOfBounds) (graph.replace id kind) :=
  .bind (inBounds_get graph id) fun _ => .guard (by simp) (.ok _)

theorem inBounds_cloneInto (id : LayerId) (target : Graph) :
    Avoids (· = .outOfBounds) (graph.cloneInto id target) :=
  .bind (inBounds_get graph id) fun _ => .ok _

theorem inBounds_insertBefore (target : InputRef) (kind : LayerKind) (name : String) :
    Avoids (· = .outOfBounds) (graph.insertBefore target kind name) := by
  refine .bind (inBounds_checkSpliceable kind) fun _ =>
    .bind (inBounds_get graph _) fun consumer => ?_
  cases consumer.source? target.index with
  | none => exact .error (by simp)
  | some source => exact .ok _

theorem inBounds_insertAfter (source : OutputRef) (kind : LayerKind) (name : String) :
    Avoids (· = .outOfBounds) (graph.insertAfter source kind name) := by
  refine .bind (inBounds_checkSpliceable kind) fun _ =>
    .bind (inBounds_get graph _) fun producer => ?_
  cases producer.outputs[source.index]? with
  | none => exact .error (by simp)
  | some slot => exact .ok _

theorem inBounds_setInfo (slot : OutputRef) (info : TensorInfo) :
    Avoids (· = .outOfBounds) (graph.setInfo slot info) := by
  refine .bind (inBounds_get graph _) fun producer => ?_
  cases producer.outputs[slot.index]? with
  | none => exact .error (by simp)
  | some output => exact .ok _

/-- Every structural edit is all or nothing, and it is refused just when what it needs is not
there: slots and layers that exist, an edge to take away or to splice into, a layer that nothing
reads, kinds with the right slots, and no cycle. -/
theorem Reachable.edits_allOrNothing (reached : graph.Reachable) :
    graph.store.graph = graph ∧
    (∀ source target, graph.AllOrNothing (InPlace.connect source target)
      (((), ·) <$> graph.connect source target)
      (¬graph.HasOutput source ∨ ¬graph.HasInput target ∨ graph.sourceOf? target ≠ none ∨
        graph.reaches target.layer source.layer = true)) ∧
    (∀ target, graph.AllOrNothing (InPlace.disconnect target) (graph.disconnect target)
      (¬graph.HasInput target ∨ graph.sourceOf? target = none)) ∧
    (∀ id, graph.AllOrNothing (InPlace.remove id) (graph.remove id)
      (graph.find? id = none ∨
        ∃ reader source, graph.sourceOf? reader = some source ∧ source.layer = id)) ∧
    (∀ id kind, graph.AllOrNothing (InPlace.replace id kind) (graph.replace id kind)
      (graph.find? id = none ∨
        ∃ layer, graph.find? id = some layer ∧ kind.slotCounts ≠ layer.slotCounts)) ∧
    (∀ target kind name, graph.AllOrNothing (InPlace.insertBefore target kind name)
      (graph.insertBefore target kind name)
      (kind.slotCounts ≠ (1, 1) ∨ ¬graph.HasInput target ∨ graph.sourceOf? target = none)) ∧
    (∀ source kind name, graph.AllOrNothing (InPlace.insertAfter source kind name)
      (graph.insertAfter source kind name)
      (kind.slotCounts ≠ (1, 1) ∨ ¬graph.HasOutput source)) ∧
    (∀ slot info, graph.AllOrNothing (InPlace.setInfo slot info)
      (((), ·) <$> graph.setInfo slot info) (¬graph.HasOutput slot)) ∧
    (∀ id, graph.AllOrNothing (InPlace.clone id) (graph.clone id) (graph.find? id = none)) ∧
    ∀ (target : Graph), target.Reachable → ∀ id,
      target.AllOrNothing (InPlace.cloneFrom graph.store id) (graph.cloneInto id target)
        (graph.find? id = none) := by
  have wired := reached.wellFormed.toWired
  refine ⟨graph_store wired.unique, ?_, ?_, ?_, ?_, ?_, ?_, ?_, ?_, ?_⟩
  · exact fun source target => .of_settles (settles_connect wired.unique source target)
      (exists_map_eq_ok.trans connect_accepted) (.map _ (inBounds_connect source target))
  · exact fun target => .of_settles (settles_disconnect wired target) disconnect_accepted
      (inBounds_disconnect target)
  · exact fun id => .of_settles (settles_remove wired id) wired.remove_accepted (inBounds_remove id)
  · exact fun id kind => .of_settles (settles_replace id kind) replace_accepted
      (inBounds_replace id kind)
  · exact fun target kind name => .of_settles (settles_insertBefore wired target kind name)
      insertBefore_accepted (inBounds_insertBefore target kind name)
  · exact fun source kind name => .of_settles (settles_insertAfter wired source kind name)
      insertAfter_accepted (inBounds_insertAfter source kind name)
  · exact fun slot info => .of_settles (settles_setInfo slot info)
      (exists_map_eq_ok.trans setInfo_accepted) (.map _ (inBounds_setInfo slot info))
  · exact fun id => .of_settles (settles_clone wired id) cloneInto_accepted
      (inBounds_cloneInto id graph)
  · exact fun target targetReached id => .of_settles
      (settles_cloneFrom targetReached.wellFormed.toWired graph id) cloneInto_accepted
      (inBounds_cloneInto id target)

/-- A layer that is read by another. -/
def readLayer : Graph :=
  run [.addLayer (.input 0) "x", .addLayer (.activation { curve := .reLu }) "y",
    .connect ⟨0, 0⟩ ⟨1, 0⟩] empty

theorem readLayer_stays :
    ∃ error, (InPlace.remove 0).run readLayer.store = .error error readLayer.store := by
  have reached : readLayer.Reachable := ⟨_, rfl⟩
  obtain ⟨_, _, _, removes, _⟩ := reached.edits_allOrNothing
  have read : readLayer.sourceOf? ⟨1, 0⟩ = some ⟨0, 0⟩ := by decide +kernel
  obtain ⟨error, store, failed⟩ := (removes 0).fails.mpr (.inr ⟨_, _, read, rfl⟩)
  obtain ⟨rfl, _⟩ := (removes 0).restores error store failed
  exact ⟨error, failed⟩

end Graph

end NeuralGraph
