import NeuralGraph.Proofs.Graph.Schedule
import NeuralGraph.Proofs.Network.Loading

/-! Graphs as calls make them. Every call keeps the invariant, whether it is accepted or
refused, so every graph that can be reached from the empty one has it. -/

namespace NeuralGraph.Graph

/-- A call on a graph, with any layer ids and any slot positions. -/
inductive Call where
  | addLayer (kind : LayerKind) (name : String)
  | clone (id : LayerId)
  | cloneFrom (origin : Graph) (id : LayerId)
  | connect (source : OutputRef) (target : InputRef)
  | disconnect (target : InputRef)
  | remove (id : LayerId)
  | replace (id : LayerId) (kind : LayerKind)
  | insertBefore (target : InputRef) (kind : LayerKind) (name : String)
  | insertAfter (source : OutputRef) (kind : LayerKind) (name : String)
  | setInfo (slot : OutputRef) (info : TensorInfo)
  | editKind (id : LayerId) (f : LayerKind → LayerKind)
  | infer
  | validate
  | load (registry : Registry) (handles : TensorHandles) (device : Device)
  | loadOnHost (registry : Registry) (device : Device)

/-- What is left of an edit: the edited graph, or the old one when the edit is refused. -/
def afterEdit {α : Type} (graph : Graph) (edited : Except Error α) (pick : α → Graph) : Graph :=
  match edited with
  | .ok result => pick result
  | .error _ => graph

/-- The graph after a call. -/
def Call.apply (graph : Graph) : Call → Graph
  | addLayer kind name => (graph.addLayer kind name).2
  | clone id => graph.afterEdit (graph.clone id) (·.2)
  | cloneFrom origin id => graph.afterEdit (origin.cloneInto id graph) (·.2)
  | connect source target => graph.afterEdit (graph.connect source target) id
  | disconnect target => graph.afterEdit (graph.disconnect target) (·.2)
  | remove id => graph.afterEdit (graph.remove id) (·.2)
  | replace id kind => graph.afterEdit (graph.replace id kind) (·.2)
  | insertBefore target kind name => graph.afterEdit (graph.insertBefore target kind name) (·.2)
  | insertAfter source kind name => graph.afterEdit (graph.insertAfter source kind name) (·.2)
  | setInfo slot info => graph.afterEdit (graph.setInfo slot info) id
  | editKind id f => graph.editKind id f
  | infer => graph.infer.1
  | validate => graph.validate.1
  | load registry handles device => (Network.load graph registry handles device).graph
  | loadOnHost registry device => (Network.loadOnHost graph registry device).graph

/-- The graph after a sequence of calls. -/
def run (calls : List Call) (graph : Graph) : Graph := calls.foldl Call.apply graph

/-- Some sequence of calls makes the graph out of the empty one. -/
def Reachable (graph : Graph) : Prop := ∃ calls, graph = run calls empty

variable {graph after : Graph}

theorem WellFormed.empty : Graph.empty.WellFormed where
  unique := List.nodup_nil
  fresh := by simp [ids, Graph.empty]
  edges := by simp [readersOf, sourceOf?, find?, Graph.empty]
  ranked := ⟨fun _ => 0, by simp [Ranked, sourceOf?, find?, Graph.empty]⟩

theorem Extends.refl (graph : Graph) : graph.Extends graph := .of_ids rfl rfl

theorem Extends.trans {middle : Graph} (first : graph.Extends middle)
    (second : middle.Extends after) : graph.Extends after where
  nextId := Nat.le_trans first.nextId second.nextId
  ids := by
    intro id member
    rcases second.ids id member with old | fresh
    · exact first.ids id old
    · exact .inr (Nat.le_trans first.nextId fresh)

/-- A refused edit leaves the graph as it was, so only accepted edits have to be looked at. -/
private theorem kept_afterEdit {α : Type} (valid : graph.WellFormed) {edited : Except Error α}
    {pick : α → Graph}
    (accepted : ∀ result, edited = .ok result →
      (pick result).WellFormed ∧ graph.Extends (pick result)) :
    (graph.afterEdit edited pick).WellFormed ∧ graph.Extends (graph.afterEdit edited pick) := by
  cases outcome : edited with
  | error _ => exact ⟨valid, .refl graph⟩
  | ok result => exact accepted result outcome

private theorem kept_of_agree (valid : graph.WellFormed)
    (agree : AgreeOn Layer.wiring graph after) : after.WellFormed ∧ graph.Extends after :=
  ⟨agree.wellFormed valid, agree.extends⟩

theorem WellFormed.apply (valid : graph.WellFormed) (call : Call) :
    (call.apply graph).WellFormed ∧ graph.Extends (call.apply graph) := by
  cases call with
  | addLayer kind name => exact valid.addLayer kind name
  | clone id => exact kept_afterEdit valid fun _ accepted => valid.cloneInto accepted
  | cloneFrom origin id => exact kept_afterEdit valid fun _ accepted => valid.cloneInto accepted
  | connect source target => exact kept_afterEdit valid fun _ accepted => valid.connect accepted
  | disconnect target => exact kept_afterEdit valid fun _ accepted => valid.disconnect accepted
  | remove id =>
    exact kept_afterEdit valid fun _ accepted =>
      let removed := valid.remove accepted
      ⟨removed.1, removed.2.1⟩
  | replace id kind =>
    exact kept_afterEdit valid fun _ accepted => kept_of_agree valid (agree_replace accepted)
  | insertBefore target kind name =>
    exact kept_afterEdit valid fun _ accepted => valid.insertBefore accepted
  | insertAfter source kind name =>
    exact kept_afterEdit valid fun _ accepted => valid.insertAfter accepted
  | setInfo slot info =>
    exact kept_afterEdit valid fun _ accepted => kept_of_agree valid (agree_setInfo accepted)
  | editKind id f => exact kept_of_agree valid (agree_editKind graph id f)
  | infer => exact kept_of_agree valid graph.agree_infer.wiring_of_frame
  | validate => exact kept_of_agree valid graph.agree_validate.wiring_of_unresolved
  | load registry handles device =>
    exact kept_of_agree valid
      (Network.agree_load graph registry handles device).wiring_of_unresolved
  | loadOnHost registry device =>
    exact kept_of_agree valid (Network.agree_loadOnHost graph registry device).wiring_of_unresolved

theorem WellFormed.run (valid : graph.WellFormed) (calls : List Call) :
    (Graph.run calls graph).WellFormed ∧ graph.Extends (Graph.run calls graph) := by
  induction calls generalizing graph with
  | nil => exact ⟨valid, .refl graph⟩
  | cons call calls ih =>
    obtain ⟨keptFirst, extendsFirst⟩ := valid.apply call
    obtain ⟨kept, extendsRest⟩ := ih keptFirst
    exact ⟨kept, extendsFirst.trans extendsRest⟩

theorem Reachable.wellFormed (reached : graph.Reachable) : graph.WellFormed := by
  obtain ⟨calls, rfl⟩ := reached
  exact (WellFormed.empty.run calls).1

/-- An id that has left a graph is not handed out again. -/
theorem WellFormed.find?_after_remove (valid : graph.WellFormed) {id : LayerId} {removed : Layer}
    (accepted : graph.remove id = .ok (removed, after)) (calls : List Call) :
    (Graph.run calls after).find? id = none := by
  obtain ⟨kept, grown, gone⟩ := valid.remove accepted
  obtain ⟨layer, found, _⟩ := remove_eq_ok.mp accepted
  have spent : id < after.nextId :=
    Nat.lt_of_lt_of_le (valid.fresh id (mem_ids_of_find? found)) grown.nextId
  refine find?_eq_none_iff.mpr fun back => ?_
  rcases (kept.run calls).2.ids id back with old | fresh
  · exact gone old
  · exact Nat.not_lt.mpr fresh spent

end NeuralGraph.Graph
