import Mathlib.Algebra.GroupWithZero.Nat
import NeuralGraph.Proofs.Graph.Truthful

/-! Which edges may be added. A depth-first search along recorded readers ends on every graph,
with cycles or without, and finds exactly the layers that a path leads to; so connecting is accepted
precisely where both slots are there, the input is free, and no path leads back. -/

namespace NeuralGraph

/-- Everything about a layer but its edges and how far it has come. -/
def Layer.unwired (layer : Layer) : Layer :=
  { layer with
    inputs := layer.inputs.map fun _ => {}
    outputs := layer.outputs.map fun slot => { info := slot.info }
    state := .constructed }

theorem Layer.unwired_withSource (layer : Layer) (index : Nat) (source : Option OutputRef) :
    (layer.withSource index source).unwired = layer.unwired := by
  simp [unwired, withSource]

theorem Layer.unwired_mapConsumers (layer : Layer) (index : Nat)
    (f : List InputRef → List InputRef) :
    (layer.mapConsumers index f).unwired = layer.unwired := by
  have infos := congrArg (List.map fun info => ({ info } : OutputSlot))
    (layer.map_info_mapConsumers index f)
  simp only [List.map_map, Function.comp_def] at infos
  simp only [unwired, infos]
  rfl

namespace Graph

variable {graph after : Graph}

/-- The number of edges out of layers that a search has not seen yet. -/
def unexplored (graph : Graph) (seen : List LayerId) : Nat :=
  (graph.ids.map fun id => if id ∈ seen then 0 else (graph.successors id).length).sum

/-- Seeing a layer explores the edges out of it. -/
theorem unexplored_cons {seen : List LayerId} {id : LayerId} (unseen : id ∉ seen) :
    (graph.successors id).length + graph.unexplored (id :: seen) ≤ graph.unexplored seen := by
  have fewer : ∀ ids : List LayerId,
      (ids.map fun other => if other ∈ id :: seen then 0 else (graph.successors other).length).sum ≤
        (ids.map fun other => if other ∈ seen then 0 else (graph.successors other).length).sum := by
    intro ids
    induction ids with
    | nil => exact Nat.le_refl 0
    | cons other ids ih =>
      refine Nat.add_le_add ?_ ih
      by_cases old : other ∈ seen
      · simp [old]
      · simp only [if_neg old]
        split <;> omega
  unfold unexplored
  by_cases stored : id ∈ graph.ids
  · obtain ⟨front, back, split⟩ := List.append_of_mem stored
    have before := fewer front
    have behind := fewer back
    rw [split, List.map_append, List.map_append, List.sum_append, List.sum_append, List.map_cons,
      List.map_cons, List.sum_cons, List.sum_cons, if_pos List.mem_cons_self, if_neg unseen]
    omega
  · have none : graph.successors id = [] := by
      simp [successors, find?_eq_none_iff.mpr stored]
    simpa [none] using fewer graph.ids

/-- Looks for a layer from a stack of layers, the top first. A layer that is seen for the first time
puts its readers on the stack, the last one on top. -/
def searchFrom (graph : Graph) (target : LayerId) (seen : List LayerId) : List LayerId → Bool
  | [] => false
  | id :: stack =>
    if id = target then true
    else if id ∈ seen then graph.searchFrom target seen stack
    else graph.searchFrom target (id :: seen) ((graph.successors id).reverse ++ stack)
termination_by stack => graph.unexplored seen + stack.length
decreasing_by
  · simp
  · rename_i unseen
    have explored : _ + graph.unexplored _ ≤ _ := unexplored_cons unseen
    simp only [List.length_append, List.length_reverse, List.length_cons]
    omega

/-- Depth-first search from one layer for another. -/
def search (graph : Graph) (start target : LayerId) : Bool := graph.searchFrom target [] [start]

/-- What the search finds lies behind the stack. -/
theorem path_of_searchFrom {target : LayerId} {seen stack : List LayerId}
    (found : graph.searchFrom target seen stack = true) :
    ∃ id ∈ stack, Relation.ReflTransGen graph.Feeds id target := by
  fun_induction searchFrom graph target seen stack with
  | case1 => cases found
  | case2 seen stack => exact ⟨target, List.mem_cons_self, .refl⟩
  | case3 seen id stack _ _ ih =>
    obtain ⟨other, member, path⟩ := ih found
    exact ⟨other, List.mem_cons_of_mem _ member, path⟩
  | case4 seen id stack _ _ ih =>
    obtain ⟨other, member, path⟩ := ih found
    rcases List.mem_append.mp member with next | below
    · exact ⟨id, List.mem_cons_self, .head (List.mem_reverse.mp next) path⟩
    · exact ⟨other, List.mem_cons_of_mem _ below, path⟩

/-- A search that finds nothing has seen everything behind the stack: the layers it has seen by then
are closed under edges, and the target is not among them. -/
theorem closed_of_searchFrom {target : LayerId} {seen stack : List LayerId}
    (missed : graph.searchFrom target seen stack = false)
    (pending : ∀ producer ∈ seen, ∀ consumer, graph.Feeds producer consumer →
      consumer ∈ seen ∨ consumer ∈ stack)
    (elsewhere : target ∉ seen) :
    ∃ closed : List LayerId, seen ⊆ closed ∧ stack ⊆ closed ∧ target ∉ closed ∧
      ∀ producer ∈ closed, ∀ consumer, graph.Feeds producer consumer → consumer ∈ closed := by
  fun_induction searchFrom graph target seen stack with
  | case1 seen =>
    refine ⟨seen, List.Subset.refl _, List.nil_subset _, elsewhere, ?_⟩
    intro producer member consumer edge
    exact (pending producer member consumer edge).resolve_right List.not_mem_nil
  | case2 => cases missed
  | case3 seen id stack _ old ih =>
    obtain ⟨closed, seenInside, inside, outside, edges⟩ := ih missed (by
      intro producer member consumer edge
      rcases pending producer member consumer edge with known | waiting
      · exact .inl known
      · rcases List.mem_cons.mp waiting with rfl | below
        · exact .inl old
        · exact .inr below) elsewhere
    exact ⟨closed, seenInside, List.cons_subset.mpr ⟨seenInside old, inside⟩, outside, edges⟩
  | case4 seen id stack other fresh ih =>
    obtain ⟨closed, seenInside, inside, outside, edges⟩ := ih missed (by
      intro producer member consumer edge
      rcases List.mem_cons.mp member with rfl | before
      · exact .inr (List.mem_append_left _ (List.mem_reverse.mpr edge))
      · rcases pending producer before consumer edge with known | waiting
        · exact .inl (List.mem_cons_of_mem _ known)
        · rcases List.mem_cons.mp waiting with rfl | below
          · exact .inl List.mem_cons_self
          · exact .inr (List.mem_append_right _ below))
      (by simpa [Ne.symm other] using elsewhere)
    obtain ⟨idInside, seenInside⟩ := List.cons_subset.mp seenInside
    exact ⟨closed, seenInside,
      List.cons_subset.mpr ⟨idInside, fun _ below => inside (List.mem_append_right _ below)⟩,
      outside, edges⟩

/-- The search answers yes exactly when a path, possibly of length zero, leads to the target. -/
theorem search_iff {start target : LayerId} :
    graph.search start target = true ↔ Relation.ReflTransGen graph.Feeds start target := by
  constructor
  · intro found
    obtain ⟨id, member, path⟩ := path_of_searchFrom found
    rwa [List.mem_singleton.mp member] at path
  · intro path
    by_contra missed
    obtain ⟨closed, _, inside, outside, edges⟩ :=
      closed_of_searchFrom (Bool.eq_false_iff.mpr missed) (by simp) List.not_mem_nil
    have reached : ∀ {id}, Relation.ReflTransGen graph.Feeds start id → id ∈ closed := by
      intro id path
      induction path with
      | refl => exact inside List.mem_cons_self
      | tail _ edge ih => exact edges _ ih _ edge
    exact outside (reached path)

/-- Two layers that read each other. -/
def feedbackPair : Graph where
  layers := [
    { id := 0, name := "x", kind := .softmax 1, inputs := [⟨some ⟨1, 0⟩⟩],
      outputs := [{ consumers := [⟨1, 0⟩] }] },
    { id := 1, name := "y", kind := .softmax 1, inputs := [⟨some ⟨0, 0⟩⟩],
      outputs := [{ consumers := [⟨0, 0⟩] }] }]
  nextId := 2

example : feedbackPair.search 0 1 = true ∧ feedbackPair.search 0 2 = false := by decide +kernel

theorem reaches_eq_search (graph : Graph) (start target : LayerId) :
    graph.reaches start target = graph.search start target :=
  Bool.eq_iff_iff.mpr (reaches_iff.trans search_iff.symm)

/-- One edge more: the input slot has its source, its layer is back at the start, and the output
slot has one more reader behind the others; everything else is as it was. -/
structure Gains (graph : Graph) (source : OutputRef) (target : InputRef) (after : Graph) :
    Prop where
  sources : ∀ slot, after.sourceOf? slot =
    if slot = target then some source else graph.sourceOf? slot
  readers : ∀ slot, after.readersOf slot =
    if slot = source then graph.readersOf slot ++ [target] else graph.readersOf slot
  states : ∀ id, (after.find? id).map (·.state) =
    (graph.find? id).map fun layer => if id = target.layer then .constructed else layer.state
  rest : AgreeOn Layer.unwired graph after

theorem unwired_link (graph : Graph) (source : OutputRef) (target : InputRef) :
    AgreeOn Layer.unwired graph (graph.link source target) :=
  (AgreeOn.modify graph _ _ fun layer => layer.unwired_mapConsumers _ _).trans
    (.modify _ _ _ fun layer => layer.unwired_withSource _ _)

theorem unwired_unlink (graph : Graph) (source : OutputRef) (target : InputRef) :
    AgreeOn Layer.unwired graph (graph.unlink source target) :=
  (AgreeOn.modify graph _ _ fun layer => layer.unwired_mapConsumers _ _).trans
    (.modify _ _ _ fun layer => layer.unwired_withSource _ _)

theorem gains_link {source : OutputRef} {target : InputRef} (output : graph.HasOutput source)
    (input : graph.HasInput target) :
    graph.Gains source target (graph.link source target) where
  sources := sourceOf?_link input
  readers slot := by
    rw [readersOf_link output]
    split <;> simp [*]
  states id := by
    rw [link, find?_modify (fun _ => Layer.id_withSource _ _)]
    simp only [find?_modify (fun _ => Layer.id_mapConsumers _ _)]
    by_cases reads : id = target.layer <;> by_cases feeds : id = source.layer <;>
      simp_all [Option.map_map, Function.comp_def, Layer.withSource, Layer.mapConsumers]
  rest := unwired_link graph source target

/-- Connecting is accepted for exactly the edges between slots that are there, into an input that is
free, with no path back from the reading layer to the source; and then it adds that edge and nothing
else. The path is found by depth-first search, which is exact on every graph. -/
theorem Reachable.connect_exact (reached : graph.Reachable) :
    (∀ producer consumer, graph.Feeds producer consumer ↔ ∃ target source,
      graph.sourceOf? target = some source ∧ source.layer = producer ∧ target.layer = consumer) ∧
    (∀ source target, (∃ after, graph.connect source target = .ok after) ↔
      graph.HasOutput source ∧ graph.HasInput target ∧ graph.sourceOf? target = none ∧
        ¬Relation.ReflTransGen graph.Feeds target.layer source.layer) ∧
    (∀ source target after, graph.connect source target = .ok after →
      graph.Gains source target after) ∧
    ∀ (other : Graph) (start target : LayerId),
      other.reaches start target = other.search start target ∧
        (other.search start target = true ↔ Relation.ReflTransGen other.Feeds start target) := by
  refine ⟨fun _ _ => reached.wellFormed.feeds_iff, ?_, ?_, ?_⟩
  · intro source target
    simp only [connect_eq_ok, exists_and_left, exists_eq, and_true]
    rw [← Bool.not_eq_true, reaches_iff]
  · intro source target after accepted
    obtain ⟨output, input, _, _, rfl⟩ := connect_eq_ok.mp accepted
    exact gains_link output input
  · exact fun other start target => ⟨reaches_eq_search other start target, search_iff⟩

/-- Three layers, of which the second reads the first. -/
def oneEdge : Graph :=
  run [.addLayer (.softmax 1) "x", .addLayer (.softmax 1) "y", .addLayer (.softmax 1) "z",
    .connect ⟨0, 0⟩ ⟨1, 0⟩] empty

/-- The second layer may feed the third, but not the first. -/
theorem oneEdge_connects :
    (¬∃ after, oneEdge.connect ⟨1, 0⟩ ⟨0, 0⟩ = .ok after) ∧
      ∃ after, oneEdge.connect ⟨1, 0⟩ ⟨2, 0⟩ = .ok after ∧ oneEdge.Gains ⟨1, 0⟩ ⟨2, 0⟩ after := by
  have reached : oneEdge.Reachable := ⟨_, rfl⟩
  obtain ⟨_, accepts, gains, searches⟩ := reached.connect_exact
  have back : Relation.ReflTransGen oneEdge.Feeds 0 1 :=
    (searches oneEdge 0 1).2.mp (by decide +kernel)
  have noPath : ¬Relation.ReflTransGen oneEdge.Feeds 2 1 := by
    rw [← (searches oneEdge 2 1).2]
    decide +kernel
  refine ⟨fun accepted => ((accepts _ _).mp accepted).2.2.2 back, ?_⟩
  obtain ⟨after, accepted⟩ := (accepts ⟨1, 0⟩ ⟨2, 0⟩).mpr
    ⟨⟨_, rfl, by decide⟩, ⟨_, rfl, by decide⟩, by decide, noPath⟩
  exact ⟨after, accepted, gains _ _ _ accepted⟩

end Graph

end NeuralGraph
