import NeuralGraph.Proofs.Network.Protocol

/-! Which layers a load binds. A layer is marked as bound when its workload has been built, not when
the whole network has, so a load that stops leaves marks on the layers before. -/

namespace NeuralGraph

/-- Whether a workload has been built for a layer since its last edit. -/
def Graph.IsBound (graph : Graph) (id : LayerId) : Prop :=
  (graph.find? id).map (·.state) = some .workloadBound

instance (graph : Graph) (id : LayerId) : Decidable (graph.IsBound id) :=
  inferInstanceAs (Decidable (_ = _))

namespace Graph

variable {graph : Graph} {id other : LayerId}

theorem isBound_markResolved : (graph.markResolved id).IsBound other ↔ graph.IsBound other := by
  have keeps : ∀ layer : Layer,
      (if layer.state = .constructed then { layer with state := .shapeResolved } else layer).id =
        layer.id := fun layer => by split <;> rfl
  rw [IsBound, IsBound, markResolved, find?_modify keeps]
  by_cases same : other = id
  · subst other
    cases graph.find? id with
    | none => simp
    | some layer => cases waits : layer.state <;> simp [waits]
  · rw [if_neg same]

theorem isBound_markBound (stored : id ∈ graph.ids) :
    (graph.markBound id).IsBound other ↔ graph.IsBound other ∨ other = id := by
  obtain ⟨layer, found⟩ := exists_find? stored
  rw [IsBound, IsBound, markBound,
    find?_modify (f := fun layer => { layer with state := .workloadBound }) fun _ => rfl]
  by_cases same : other = id <;> simp [same, found]

theorem isBound_markEach {ids : List LayerId} (stored : ∀ id ∈ ids, id ∈ graph.ids) :
    (graph.markEach ids).IsBound other ↔ graph.IsBound other ∨ other ∈ ids := by
  induction ids generalizing graph with
  | nil => simp [markEach]
  | cons id rest ih =>
    obtain ⟨first, others⟩ := List.forall_mem_cons.mp stored
    have kept := (graph.agree_markBound id).wiring_of_unresolved.ids
    exact (ih (kept ▸ others)).trans
      (by rw [isBound_markBound first, List.mem_cons, or_assoc])

theorem isBound_validateEach (order : List LayerId) (graph : Graph) :
    (validateEach order graph).1.IsBound id ↔ graph.IsBound id := by
  induction order generalizing graph with
  | nil => exact .rfl
  | cons first rest ih =>
    rw [validateEach]
    cases graph.validateLayer first with
    | error _ => exact .rfl
    | ok _ => exact (ih _).trans isBound_markResolved

theorem isBound_validate : graph.validate.1.IsBound id ↔ graph.IsBound id := by
  rw [validate]
  cases graph.topologicalOrder with
  | error _ => exact .rfl
  | ok order => exact isBound_validateEach order graph

end Graph

namespace Loading

variable {before after : Loading} {registry : Registry} {handles : TensorHandles}

/-- A load binds the layers that it adds to the network, and no others. -/
theorem Marks.binds (marks : Marks before after) :
    ∃ loaded, after.network.layers = before.network.layers ++ loaded ∧
      ∀ id, after.graph.IsBound id ↔ before.graph.IsBound id ∨ id ∈ loaded.map (·.id) := by
  obtain ⟨loaded, layers, marked, stored⟩ := marks
  exact ⟨loaded, layers, fun id => marked ▸ Graph.isBound_markEach (List.forall_mem_map.mpr stored)⟩

variable {graph : Graph} {ids : List LayerId} {device final : Device} {calls : List BackendCall}
  {loaded : List LoadedLayer} {error : Error}

/-- Where a load stops, the layers before were taken as if there were no others. -/
theorem Follows.stopped
    (follows : Follows graph registry handles ids device calls loaded final (.error error)) :
    ∃ done stop rest layer asked last built, ids = done ++ stop :: rest ∧
      Follows graph registry handles done device asked loaded built (.ok ()) ∧
      graph.find? stop = some layer ∧
      Stops graph registry handles layer built last error final ∧ calls = asked ++ last := by
  generalize ended : Except.error error = outcome at follows
  induction follows with
  | nil => cases ended
  | binding found binds held _ ih =>
    obtain ⟨done, stop, rest, layer, asked, last, built, rfl, follows, stops⟩ := ih ended
    exact ⟨_ :: done, stop, rest, layer, asked, last, built, rfl,
      .binding found binds held follows, stops⟩
  | operation found around selects fits created _ ih =>
    obtain ⟨done, stop, rest, layer, asked, last, built, rfl, follows, foundStop, stops, rfl⟩ :=
      ih ended
    exact ⟨_ :: done, stop, rest, layer, _, last, built, rfl,
      .operation found around selects fits created follows, foundStop, stops,
      (List.append_assoc _ (_ :: asked) _).symm⟩
  | stops found stops =>
    cases ended
    exact ⟨[], _, _, _, [], _, _, rfl, .nil, found, stops, rfl⟩

end Loading

namespace Network

open Loading

variable {graph : Graph} {registry : Registry} {handles : TensorHandles} {device : Device}

/-- A load has taken some layers, and it has stopped at the next. What it has built is released. -/
def StopsAfter (graph : Graph) (registry : Registry) (handles : TensorHandles) (device : Device)
    (report : LoadReport) (error : Error) (done : List LayerId) (stop : LayerId) : Prop :=
  ∃ layer asked last loaded built final,
    Follows graph registry handles done device asked loaded built (.ok ()) ∧
    graph.find? stop = some layer ∧ Stops graph registry handles layer built last error final ∧
    report.calls = asked ++ last ∧ report.device = releaseLayers loaded final

/-- A load fails because validation refuses the graph, or because it stops along the order. -/
theorem load_eq_error (valid : graph.WellFormed) {error : Error}
    (failed : (load graph registry handles device).outcome = .error error) :
    (graph.validate.2 = .error error ∧
        (load graph registry handles device).graph = graph.validate.1) ∨
      ∃ order last, graph.validate.2 = .ok () ∧ graph.topologicalOrder = .ok order ∧
        run registry handles order { graph := graph.validate.1, device, network := { handles } } =
          (last, .error error) ∧
        load graph registry handles device =
          { graph := last.graph
            device := releaseLayers last.network.layers last.device
            calls := last.calls
            outcome := .error error } := by
  obtain ⟨order, scheduled⟩ := valid.topologicalOrder
  have validated := graph.agree_validate.wiring_of_unresolved.topologicalOrder.trans scheduled
  unfold load at failed ⊢
  dsimp only at failed ⊢
  cases checked : graph.validate.2 with
  | error refusal =>
    have same : refusal = error := by simpa [checked, bind, Except.bind] using failed
    subst refusal
    exact .inl ⟨rfl, rfl⟩
  | ok _ =>
    simp only [checked, bind_ok, validated] at failed ⊢
    cases ran : run registry handles order
        { graph := graph.validate.1, device, network := { handles } } with
    | mk last outcome =>
      cases outcome with
      | ok _ => simp [ran] at failed
      | error cause =>
        simp only [ran] at failed
        cases failed
        exact .inr ⟨order, last, trivial, scheduled, ran, rfl⟩

/-- A load that fails leaves everything about the graph but the states of its layers. If validation
refuses the graph, no layer is bound by the load; otherwise the load stops at some layer, and it has
bound the operations before that layer. -/
theorem load_error_binds (reached : graph.Reachable) {error : Error}
    (failed : (load graph registry handles device).outcome = .error error) :
    Graph.AgreeOn Layer.unresolved graph (load graph registry handles device).graph ∧
    ((graph.validate.2 = .error error ∧
        ∀ id, (load graph registry handles device).graph.IsBound id ↔ graph.IsBound id) ∨
      ∃ done stop rest, graph.topologicalOrder = .ok (done ++ stop :: rest) ∧
        StopsAfter graph registry handles device (load graph registry handles device) error done
          stop ∧
        ∀ id, (load graph registry handles device).graph.IsBound id ↔
          graph.IsBound id ∨ id ∈ done ∧ graph.isOperation id = true) := by
  refine ⟨agree_load graph registry handles device, ?_⟩
  have valid := reached.wellFormed
  rcases load_eq_error valid failed with
    ⟨refused, same⟩ | ⟨order, last, checked, scheduled, ran, same⟩
  · exact .inl ⟨refused, fun id => same ▸ Graph.isBound_validate⟩
  · have perm := (Graph.topologicalOrder_sound valid.unique scheduled).1
    obtain ⟨calls, loaded, follows, asked, layers⟩ := run_follows graph.agree_validate
      (valid.validate_resolves checked) (fun found => valid.validate_ok checked found)
      (fun id member => perm.mem_iff.mp member) ran
    obtain rfl : last.calls = calls := asked
    obtain rfl : last.network.layers = loaded := layers
    obtain ⟨loaded, layers, bound⟩ := (run_marks registry handles order
      { graph := graph.validate.1, device, network := { handles } }).binds
    rw [ran] at layers bound
    obtain rfl : last.network.layers = loaded := layers
    obtain ⟨done, stop, rest, layer, early, late, built, rfl, taken, found, stops, calls⟩ :=
      follows.stopped
    rw [same]
    refine .inr ⟨done, stop, rest, scheduled,
      ⟨layer, early, late, _, built, _, taken, found, stops, calls, rfl⟩, fun id => ?_⟩
    rw [bound, Graph.isBound_validate, taken.ids_loaded rfl, List.mem_filter]

/-- A rectification and a normalization, one after the other. -/
def rectifiedRows : Graph :=
  .run [.addLayer (.input 0) "x", .addLayer (.activation { curve := .reLu }) "first",
    .addLayer (.softmax 1) "second", .connect ⟨0, 0⟩ ⟨1, 0⟩, .connect ⟨1, 0⟩ ⟨2, 0⟩,
    .setInfo ⟨0, 0⟩ { shape := ⟨[2, 3]⟩ }, .infer] .empty

/-- A backend for everything but normalizations. -/
def withoutSoftmax : Registry where
  backends := [.stub "a" (· = .softmax) fun _ => false]

def rectifiedRowsHandles : TensorHandles where
  entries := (List.range 3).map fun id =>
    (⟨id, 0⟩, { info := { shape := ⟨[2, 3]⟩ }, buffer := some id })

/-- The rectification is built before the load stops, and it keeps its mark. -/
theorem rectifiedRows_marked : ¬rectifiedRows.IsBound 1 ∧
    (load rectifiedRows withoutSoftmax rectifiedRowsHandles {}).graph.IsBound 1 ∧
    ∃ error, (load rectifiedRows withoutSoftmax rectifiedRowsHandles {}).outcome =
      .error error := by
  refine ⟨by decide +kernel, by decide +kernel, ?_⟩
  have stopped : (load rectifiedRows withoutSoftmax rectifiedRowsHandles
      {}).outcome.toOption.isNone = true := by decide +kernel
  cases failed : (load rectifiedRows withoutSoftmax rectifiedRowsHandles {}).outcome with
  | ok network =>
    rw [failed] at stopped
    cases stopped
  | error error => exact ⟨error, rfl⟩

theorem rectifiedRows_stops : ∃ done stop rest,
    rectifiedRows.topologicalOrder = .ok (done ++ stop :: rest) ∧ 1 ∈ done ∧
      (load rectifiedRows withoutSoftmax rectifiedRowsHandles {}).graph.IsBound 1 := by
  obtain ⟨fresh, marked, error, failed⟩ := rectifiedRows_marked
  obtain ⟨_, ⟨_, bound⟩ | ⟨done, stop, rest, scheduled, _, bound⟩⟩ :=
    load_error_binds ⟨_, rfl⟩ failed
  · exact absurd ((bound 1).mp marked) fresh
  · exact ⟨done, stop, rest, scheduled, (((bound 1).mp marked).resolve_left fresh).1, marked⟩

theorem load_error_may_bind :
    ¬∀ (graph : Graph) (registry : Registry) (handles : TensorHandles) (device : Device)
      (error : Error), graph.Reachable →
      (load graph registry handles device).outcome = .error error →
      ∀ id, (load graph registry handles device).graph.IsBound id → graph.IsBound id := by
  intro claimed
  obtain ⟨fresh, marked, error, failed⟩ := rectifiedRows_marked
  exact fresh (claimed _ _ _ _ error ⟨_, rfl⟩ failed 1 marked)

end Network

end NeuralGraph
