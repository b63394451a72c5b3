import NeuralGraph.Network.Load
import NeuralGraph.Proofs.Graph.Agreement

/-! What a load does to its graph: it moves states and nothing else, whether it succeeds or
fails. -/

namespace NeuralGraph

namespace Graph

variable {graph : Graph} {ids : List LayerId}

/-- Marks layers as bound, one after the other. -/
def markEach (graph : Graph) (ids : List LayerId) : Graph := ids.foldl markBound graph

theorem agree_markEach (graph : Graph) (ids : List LayerId) :
    AgreeOn Layer.unresolved graph (graph.markEach ids) := by
  induction ids generalizing graph with
  | nil => exact .refl _ _
  | cons id rest ih => exact (agree_markBound graph id).trans (ih (graph.markBound id))

@[simp] theorem ids_markEach : (graph.markEach ids).ids = graph.ids :=
  (graph.agree_markEach ids).wiring_of_unresolved.ids

end Graph

namespace Loading

variable {before middle after loading : Loading} {registry : Registry}

/-- Part of a load marks the layers that it adds to the network as bound, and does nothing else to
the graph. -/
def Marks (before after : Loading) : Prop :=
  ∃ loaded : List LoadedLayer, after.network.layers = before.network.layers ++ loaded ∧
    after.graph = before.graph.markEach (loaded.map (·.id)) ∧
    ∀ layer ∈ loaded, layer.id ∈ before.graph.ids

theorem Marks.of_kept (graph : after.graph = before.graph)
    (network : after.network.layers = before.network.layers) : Marks before after :=
  ⟨[], by simp [network], by simp [graph, Graph.markEach], by simp⟩

theorem Marks.trans (first : Marks before middle) (second : Marks middle after) :
    Marks before after := by
  obtain ⟨early, layers, marked, stored⟩ := first
  obtain ⟨late, layersLater, markedLater, storedLater⟩ := second
  rw [marked, Graph.ids_markEach] at storedLater
  refine ⟨early ++ late, by rw [layersLater, layers, List.append_assoc], ?_, ?_⟩
  · rw [markedLater, marked, Graph.markEach, Graph.markEach, Graph.markEach, List.map_append,
      List.foldl_append]
  · exact List.forall_mem_append.mpr ⟨stored, storedLater⟩

theorem Marks.agree (marks : Marks before after) :
    Graph.AgreeOn Layer.unresolved before.graph after.graph := by
  obtain ⟨loaded, _, marked, _⟩ := marks
  exact marked ▸ Graph.agree_markEach _ _

theorem compile_marks {layer : Layer} (stored : layer.id ∈ loading.graph.ids)
    (inputs outputs : List Handle) :
    Marks loading (loading.compile registry layer inputs outputs).1 := by
  unfold compile
  split
  · exact .of_kept rfl rfl
  · split
    · exact .of_kept rfl rfl
    · dsimp only
      split
      · exact .of_kept rfl rfl
      · split
        · exact .of_kept rfl rfl
        · exact ⟨[_], rfl, rfl, List.forall_mem_singleton.mpr stored⟩

theorem step_marks (loading : Loading) (registry : Registry) (handles : TensorHandles)
    (id : LayerId) : Marks loading (loading.step registry handles id).1 := by
  unfold step
  dsimp only
  split
  · exact .of_kept rfl rfl
  · rename_i layer inputs outputs bound
    obtain ⟨stored, found, bound⟩ := Graph.get_bind_eq_ok.mp bound
    obtain ⟨_, _, bound⟩ := bind_eq_ok.mp bound
    obtain ⟨_, _, bound⟩ := bind_eq_ok.mp bound
    obtain ⟨rfl, -⟩ : stored = layer ∧ _ := by simpa using pure_eq_ok.mp bound
    split
    · split <;> exact .of_kept rfl rfl
    · split <;> exact .of_kept rfl rfl
    · exact compile_marks (List.mem_map_of_mem (Graph.mem_of_find? found)) inputs outputs

theorem agree_step (loading : Loading) (registry : Registry) (handles : TensorHandles)
    (id : LayerId) : Graph.AgreeOn Layer.unresolved loading.graph
      (loading.step registry handles id).1.graph := (loading.step_marks registry handles id).agree

/-- A load marks layers as it goes, whether it then gets through or stops. -/
theorem run_marks (registry : Registry) (handles : TensorHandles) (ids : List LayerId)
    (loading : Loading) : Marks loading (run registry handles ids loading).1 := by
  induction ids generalizing loading with
  | nil => exact .of_kept rfl rfl
  | cons id rest ih =>
    have first := loading.step_marks registry handles id
    rw [run]
    split
    · rename_i stepped
      rwa [stepped] at first
    · rename_i next _ stepped
      rw [stepped] at first
      exact first.trans (ih next)

end Loading

namespace Network

theorem agree_load (graph : Graph) (registry : Registry) (handles : TensorHandles)
    (device : Device) :
    Graph.AgreeOn Layer.unresolved graph (load graph registry handles device).graph := by
  have validated := graph.agree_validate
  unfold load
  dsimp only
  split
  · exact validated
  · rename_i order _
    have loaded := (Loading.run_marks registry handles order
      { graph := graph.validate.1, device, network := { handles } }).agree
    split
    · rename_i loading _ ran
      rw [ran] at loaded
      exact validated.trans loaded
    · rename_i loading _ ran
      rw [ran] at loaded
      exact validated.trans loaded

theorem agree_loadOnHost (graph : Graph) (registry : Registry) (device : Device) :
    Graph.AgreeOn Layer.unresolved graph (loadOnHost graph registry device).graph := by
  have validated := graph.agree_validate
  unfold loadOnHost
  dsimp only
  split
  · exact validated
  · exact validated.trans (agree_load _ _ _ _)

end Network

end NeuralGraph
