import Mathlib.Logic.Relation
import NeuralGraph.Proofs.Graph.Wiring

/-! The bounded search for a path is exact: on every graph, whatever its edges are, it finds
precisely the layers at the end of some path along recorded readers. -/

namespace NeuralGraph.Graph

variable {graph : Graph}

/-- An edge, as its producer records it. -/
def Feeds (graph : Graph) (producer consumer : LayerId) : Prop :=
  consumer ∈ graph.successors producer

theorem feeds_iff {producer consumer : LayerId} :
    graph.Feeds producer consumer ↔ ∃ index, ∃ reader ∈ graph.readersOf ⟨producer, index⟩,
      reader.layer = consumer := by
  cases found : graph.find? producer with
  | none => simp [Feeds, successors, readersOf, found]
  | some layer =>
    simp only [Feeds, successors, readersOf, found, List.mem_map, Layer.mem_consumers,
      Option.map_some, Option.getD_some]
    constructor
    · rintro ⟨reader, ⟨index, reads⟩, same⟩
      exact ⟨index, reader, reads, same⟩
    · rintro ⟨index, reader, reads, same⟩
      exact ⟨reader, ⟨index, reads⟩, same⟩

theorem Feeds.mem_ids {producer consumer : LayerId} (edge : graph.Feeds producer consumer) :
    producer ∈ graph.ids := by
  obtain ⟨index, reader, member, _⟩ := feeds_iff.mp edge
  obtain ⟨layer, found, _⟩ := HasOutput.of_mem_readersOf member
  exact mem_ids_of_find? found

private theorem mem_addNew {id : LayerId} (candidates known : List LayerId) :
    id ∈ candidates.foldl (fun known id => if known.contains id then known else known ++ [id])
      known ↔ id ∈ known ∨ id ∈ candidates := by
  induction candidates generalizing known with
  | nil => simp
  | cons candidate rest ih =>
    rw [List.foldl_cons, ih, List.mem_cons]
    by_cases already : known.contains candidate
    · rw [if_pos already]
      have member : candidate ∈ known := by simpa using already
      constructor
      · rintro (old | later)
        · exact .inl old
        · exact .inr (.inr later)
      · rintro (old | same | later)
        · exact .inl old
        · exact .inl (same ▸ member)
        · exact .inr later
    · rw [if_neg already]
      simp [or_assoc]

theorem mem_grow {known : List LayerId} {id : LayerId} :
    id ∈ graph.grow known ↔ id ∈ known ∨ ∃ producer ∈ known, graph.Feeds producer id := by
  simp only [grow, mem_addNew, List.mem_flatMap, Feeds]

theorem mem_reachedWithin_succ {steps : Nat} {start id : LayerId} :
    id ∈ graph.reachedWithin (steps + 1) start ↔
      id ∈ graph.reachedWithin steps start ∨
        ∃ producer ∈ graph.reachedWithin steps start, graph.Feeds producer id := mem_grow

theorem start_mem_reachedWithin (steps : Nat) (start : LayerId) :
    start ∈ graph.reachedWithin steps start := by
  induction steps with
  | zero => exact List.mem_singleton_self _
  | succ steps ih => exact mem_reachedWithin_succ.mpr (.inl ih)

theorem path_of_mem_reachedWithin {steps : Nat} {start id : LayerId}
    (member : id ∈ graph.reachedWithin steps start) :
    Relation.ReflTransGen graph.Feeds start id := by
  induction steps generalizing id with
  | zero =>
    have same : id = start := by simpa [reachedWithin] using member
    subst id
    exact .refl
  | succ steps ih =>
    rcases mem_reachedWithin_succ.mp member with old | ⟨producer, reached, edge⟩
    · exact ih old
    · exact (ih reached).tail edge

/-- A layer that only the last step finds ends a path through as many different layers of the
graph as there were steps. -/
private theorem distinct_of_late {steps : Nat} {start id : LayerId}
    (late : id ∈ graph.reachedWithin (steps + 1) start)
    (early : id ∉ graph.reachedWithin steps start) :
    ∃ passed : List LayerId, passed.length = steps + 1 ∧ passed.Nodup ∧
      ∀ other ∈ passed, other ∈ graph.ids ∧ other ∈ graph.reachedWithin steps start := by
  induction steps generalizing id with
  | zero =>
    rcases mem_reachedWithin_succ.mp late with old | ⟨producer, reached, edge⟩
    · exact absurd old early
    · exact ⟨[producer], rfl, List.nodup_singleton _, by simpa using ⟨edge.mem_ids, reached⟩⟩
  | succ steps ih =>
    rcases mem_reachedWithin_succ.mp late with old | ⟨producer, reached, edge⟩
    · exact absurd old early
    · have producerLate : producer ∉ graph.reachedWithin steps start := fun old =>
        early (mem_reachedWithin_succ.mpr (.inr ⟨producer, old, edge⟩))
      obtain ⟨passed, length, distinct, inside⟩ := ih reached producerLate
      refine ⟨producer :: passed, by simp [length], List.nodup_cons.mpr ⟨?_, distinct⟩, ?_⟩
      · exact fun repeated => producerLate (inside producer repeated).2
      · intro other member
        rcases List.mem_cons.mp member with same | old
        · subst other
          exact ⟨edge.mem_ids, reached⟩
        · exact ⟨(inside other old).1, mem_reachedWithin_succ.mpr (.inl (inside other old).2)⟩

/-- As many steps as there are layers find everything that any number of steps finds. -/
private theorem reachedWithin_closed {start producer consumer : LayerId}
    (reached : producer ∈ graph.reachedWithin graph.layers.length start)
    (edge : graph.Feeds producer consumer) :
    consumer ∈ graph.reachedWithin graph.layers.length start := by
  by_contra early
  have late : consumer ∈ graph.reachedWithin (graph.layers.length + 1) start :=
    mem_reachedWithin_succ.mpr (.inr ⟨producer, reached, edge⟩)
  obtain ⟨passed, length, distinct, inside⟩ := distinct_of_late late early
  have bound : passed.length ≤ graph.ids.length :=
    distinct.length_le_of_subset fun other member => (inside other member).1
  have count : graph.ids.length = graph.layers.length := List.length_map _
  omega

/-- The search answers yes exactly when a path, possibly of length zero, leads from one layer to
the other. -/
theorem reaches_iff {start target : LayerId} :
    graph.reaches start target = true ↔ Relation.ReflTransGen graph.Feeds start target := by
  rw [reaches, List.contains_iff_mem]
  constructor
  · exact path_of_mem_reachedWithin
  · intro path
    induction path with
    | refl => exact start_mem_reachedWithin _ _
    | tail _ edge ih => exact reachedWithin_closed ih edge

end NeuralGraph.Graph
