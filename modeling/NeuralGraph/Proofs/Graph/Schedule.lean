import Mathlib.Order.WellFounded
import NeuralGraph.Graph.Schedule
import NeuralGraph.Proofs.Graph.WellFormed

/-! Topological order. A schedule lists every layer once, behind the layers it reads; without
cycles there always is one, because a waiting layer of least rank is ready. -/

namespace NeuralGraph.Graph

variable {graph : Graph}

/-- Stored layers that may run one after the other once some layers are done. -/
inductive Schedule (graph : Graph) : List LayerId → List LayerId → Prop where
  | nil {done : List LayerId} : Schedule graph done []
  | cons {done order : List LayerId} {id : LayerId} {layer : Layer}
      (found : graph.find? id = some layer)
      (ready : ∀ producer ∈ layer.producers, producer ∈ done)
      (rest : Schedule graph (id :: done) order) : Schedule graph done (id :: order)

/-- A schedule may stop early. -/
theorem Schedule.of_append {done first rest : List LayerId}
    (schedule : graph.Schedule done (first ++ rest)) : graph.Schedule done first := by
  induction first generalizing done with
  | nil => exact .nil
  | cons id first ih =>
    cases schedule with
    | cons found ready later => exact .cons found ready (ih later)

theorem isReady_iff {scheduled : List LayerId} {layer : Layer} :
    isReady scheduled layer = true ↔ ∀ producer ∈ layer.producers, producer ∈ scheduled := by
  simp [isReady]

/-- Taking a waiting layer leaves the others. -/
private theorem ids_eraseP {waiting : List Layer} {next : Layer} (member : next ∈ waiting) :
    (waiting.map (·.id)).Perm (next.id :: (waiting.eraseP (·.id == next.id)).map (·.id)) := by
  obtain ⟨taken, before, after, _, same, split, erased⟩ :=
    List.exists_of_eraseP member (p := (·.id == next.id)) (by simp)
  have sameId : taken.id = next.id := by simpa using same
  rw [erased, split, List.map_append, List.map_append, List.map_cons, sameId]
  exact List.perm_middle

/-- What the scheduler gives is a schedule of all the waiting layers. -/
theorem scheduleFrom_sound (unique : graph.ids.Nodup) {fuel : Nat} {scheduled : List LayerId}
    {waiting : List Layer} {order : List LayerId} (stored : ∀ layer ∈ waiting, layer ∈ graph.layers)
    (success : scheduleFrom fuel scheduled waiting = some order) :
    order.Perm (waiting.map (·.id)) ∧ graph.Schedule scheduled order := by
  induction fuel generalizing scheduled waiting order with
  | zero =>
    cases waiting with
    | nil =>
      simp only [scheduleFrom, Option.some.injEq] at success
      subst order
      exact ⟨.refl _, .nil⟩
    | cons head rest => simp [scheduleFrom] at success
  | succ fuel ih =>
    cases waiting with
    | nil =>
      simp only [scheduleFrom, Option.some.injEq] at success
      subst order
      exact ⟨.refl _, .nil⟩
    | cons head rest =>
      simp only [scheduleFrom] at success
      cases chosen : (head :: rest).find? (isReady scheduled) with
      | none => simp [chosen] at success
      | some next =>
        simp only [chosen, Option.map_eq_some_iff] at success
        obtain ⟨later, continued, rfl⟩ := success
        have member := List.mem_of_find?_eq_some chosen
        obtain ⟨perm, schedule⟩ :=
          ih (fun layer left => stored layer (List.mem_of_mem_eraseP left)) continued
        refine ⟨(perm.cons next.id).trans (ids_eraseP member).symm, ?_⟩
        exact .cons ((find?_eq_some_iff unique).mpr ⟨stored next member, rfl⟩)
          (isReady_iff.mp (List.find?_some chosen)) schedule

/-- A schedule exists where every producer is done or waiting, and ranks below its reader. -/
theorem scheduleFrom_complete {rank : LayerId → Nat} {fuel : Nat} {scheduled : List LayerId}
    {waiting : List Layer} (enough : waiting.length ≤ fuel)
    (closed : ∀ layer ∈ waiting, ∀ producer ∈ layer.producers,
      producer ∈ scheduled ∨ producer ∈ waiting.map (·.id))
    (ranked : ∀ layer ∈ waiting, ∀ producer ∈ layer.producers, rank producer < rank layer.id) :
    ∃ order, scheduleFrom fuel scheduled waiting = some order := by
  induction fuel generalizing scheduled waiting with
  | zero =>
    have empty : waiting = [] := List.eq_nil_of_length_eq_zero (Nat.le_zero.mp enough)
    exact ⟨[], by simp [empty, scheduleFrom]⟩
  | succ fuel ih =>
    cases waiting with
    | nil => exact ⟨[], rfl⟩
    | cons head rest =>
      have ready : ((head :: rest).find? (isReady scheduled)).isSome := by
        obtain ⟨least, member, minimal⟩ := (measure fun layer : Layer => rank layer.id).wf.has_min
          {layer | layer ∈ head :: rest} ⟨head, List.mem_cons_self⟩
        refine List.find?_isSome.mpr ⟨least, member, isReady_iff.mpr fun producer reads => ?_⟩
        rcases closed least member producer reads with done | waits
        · exact done
        · obtain ⟨other, waiting, rfl⟩ := List.mem_map.mp waits
          exact absurd (ranked least member _ reads) (minimal other waiting)
      obtain ⟨next, chosen⟩ := Option.isSome_iff_exists.mp ready
      have member := List.mem_of_find?_eq_some chosen
      have perm := ids_eraseP member
      have shorter : ((head :: rest).eraseP (·.id == next.id)).length ≤ fuel := by
        have lengths := perm.length_eq
        simp only [List.length_map, List.length_cons] at lengths enough
        omega
      have stillClosed : ∀ layer ∈ (head :: rest).eraseP (·.id == next.id),
          ∀ producer ∈ layer.producers, producer ∈ next.id :: scheduled ∨
            producer ∈ ((head :: rest).eraseP (·.id == next.id)).map (·.id) := by
        intro layer left producer reads
        rcases closed layer (List.mem_of_mem_eraseP left) producer reads with done | waits
        · exact .inl (List.mem_cons_of_mem _ done)
        · rcases List.mem_cons.mp (perm.mem_iff.mp waits) with same | later
          · exact .inl (same ▸ List.mem_cons_self)
          · exact .inr later
      obtain ⟨order, continued⟩ := ih shorter stillClosed fun layer left =>
        ranked layer (List.mem_of_mem_eraseP left)
      exact ⟨next.id :: order, by simp only [scheduleFrom, chosen, continued, Option.map_some]⟩

theorem topologicalOrder_sound (unique : graph.ids.Nodup) {order : List LayerId}
    (success : graph.topologicalOrder = .ok order) :
    order.Perm graph.ids ∧ graph.Schedule [] order := by
  unfold topologicalOrder at success
  cases scheduled : scheduleFrom graph.layers.length [] graph.layers with
  | none => simp [scheduled] at success
  | some found =>
    simp only [scheduled, Except.ok.injEq] at success
    subst order
    exact scheduleFrom_sound unique (fun _ member => member) scheduled

/-- Everything that a layer reads is stored, and ranks below it. -/
theorem WellFormed.producers_lt (valid : graph.WellFormed) {rank : LayerId → Nat}
    (ranked : graph.Ranked rank) {layer : Layer} (member : layer ∈ graph.layers)
    {producer : LayerId} (reads : producer ∈ layer.producers) :
    producer ∈ graph.ids ∧ rank producer < rank layer.id := by
  obtain ⟨index, source, recorded, rfl⟩ := Layer.mem_producers.mp reads
  have found : graph.find? layer.id = some layer :=
    (find?_eq_some_iff valid.unique).mpr ⟨member, rfl⟩
  have edge : graph.sourceOf? ⟨layer.id, index⟩ = some source :=
    (sourceOf?_of_find? found).trans recorded
  obtain ⟨_, producerFound, _⟩ := valid.toWired.hasOutput edge
  exact ⟨mem_ids_of_find? producerFound, ranked _ _ edge⟩

theorem WellFormed.topologicalOrder (valid : graph.WellFormed) :
    ∃ order, graph.topologicalOrder = .ok order := by
  obtain ⟨rank, ranked⟩ := valid.ranked
  obtain ⟨order, scheduled⟩ := scheduleFrom_complete (Nat.le_refl graph.layers.length)
    (fun layer member producer reads =>
      .inr (valid.producers_lt ranked member reads).1)
    (fun layer member producer reads => (valid.producers_lt ranked member reads).2)
  exact ⟨order, by rw [Graph.topologicalOrder, scheduled]⟩

end NeuralGraph.Graph
