import NeuralGraph.Proofs.Graph.Edit

/-! The invariant of graphs. Ids are unique and never come back, the two copies of every edge
agree, and a rank that grows along the edges rules out cycles. -/

namespace NeuralGraph.Graph

/-- The edges are recorded alike at both of their ends, between slots of stored layers. -/
structure Wired (graph : Graph) : Prop where
  unique : graph.ids.Nodup
  fresh : ∀ id ∈ graph.ids, id < graph.nextId
  edges : ∀ source target, (graph.readersOf source).count target =
    if graph.sourceOf? target = some source then 1 else 0

/-- The rank grows along every edge. -/
def Ranked (graph : Graph) (rank : LayerId → Nat) : Prop :=
  ∀ target source, graph.sourceOf? target = some source → rank source.layer < rank target.layer

/-- A wired graph without cycles. -/
structure WellFormed (graph : Graph) : Prop extends Wired graph where
  ranked : ∃ rank, graph.Ranked rank

variable {graph : Graph}

theorem Wired.mem_readersOf (wired : graph.Wired) {source : OutputRef} {target : InputRef} :
    target ∈ graph.readersOf source ↔ graph.sourceOf? target = some source := by
  rw [← List.count_pos_iff, wired.edges]
  split <;> simp_all

theorem Wired.nodup_readersOf (wired : graph.Wired) (source : OutputRef) :
    (graph.readersOf source).Nodup := by
  apply List.nodup_iff_count_le_one.mpr
  intro target
  rw [wired.edges]
  split <;> omega

theorem Wired.hasOutput (wired : graph.Wired) {source : OutputRef} {target : InputRef}
    (reads : graph.sourceOf? target = some source) : graph.HasOutput source :=
  .of_mem_readersOf (wired.mem_readersOf.mpr reads)

/-- What an input slot of a stored layer holds is recorded as an edge. -/
theorem exists_sourceOf? {id : LayerId} {layer : Layer} (found : graph.find? id = some layer)
    {slot : InputSlot} (member : slot ∈ layer.inputs) {source : OutputRef}
    (reads : slot.source = some source) : ∃ index, graph.sourceOf? ⟨id, index⟩ = some source := by
  obtain ⟨index, there⟩ := List.mem_iff_getElem?.mp member
  refine ⟨index, ?_⟩
  rw [sourceOf?_of_find? found]
  simp [Layer.source?, there, reads]

/-- What a stored layer reads is there. -/
theorem Wired.hasOutput_of_mem (wired : graph.Wired) {id : LayerId} {layer : Layer}
    (found : graph.find? id = some layer) {slot : InputSlot} (member : slot ∈ layer.inputs)
    {source : OutputRef} (reads : slot.source = some source) : graph.HasOutput source := by
  obtain ⟨_, recorded⟩ := exists_sourceOf? found member reads
  exact wired.hasOutput recorded

/-- No edge touches the layer that is still to come. -/
theorem Wired.ne_nextId (wired : graph.Wired) {source : OutputRef} {target : InputRef}
    (reads : graph.sourceOf? target = some source) :
    source.layer ≠ graph.nextId ∧ target.layer ≠ graph.nextId := by
  obtain ⟨_, producerFound, _⟩ := wired.hasOutput reads
  obtain ⟨_, consumerFound, _⟩ := HasInput.of_sourceOf? reads
  exact ⟨Nat.ne_of_lt (wired.fresh _ (mem_ids_of_find? producerFound)),
    Nat.ne_of_lt (wired.fresh _ (mem_ids_of_find? consumerFound))⟩

theorem Wired.feeds_iff (wired : graph.Wired) {producer consumer : LayerId} :
    graph.Feeds producer consumer ↔ ∃ target source, graph.sourceOf? target = some source ∧
      source.layer = producer ∧ target.layer = consumer := by
  rw [Graph.feeds_iff]
  constructor
  · rintro ⟨index, reader, member, same⟩
    exact ⟨reader, ⟨producer, index⟩, wired.mem_readersOf.mp member, rfl, same⟩
  · rintro ⟨target, source, reads, rfl, same⟩
    exact ⟨source.index, target, wired.mem_readersOf.mpr reads, same⟩

theorem Ranked.lt_of_feeds {rank : LayerId → Nat} (ranked : graph.Ranked rank)
    (wired : graph.Wired) {producer consumer : LayerId} (edge : graph.Feeds producer consumer) :
    rank producer < rank consumer := by
  obtain ⟨target, source, reads, rfl, rfl⟩ := wired.feeds_iff.mp edge
  exact ranked target source reads

/-- No path leads down in rank. -/
theorem Ranked.le_of_path {rank : LayerId → Nat} (ranked : graph.Ranked rank)
    (wired : graph.Wired) {first last : LayerId}
    (path : Relation.ReflTransGen graph.Feeds first last) : rank first ≤ rank last := by
  induction path with
  | refl => exact Nat.le_refl _
  | tail _ edge ih => exact Nat.le_trans ih (Nat.le_of_lt (ranked.lt_of_feeds wired edge))

/-- No layer feeds itself, directly or through others. -/
theorem WellFormed.acyclic (valid : graph.WellFormed) (id : LayerId) :
    ¬ Relation.TransGen graph.Feeds id id := by
  obtain ⟨rank, ranked⟩ := valid.ranked
  intro cycle
  obtain ⟨last, path, edge⟩ := Relation.TransGen.tail'_iff.mp cycle
  have below := ranked.le_of_path valid.toWired path
  exact Nat.not_lt.mpr below (ranked.lt_of_feeds valid.toWired edge)

theorem Wired.link (wired : graph.Wired) {source : OutputRef} {target : InputRef}
    (output : graph.HasOutput source) (input : graph.HasInput target)
    (free : graph.sourceOf? target = none) : (graph.link source target).Wired where
  unique := by simpa using wired.unique
  fresh := by simpa using wired.fresh
  edges := by
    intro other reader
    rw [sourceOf?_link input, readersOf_link output]
    by_cases sameReader : reader = target
    · subst reader
      have unread : ∀ slot, (graph.readersOf slot).count target = 0 := by
        intro slot
        rw [wired.edges, free]
        simp
      by_cases sameSource : other = source
      · simp [sameSource, unread]
      · simp [sameSource, unread, Ne.symm sameSource]
    · by_cases sameSource : other = source
      · subst other
        simp [sameReader, Ne.symm sameReader, wired.edges]
      · simp [sameReader, sameSource, wired.edges]

theorem Wired.unlink (wired : graph.Wired) {source : OutputRef} {target : InputRef}
    (reads : graph.sourceOf? target = some source) : (graph.unlink source target).Wired where
  unique := by simpa using wired.unique
  fresh := by simpa using wired.fresh
  edges := by
    intro other reader
    rw [sourceOf?_unlink, readersOf_unlink]
    by_cases sameReader : reader = target
    · subst reader
      by_cases sameSource : other = source
      · rw [if_pos sameSource, if_pos rfl, List.count_eq_zero.mpr (by simp)]
        rfl
      · simp [sameSource, wired.edges, reads, Ne.symm sameSource]
    · by_cases sameSource : other = source
      · subst other
        rw [if_pos rfl, if_neg sameReader, List.count_filter (by simpa using sameReader),
          wired.edges]
      · simp [sameReader, sameSource, wired.edges]

theorem Ranked.unlink {rank : LayerId → Nat} (ranked : graph.Ranked rank) (source : OutputRef)
    (target : InputRef) : (graph.unlink source target).Ranked rank := by
  intro other from' reads
  rw [sourceOf?_unlink] at reads
  split at reads
  · cases reads
  · exact ranked other from' reads

/-- An edge that closes no cycle leaves a rank: everything behind the new edge is raised above
its producer. -/
theorem WellFormed.link (valid : graph.WellFormed) {source : OutputRef} {target : InputRef}
    (output : graph.HasOutput source) (input : graph.HasInput target)
    (free : graph.sourceOf? target = none)
    (noPath : ¬ Relation.ReflTransGen graph.Feeds target.layer source.layer) :
    (graph.link source target).WellFormed where
  toWired := valid.toWired.link output input free
  ranked := by
    classical
    obtain ⟨rank, ranked⟩ := valid.ranked
    let behind (id : LayerId) : Prop := Relation.ReflTransGen graph.Feeds target.layer id
    refine ⟨fun id => rank id + if behind id then rank source.layer + 1 else 0, ?_⟩
    intro reader origin reads
    rw [sourceOf?_link input] at reads
    by_cases new : reader = target
    · rw [if_pos new, Option.some.injEq] at reads
      subst new reads
      have start : behind reader.layer := .refl
      have apart : ¬ behind source.layer := noPath
      simp only [if_pos start, if_neg apart]
      omega
    · rw [if_neg new] at reads
      have grows := ranked reader origin reads
      have edge : graph.Feeds origin.layer reader.layer :=
        valid.toWired.feeds_iff.mpr ⟨reader, origin, reads, rfl, rfl⟩
      by_cases reached : behind origin.layer
      · have further : behind reader.layer := reached.tail edge
        simp only [if_pos reached, if_pos further]
        omega
      · simp only [if_neg reached]
        split <;> omega

theorem WellFormed.unlink (valid : graph.WellFormed) {source : OutputRef} {target : InputRef}
    (reads : graph.sourceOf? target = some source) : (graph.unlink source target).WellFormed where
  toWired := valid.toWired.unlink reads
  ranked := valid.ranked.imp fun _ ranked => ranked.unlink source target

end NeuralGraph.Graph
