import Mathlib.Data.Finset.Card
import NeuralGraph.Proofs.Graph.Schedule

/-! Insertion-stable topological order. Of all the orders in which every layer comes behind its
producers, the schedule is the one that always goes on with the foremost layer that is ready, and
with it the lexicographically least by place of insertion; there is one exactly where no layer feeds
itself. -/

namespace NeuralGraph.Graph

variable {graph : Graph} {done order : List LayerId} {id : LayerId}

/-- Every id is stored once, and every edge is recorded at both of its ends. -/
structure Mirrored (graph : Graph) : Prop where
  unique : graph.ids.Nodup
  edges : ∀ source target, target ∈ graph.readersOf source ↔ graph.sourceOf? target = some source

theorem Wired.mirrored (wired : graph.Wired) : graph.Mirrored where
  unique := wired.unique
  edges _ _ := wired.mem_readersOf

/-- What a layer reads is what records it as a reader. -/
theorem Mirrored.mem_producers (mirrored : graph.Mirrored) {layer : Layer}
    (found : graph.find? id = some layer) {producer : LayerId} :
    producer ∈ layer.producers ↔ graph.Feeds producer id := by
  rw [Layer.mem_producers, feeds_iff]
  constructor
  · rintro ⟨index, source, reads, rfl⟩
    exact ⟨source.index, ⟨id, index⟩,
      (mirrored.edges _ _).mpr ((sourceOf?_of_find? found).trans reads), rfl⟩
  · rintro ⟨index, reader, member, rfl⟩
    have reads := (mirrored.edges _ _).mp member
    rw [sourceOf?_of_find? found] at reads
    exact ⟨reader.index, _, reads, rfl⟩

theorem Mirrored.find?_of_mem (mirrored : graph.Mirrored) {layer : Layer}
    (member : layer ∈ graph.layers) : graph.find? layer.id = some layer :=
  (find?_eq_some_iff mirrored.unique).mpr ⟨member, rfl⟩

/-- Both ends of an edge are stored. -/
theorem Mirrored.reader_mem_ids (mirrored : graph.Mirrored) {producer : LayerId}
    (edge : graph.Feeds producer id) : id ∈ graph.ids := by
  obtain ⟨index, reader, member, rfl⟩ := feeds_iff.mp edge
  obtain ⟨_, found, _⟩ := HasInput.of_sourceOf? ((mirrored.edges _ _).mp member)
  exact mem_ids_of_find? found

/-- The place of a layer in insertion order. -/
def place (graph : Graph) (id : LayerId) : Nat := graph.ids.idxOf id

theorem place_inj (member : id ∈ graph.ids) {other : LayerId}
    (same : graph.place id = graph.place other) : id = other :=
  (List.idxOf_inj member).mp same

/-- A stored layer that is still to come, with everything that feeds it done. -/
structure Ready (graph : Graph) (done : List LayerId) (id : LayerId) : Prop where
  stored : id ∈ graph.ids
  waiting : id ∉ done
  fed : ∀ producer, graph.Feeds producer id → producer ∈ done

theorem Ready.congr {other : List LayerId} (same : ∀ id, id ∈ done ↔ id ∈ other) :
    graph.Ready done id ↔ graph.Ready other id := by
  constructor
  · rintro ⟨stored, waiting, fed⟩
    exact ⟨stored, fun member => waiting ((same _).mpr member),
      fun _ edge => (same _).mp (fed _ edge)⟩
  · rintro ⟨stored, waiting, fed⟩
    exact ⟨stored, fun member => waiting ((same _).mp member),
      fun _ edge => (same _).mpr (fed _ edge)⟩

/-- Of the layers that are ready, the one that was inserted first. -/
structure Foremost (graph : Graph) (done : List LayerId) (id : LayerId) : Prop where
  ready : graph.Ready done id
  least : ∀ other, graph.Ready done other → graph.place id ≤ graph.place other

theorem Foremost.congr {other : List LayerId} (same : ∀ id, id ∈ done ↔ id ∈ other)
    (foremost : graph.Foremost done id) : graph.Foremost other id where
  ready := (Ready.congr same).mp foremost.ready
  least next ready := foremost.least next ((Ready.congr same).mpr ready)

theorem Foremost.unique {other : LayerId} (foremost : graph.Foremost done id)
    (also : graph.Foremost done other) : id = other :=
  place_inj foremost.ready.stored
    (Nat.le_antisymm (foremost.least _ also.ready) (also.least _ foremost.ready))

/-- Every layer once, each behind all that feeds it. -/
structure Topological (graph : Graph) (order : List LayerId) : Prop where
  perm : order.Perm graph.ids
  behind : ∀ front id back, order = front ++ id :: back →
    ∀ producer, graph.Feeds producer id → producer ∈ front

theorem Topological.lt_of_feeds (mirrored : graph.Mirrored) (topological : graph.Topological order)
    {producer : LayerId} (edge : graph.Feeds producer id) :
    order.idxOf producer < order.idxOf id := by
  have member : id ∈ order := topological.perm.mem_iff.mpr (mirrored.reader_mem_ids edge)
  obtain ⟨front, back, split⟩ := List.append_of_mem member
  have earlier : producer ∈ front := topological.behind front id back split producer edge
  have distinct : (front ++ id :: back).Nodup :=
    split ▸ topological.perm.nodup_iff.mpr mirrored.unique
  have later : id ∉ front := fun member =>
    (List.nodup_append.mp distinct).2.2 id member id List.mem_cons_self rfl
  rw [split, List.idxOf_append_of_mem earlier, List.idxOf_append_of_notMem later]
  exact Nat.lt_of_lt_of_le (List.idxOf_lt_length_iff.mpr earlier) (Nat.le_add_right _ _)

/-- Layers that come one after the other, each the foremost once those before it are done. -/
inductive Stable (graph : Graph) : List LayerId → List LayerId → Prop where
  | nil {done : List LayerId} : Stable graph done []
  | cons {done order : List LayerId} {id : LayerId} (foremost : graph.Foremost done id)
      (rest : Stable graph (id :: done) order) : Stable graph done (id :: order)

theorem Stable.foremost {front back : List LayerId}
    (stable : graph.Stable done (front ++ id :: back)) :
    graph.Foremost (front.reverse ++ done) id := by
  induction front generalizing done with
  | nil =>
    cases stable with
    | cons foremost rest => exact foremost
  | cons head front ih =>
    cases stable with
    | cons foremost rest => simpa using ih rest

theorem Stable.unique {other : List LayerId} (stable : graph.Stable done order)
    (also : graph.Stable done other) (length : order.length = other.length) : order = other := by
  induction stable generalizing other with
  | nil => exact (List.eq_nil_of_length_eq_zero length.symm).symm
  | @cons done order id foremost rest ih =>
    cases also with
    | nil => cases length
    | cons alsoForemost alsoRest =>
      obtain rfl := foremost.unique alsoForemost
      rw [ih alsoRest (Nat.succ.inj length)]

/-- No other order from the same point comes before a stable one. -/
theorem Stable.least {other : List LayerId} (stable : graph.Stable done order)
    (length : order.length = other.length) (distinct : other.Nodup)
    (waiting : ∀ id ∈ other, id ∈ graph.ids ∧ id ∉ done)
    (behind : ∀ front id back, other = front ++ id :: back →
      ∀ producer, graph.Feeds producer id → producer ∈ front ∨ producer ∈ done) :
    order = other ∨
      List.Lex (fun left right => graph.place left < graph.place right) order other := by
  induction stable generalizing other with
  | nil => exact .inl (List.eq_nil_of_length_eq_zero length.symm).symm
  | @cons done order id foremost rest ih =>
    cases other with
    | nil => cases length
    | cons head other =>
      obtain ⟨stored, undone⟩ := waiting head List.mem_cons_self
      have ready : graph.Ready done head :=
        ⟨stored, undone, fun producer edge =>
          (behind [] head other rfl producer edge).resolve_left List.not_mem_nil⟩
      rcases Nat.lt_or_eq_of_le (foremost.least head ready) with before | same
      · exact .inr (.rel before)
      · obtain rfl := place_inj foremost.ready.stored same
        obtain ⟨fresh, distinct⟩ := List.nodup_cons.mp distinct
        have later : ∀ next ∈ other, next ∈ graph.ids ∧ next ∉ id :: done := by
          intro next member
          obtain ⟨stored, undone⟩ := waiting next (List.mem_cons_of_mem _ member)
          refine ⟨stored, fun known => ?_⟩
          rcases List.mem_cons.mp known with rfl | old
          · exact fresh member
          · exact undone old
        have laterBehind : ∀ front next back, other = front ++ next :: back →
            ∀ producer, graph.Feeds producer next → producer ∈ front ∨ producer ∈ id :: done := by
          rintro front next back rfl producer edge
          rcases behind (id :: front) next back rfl producer edge with earlier | old
          · rcases List.mem_cons.mp earlier with rfl | earlier
            · exact .inr List.mem_cons_self
            · exact .inl earlier
          · exact .inr (List.mem_cons_of_mem _ old)
        rcases ih (Nat.succ.inj length) distinct later laterBehind with rfl | less
        · exact .inl rfl
        · exact .inr (.cons less)

/-- Where every edge leads to a later place, the layers in order of insertion are stable. -/
theorem Stable.of_sorted (rising : ∀ producer consumer, graph.Feeds producer consumer →
      graph.place producer < graph.place consumer)
    (sorted : order.Pairwise fun left right => graph.place left < graph.place right)
    (cover : ∀ id ∈ graph.ids, id ∈ done ↔ id ∉ order) (inside : ∀ id ∈ order, id ∈ graph.ids) :
    graph.Stable done order := by
  induction order generalizing done with
  | nil => exact .nil
  | cons head order ih =>
    obtain ⟨first, sorted⟩ := List.pairwise_cons.mp sorted
    have stored : head ∈ graph.ids := inside head List.mem_cons_self
    have foremost : graph.Foremost done head := by
      refine ⟨⟨stored, fun old => (cover head stored).mp old List.mem_cons_self, ?_⟩, ?_⟩
      · intro producer edge
        refine (cover producer edge.mem_ids).mpr fun still => ?_
        have before := rising producer head edge
        rcases List.mem_cons.mp still with rfl | later
        · exact Nat.lt_irrefl _ before
        · exact Nat.lt_asymm before (first producer later)
      · intro other ready
        have still : other ∈ head :: order := by
          by_contra gone
          exact ready.waiting ((cover other ready.stored).mpr gone)
        rcases List.mem_cons.mp still with rfl | later
        · exact Nat.le_refl _
        · exact Nat.le_of_lt (first other later)
    refine .cons foremost (ih sorted ?_ fun id member => inside id (List.mem_cons_of_mem _ member))
    intro id member
    have fresh : head ∉ order := fun again => Nat.lt_irrefl _ (first head again)
    by_cases same : id = head
    · subst same
      simp [fresh]
    · simp [same, cover id member]

/-- The layers that are not done, in insertion order. -/
def waiting (graph : Graph) (done : List LayerId) : List Layer :=
  graph.layers.filter fun layer => layer.id ∉ done

theorem mem_waiting {layer : Layer} :
    layer ∈ graph.waiting done ↔ layer ∈ graph.layers ∧ layer.id ∉ done := by
  simp [waiting]

@[simp] theorem waiting_nil (graph : Graph) : graph.waiting [] = graph.layers := by
  simp [waiting]

/-- Among distinct ids, erasing one layer is dropping every layer with its id. -/
private theorem eraseP_id {layers : List Layer} (unique : (layers.map (·.id)).Nodup)
    (id : LayerId) : layers.eraseP (·.id == id) = layers.filter (·.id ≠ id) := by
  induction layers with
  | nil => rfl
  | cons layer layers ih =>
    obtain ⟨fresh, unique⟩ := List.nodup_cons.mp unique
    by_cases same : layer.id = id
    · rw [List.eraseP_cons_of_pos (by simp [same]), List.filter_cons_of_neg (by simp [same])]
      refine (List.filter_eq_self.mpr fun other member => ?_).symm
      simpa using fun equal => fresh (List.mem_map.mpr ⟨other, member, equal.trans same.symm⟩)
    · rw [List.eraseP_cons_of_neg (by simpa using same),
        List.filter_cons_of_pos (by simpa using same), ih unique]

theorem waiting_cons (unique : graph.ids.Nodup) (done : List LayerId) (id : LayerId) :
    graph.waiting (id :: done) = (graph.waiting done).eraseP (·.id == id) := by
  have distinct : ((graph.waiting done).map (·.id)).Nodup :=
    unique.sublist (List.filter_sublist.map _)
  rw [eraseP_id distinct, waiting, waiting, List.filter_filter]
  exact List.filter_congr fun layer _ => by simp

theorem Mirrored.ready_iff (mirrored : graph.Mirrored) {layer : Layer}
    (member : layer ∈ graph.layers) :
    graph.Ready done layer.id ↔ layer.id ∉ done ∧ isReady done layer = true := by
  have found := mirrored.find?_of_mem member
  simp only [isReady_iff, mirrored.mem_producers found]
  constructor
  · rintro ⟨_, waits, fed⟩
    exact ⟨waits, fed⟩
  · rintro ⟨waits, fed⟩
    exact ⟨mem_ids_of_find? found, waits, fed⟩

theorem Mirrored.find?_waiting_eq_none (mirrored : graph.Mirrored) :
    (graph.waiting done).find? (isReady done) = none ↔ ∀ id, ¬graph.Ready done id := by
  simp only [List.find?_eq_none, mem_waiting]
  constructor
  · intro none id ready
    obtain ⟨layer, member, rfl⟩ := List.mem_map.mp ready.stored
    obtain ⟨waits, isReady⟩ := (mirrored.ready_iff member).mp ready
    exact none layer ⟨member, waits⟩ isReady
  · rintro none layer ⟨member, waits⟩ ready
    exact none layer.id ((mirrored.ready_iff member).mpr ⟨waits, ready⟩)

private theorem Mirrored.foremost_of_find? (mirrored : graph.Mirrored) {layer : Layer}
    (chosen : (graph.waiting done).find? (isReady done) = some layer) :
    graph.Foremost done layer.id := by
  rw [waiting, List.find?_filter, List.find?_eq_some_iff_getElem] at chosen
  obtain ⟨ready, index, inside, rfl, earlier⟩ := chosen
  have placed : ∀ (index : Nat) (inside : index < graph.layers.length),
      graph.place graph.layers[index].id = index := by
    intro index inside
    have there := mirrored.unique.idxOf_getElem index (by simpa [ids] using inside)
    simpa [place, ids] using there
  refine ⟨(mirrored.ready_iff (List.getElem_mem inside)).mpr (by simpa using ready),
    fun other otherReady => ?_⟩
  obtain ⟨otherLayer, member, rfl⟩ := List.mem_map.mp otherReady.stored
  obtain ⟨otherIndex, otherInside, rfl⟩ := List.getElem_of_mem member
  rw [placed, placed]
  by_contra before
  have notReady := earlier otherIndex (Nat.lt_of_not_le before)
  simp [(mirrored.ready_iff (List.getElem_mem otherInside)).mp otherReady] at notReady

/-- The scheduler takes the foremost layer. -/
theorem Mirrored.find?_waiting_eq_some (mirrored : graph.Mirrored) {layer : Layer} :
    (graph.waiting done).find? (isReady done) = some layer ↔
      layer ∈ graph.layers ∧ graph.Foremost done layer.id := by
  constructor
  · intro chosen
    exact ⟨(mem_waiting.mp (List.mem_of_find?_eq_some chosen)).1,
      mirrored.foremost_of_find? chosen⟩
  · rintro ⟨member, foremost⟩
    cases chosen : (graph.waiting done).find? (isReady done) with
    | none => exact absurd foremost.ready (mirrored.find?_waiting_eq_none.mp chosen _)
    | some other =>
      have otherMember := (mem_waiting.mp (List.mem_of_find?_eq_some chosen)).1
      rw [List.inj_on_of_nodup_map mirrored.unique otherMember member
        ((mirrored.foremost_of_find? chosen).unique foremost)]

/-- Where no waiting layer is ready, only the end of the list is a schedule. -/
theorem scheduleFrom_of_stuck {fuel : Nat} {waiting : List Layer}
    (stuck : waiting.find? (isReady done) = none) :
    scheduleFrom fuel done waiting = if waiting = [] then some [] else none := by
  cases waiting with
  | nil => simp [scheduleFrom]
  | cons head rest => cases fuel <;> simp [scheduleFrom, stuck]

theorem scheduleFrom_of_ready {fuel : Nat} {waiting : List Layer} {next : Layer}
    (chosen : waiting.find? (isReady done) = some next) :
    scheduleFrom (fuel + 1) done waiting =
      (scheduleFrom fuel (next.id :: done) (waiting.eraseP (·.id == next.id))).map
        (next.id :: ·) := by
  cases waiting with
  | nil => cases chosen
  | cons head rest => simp only [scheduleFrom, chosen]

theorem Mirrored.stable_of_scheduleFrom (mirrored : graph.Mirrored) {fuel : Nat}
    (success : scheduleFrom fuel done (graph.waiting done) = some order) :
    graph.Stable done order := by
  induction fuel generalizing done order with
  | zero =>
    cases left : graph.waiting done with
    | nil =>
      simp only [left, scheduleFrom, Option.some.injEq] at success
      exact success ▸ .nil
    | cons head rest => simp [left, scheduleFrom] at success
  | succ fuel ih =>
    cases chosen : (graph.waiting done).find? (isReady done) with
    | none =>
      rw [scheduleFrom_of_stuck chosen, Option.ite_none_right_eq_some] at success
      exact Option.some.inj success.2 ▸ .nil
    | some next =>
      rw [scheduleFrom_of_ready chosen, ← waiting_cons mirrored.unique] at success
      obtain ⟨later, continued, rfl⟩ := Option.map_eq_some_iff.mp success
      exact .cons (mirrored.find?_waiting_eq_some.mp chosen).2 (ih continued)

/-- The layers upstream of a layer are fewer than those upstream of its readers. -/
theorem exists_rank (acyclic : ∀ id, ¬Relation.TransGen graph.Feeds id id) :
    ∃ rank : LayerId → Nat, ∀ producer consumer, graph.Feeds producer consumer →
      rank producer < rank consumer := by
  classical
  refine ⟨fun id => (graph.ids.toFinset.filter (Relation.TransGen graph.Feeds · id)).card, ?_⟩
  intro producer consumer edge
  refine Finset.card_lt_card (Finset.ssubset_iff_of_subset ?_ |>.mpr ⟨producer, ?_, ?_⟩)
  · intro id upstream
    obtain ⟨stored, path⟩ := Finset.mem_filter.mp upstream
    exact Finset.mem_filter.mpr ⟨stored, path.tail edge⟩
  · exact Finset.mem_filter.mpr ⟨List.mem_toFinset.mpr edge.mem_ids, .single edge⟩
  · exact fun upstream => acyclic producer (Finset.mem_filter.mp upstream).2

theorem Mirrored.exists_topologicalOrder (mirrored : graph.Mirrored)
    (acyclic : ∀ id, ¬Relation.TransGen graph.Feeds id id) :
    ∃ order, graph.topologicalOrder = .ok order := by
  obtain ⟨rank, ranked⟩ := exists_rank acyclic
  have feeds : ∀ layer ∈ graph.layers, ∀ producer ∈ layer.producers,
      graph.Feeds producer layer.id := fun layer member producer reads =>
    (mirrored.mem_producers (mirrored.find?_of_mem member)).mp reads
  obtain ⟨order, scheduled⟩ := scheduleFrom_complete (Nat.le_refl graph.layers.length)
    (fun layer member producer reads => .inr (feeds layer member producer reads).mem_ids)
    (fun layer member producer reads => ranked _ _ (feeds layer member producer reads))
  exact ⟨order, by rw [topologicalOrder, scheduled]⟩

theorem Mirrored.stable_of_topologicalOrder (mirrored : graph.Mirrored)
    (success : graph.topologicalOrder = .ok order) : graph.Stable [] order := by
  unfold topologicalOrder at success
  split at success
  case h_1 found scheduled =>
    cases success
    exact mirrored.stable_of_scheduleFrom (by rwa [waiting_nil])
  case h_2 => cases success

theorem Stable.topological (stable : graph.Stable [] order) (perm : order.Perm graph.ids) :
    graph.Topological order where
  perm := perm
  behind := by
    rintro front id back rfl producer edge
    simpa using stable.foremost.ready.fed producer edge

theorem Topological.acyclic (mirrored : graph.Mirrored) (topological : graph.Topological order)
    (id : LayerId) : ¬Relation.TransGen graph.Feeds id id := by
  intro cycle
  have grows : Relation.TransGen (· < ·) (order.idxOf id) (order.idxOf id) :=
    Relation.TransGen.lift order.idxOf (fun _ _ => topological.lt_of_feeds mirrored) id id cycle
  rw [Relation.transGen_eq_self] at grows
  exact Nat.lt_irrefl _ grows

/-- Where insertion order is topological, it is the stable order. -/
theorem Topological.stable_ids (mirrored : graph.Mirrored)
    (topological : graph.Topological graph.ids) : graph.Stable [] graph.ids := by
  refine .of_sorted (fun _ _ => topological.lt_of_feeds mirrored) ?_ (by simp) fun _ => id
  refine List.pairwise_iff_getElem.mpr fun left right leftInside rightInside before => ?_
  rw [place, place, mirrored.unique.idxOf_getElem, mirrored.unique.idxOf_getElem]
  exact before

end NeuralGraph.Graph
