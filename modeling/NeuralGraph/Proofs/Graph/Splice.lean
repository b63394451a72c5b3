import NeuralGraph.Proofs.Graph.WellFormed

/-! Layers that join and leave a graph. A new layer joins without edges and gets them link by
link; a layer leaves after its edges are gone. Each structural edit keeps the invariant. -/

namespace NeuralGraph

namespace Layer

theorem source?_new (id : LayerId) (kind : LayerKind) (name : String) (index : Nat) :
    (Layer.new id kind name).source? index = none := by
  by_cases inside : index < kind.inputCount <;>
    simp [source?, new, inside]

theorem readers_new (id : LayerId) (kind : LayerKind) (name : String) (index : Nat) :
    (Layer.new id kind name).readers index = [] := by
  by_cases inside : index < kind.outputCount <;>
    simp [readers, new, inside]

@[simp] theorem source?_withInfo (layer : Layer) (slot : Nat) (info : Option TensorInfo)
    (index : Nat) : (layer.withInfo slot info).source? index = layer.source? index := rfl

@[simp] theorem readers_withInfo (layer : Layer) (slot : Nat) (info : Option TensorInfo)
    (index : Nat) : (layer.withInfo slot info).readers index = layer.readers index := by
  simp only [readers, withInfo, List.getElem?_modify]
  by_cases same : slot = index
  · simp [same, Function.comp_def]
  · simp [same]

end Layer

namespace Graph

variable {graph : Graph}

/-- The graph with one more layer, without edges and under the next id, at any position. -/
structure Placed (graph : Graph) (layer : Layer) (placed : Graph) : Prop where
  layers : placed.layers.Perm (layer :: graph.layers)
  nextId : placed.nextId = graph.nextId + 1
  id : layer.id = graph.nextId
  unread : ∀ index, layer.readers index = []
  unconnected : ∀ index, layer.source? index = none

namespace Placed

variable {placed : Graph} {layer : Layer}

theorem ids_perm (joins : graph.Placed layer placed) :
    placed.ids.Perm (graph.nextId :: graph.ids) := by
  simpa [ids, joins.id] using joins.layers.map (·.id)

theorem unique (joins : graph.Placed layer placed) (wired : graph.Wired) : placed.ids.Nodup :=
  joins.ids_perm.nodup_iff.mpr <|
    List.nodup_cons.mpr ⟨fun old => Nat.lt_irrefl _ (wired.fresh _ old), wired.unique⟩

theorem find? (joins : graph.Placed layer placed) (wired : graph.Wired) (id : LayerId) :
    placed.find? id = if id = graph.nextId then some layer else graph.find? id := by
  apply Option.ext
  intro other
  rw [find?_eq_some_iff (joins.unique wired), joins.layers.mem_iff, List.mem_cons]
  by_cases new : id = graph.nextId
  · rw [if_pos new, Option.some.injEq]
    constructor
    · rintro ⟨rfl | old, same⟩
      · rfl
      · exact absurd (wired.fresh _ (List.mem_map_of_mem old)) (by simp [same, new])
    · rintro rfl
      exact ⟨.inl rfl, joins.id.trans new.symm⟩
  · rw [if_neg new, find?_eq_some_iff wired.unique]
    constructor
    · rintro ⟨rfl | old, same⟩
      · exact absurd (same.symm.trans joins.id) new
      · exact ⟨old, same⟩
    · rintro ⟨old, same⟩
      exact ⟨.inr old, same⟩

theorem sourceOf? (joins : graph.Placed layer placed) (wired : graph.Wired) (target : InputRef) :
    placed.sourceOf? target = graph.sourceOf? target := by
  rw [Graph.sourceOf?, Graph.sourceOf?, joins.find? wired]
  split
  · rename_i new
    have absent : graph.find? target.layer = none :=
      find?_eq_none_iff.mpr fun old => Nat.lt_irrefl _ (new ▸ wired.fresh _ old)
    simp [absent, joins.unconnected]
  · rfl

theorem readersOf (joins : graph.Placed layer placed) (wired : graph.Wired) (source : OutputRef) :
    placed.readersOf source = graph.readersOf source := by
  rw [Graph.readersOf, Graph.readersOf, joins.find? wired]
  split
  · rename_i new
    have absent : graph.find? source.layer = none :=
      find?_eq_none_iff.mpr fun old => Nat.lt_irrefl _ (new ▸ wired.fresh _ old)
    simp [absent, joins.unread]
  · rfl

theorem hasInput (joins : graph.Placed layer placed) (wired : graph.Wired) {target : InputRef}
    (slot : graph.HasInput target) : placed.HasInput target := by
  obtain ⟨holder, found, inside⟩ := slot
  have old : target.layer ≠ graph.nextId := fun new =>
    Nat.lt_irrefl _ (new ▸ wired.fresh _ (mem_ids_of_find? found))
  exact ⟨holder, by rw [joins.find? wired, if_neg old, found], inside⟩

theorem hasOutput (joins : graph.Placed layer placed) (wired : graph.Wired) {source : OutputRef}
    (slot : graph.HasOutput source) : placed.HasOutput source := by
  obtain ⟨holder, found, inside⟩ := slot
  have old : source.layer ≠ graph.nextId := fun new =>
    Nat.lt_irrefl _ (new ▸ wired.fresh _ (mem_ids_of_find? found))
  exact ⟨holder, by rw [joins.find? wired, if_neg old, found], inside⟩

theorem wired (joins : graph.Placed layer placed) (wired : graph.Wired) : placed.Wired where
  unique := joins.unique wired
  fresh := by
    intro id member
    rw [joins.nextId]
    rcases List.mem_cons.mp (joins.ids_perm.mem_iff.mp member) with rfl | old
    · exact Nat.lt_succ_self _
    · exact Nat.lt_succ_of_lt (wired.fresh id old)
  edges := by
    intro source target
    rw [joins.readersOf wired, joins.sourceOf? wired, wired.edges]

theorem ranked (joins : graph.Placed layer placed) (wired : graph.Wired) {rank : LayerId → Nat}
    (ranked : graph.Ranked rank) : placed.Ranked rank := by
  intro target source reads
  exact ranked target source (by rwa [joins.sourceOf? wired] at reads)

theorem wellFormed (joins : graph.Placed layer placed) (valid : graph.WellFormed) :
    placed.WellFormed where
  toWired := joins.wired valid.toWired
  ranked := valid.ranked.imp fun _ ranked => joins.ranked valid.toWired ranked

end Placed

theorem placed_addLayer (graph : Graph) (kind : LayerKind) (name : String) :
    graph.Placed (.new graph.nextId kind name) (graph.addLayer kind name).2 where
  layers := List.perm_append_singleton _ _
  nextId := rfl
  id := rfl
  unread := Layer.readers_new _ _ _
  unconnected := Layer.source?_new _ _ _

theorem placeBefore_perm (anchor : LayerId) (layer : Layer) (layers : List Layer) :
    (placeBefore anchor layer layers).Perm (layer :: layers) := by
  induction layers with
  | nil => exact .refl _
  | cons head rest ih =>
    rw [placeBefore]
    split
    · exact .refl _
    · exact (ih.cons head).trans (.swap layer head rest)

theorem placeAfter_perm (anchor : LayerId) (layer : Layer) (layers : List Layer) :
    (placeAfter anchor layer layers).Perm (layer :: layers) := by
  induction layers with
  | nil => exact .refl _
  | cons head rest ih =>
    rw [placeAfter]
    split
    · exact .swap layer head rest
    · exact (ih.cons head).trans (.swap layer head rest)

/-- The layer that a splice brings in. -/
theorem placed_of_perm {layers : List Layer} {kind : LayerKind} {name : String}
    {info : Option TensorInfo}
    (perm : layers.Perm ((Layer.new graph.nextId kind name).withInfo 0 info :: graph.layers)) :
    graph.Placed ((Layer.new graph.nextId kind name).withInfo 0 info)
      { layers, nextId := graph.nextId + 1 } where
  layers := perm
  nextId := rfl
  id := rfl
  unread := fun index => by simp [Layer.readers_new]
  unconnected := fun index => by simp [Layer.source?_new]

theorem placed_placedBefore (graph : Graph) (anchor : LayerId) (kind : LayerKind) (name : String)
    (info : Option TensorInfo) :
    graph.Placed ((Layer.new graph.nextId kind name).withInfo 0 info)
      (graph.placedBefore anchor kind name info) :=
  placed_of_perm (placeBefore_perm _ _ _)

theorem placed_placedAfter (graph : Graph) (anchor : LayerId) (kind : LayerKind) (name : String)
    (info : Option TensorInfo) :
    graph.Placed ((Layer.new graph.nextId kind name).withInfo 0 info)
      (graph.placedAfter anchor kind name info) :=
  placed_of_perm (placeAfter_perm _ _ _)

/-- A layer that fits into an edge comes with both ends for it. -/
theorem Placed.spliced {placed : Graph} {kind : LayerKind} {name : String}
    {info : Option TensorInfo}
    (joins : graph.Placed ((Layer.new graph.nextId kind name).withInfo 0 info) placed)
    (wired : graph.Wired) (fits : kind.inputCount = 1 ∧ kind.outputCount = 1) :
    placed.HasInput ⟨graph.nextId, 0⟩ ∧ placed.HasOutput ⟨graph.nextId, 0⟩ := by
  have found := joins.find? wired graph.nextId
  rw [if_pos rfl] at found
  exact ⟨⟨_, found, by simp [Layer.withInfo, Layer.new, fits]⟩,
    ⟨_, found, by simp [Layer.withInfo, Layer.new, fits]⟩⟩

@[simp] theorem ids_moveConsumers (source target : OutputRef) (readers : List InputRef)
    (graph : Graph) : (graph.moveConsumers source target readers).ids = graph.ids := by
  induction readers generalizing graph with
  | nil => rfl
  | cons reader rest ih => exact (ih _).trans (by simp)

@[simp] theorem nextId_moveConsumers (source target : OutputRef) (readers : List InputRef)
    (graph : Graph) : (graph.moveConsumers source target readers).nextId = graph.nextId := by
  induction readers generalizing graph with
  | nil => rfl
  | cons reader rest ih => exact ih _

@[simp] theorem hasInput_moveConsumers (source target : OutputRef) (readers : List InputRef)
    (graph : Graph) (slot : InputRef) :
    (graph.moveConsumers source target readers).HasInput slot ↔ graph.HasInput slot := by
  induction readers generalizing graph with
  | nil => rfl
  | cons reader rest ih => exact (ih _).trans (by simp)

@[simp] theorem hasOutput_moveConsumers (source target : OutputRef) (readers : List InputRef)
    (graph : Graph) (slot : OutputRef) :
    (graph.moveConsumers source target readers).HasOutput slot ↔ graph.HasOutput slot := by
  induction readers generalizing graph with
  | nil => rfl
  | cons reader rest ih => exact (ih _).trans (by simp)

/-- Readers of one slot become readers of another, in the same order. -/
theorem moveConsumers_spec {source target : OutputRef} {readers : List InputRef}
    (wired : graph.Wired) (output : graph.HasOutput target) (distinct : readers.Nodup)
    (reads : ∀ reader ∈ readers, graph.sourceOf? reader = some source) :
    (graph.moveConsumers source target readers).Wired ∧
      ∀ reader, (graph.moveConsumers source target readers).sourceOf? reader =
        if reader ∈ readers then some target else graph.sourceOf? reader := by
  induction readers generalizing graph with
  | nil => simpa [moveConsumers] using wired
  | cons reader rest ih =>
    obtain ⟨notLater, distinctRest⟩ := List.nodup_cons.mp distinct
    have readsHead : graph.sourceOf? reader = some source := reads reader List.mem_cons_self
    have input : (graph.unlink source reader).HasInput reader :=
      (hasInput_unlink _ _ _).mpr (.of_sourceOf? readsHead)
    have outputLeft : (graph.unlink source reader).HasOutput target :=
      (hasOutput_unlink _ _ _).mpr output
    have sources : ∀ other, ((graph.unlink source reader).link target reader).sourceOf? other =
        if other = reader then some target else graph.sourceOf? other := by
      intro other
      rw [sourceOf?_link input, sourceOf?_unlink]
      split <;> rfl
    have moved : ((graph.unlink source reader).link target reader).Wired :=
      (wired.unlink readsHead).link outputLeft input (by simp [sourceOf?_unlink])
    have readsRest : ∀ other ∈ rest,
        ((graph.unlink source reader).link target reader).sourceOf? other = some source := by
      intro other later
      rw [sources, if_neg fun same : other = reader => notLater (same ▸ later)]
      exact reads other (List.mem_cons_of_mem _ later)
    obtain ⟨finalWired, finalSources⟩ :=
      ih moved (by simpa using output) distinctRest readsRest
    refine ⟨finalWired, fun other => ?_⟩
    rw [moveConsumers, finalSources, sources]
    by_cases head : other = reader <;> by_cases later : other ∈ rest <;> simp [head, later]

/-- Clearing one input slot of a layer and then all later ones clears the slots from there on. -/
private theorem cleared_from {next after : Graph} {id : LayerId} {index : Nat}
    (first : ∀ target, next.sourceOf? target =
      if target = ⟨id, index⟩ then none else graph.sourceOf? target)
    (rest : ∀ target, after.sourceOf? target =
      if target.layer = id ∧ index + 1 ≤ target.index then none else next.sourceOf? target)
    (target : InputRef) : after.sourceOf? target =
      if target.layer = id ∧ index ≤ target.index then none else graph.sourceOf? target := by
  obtain ⟨layer, slotIndex⟩ := target
  rw [rest, first]
  by_cases sameLayer : layer = id
  · by_cases sameIndex : slotIndex = index
    · simp [sameLayer, sameIndex]
    · have later : index + 1 ≤ slotIndex ↔ index ≤ slotIndex := by omega
      simp [sameLayer, sameIndex, later]
  · simp [sameLayer]

/-- Readers of one input slot and then of all later ones leave: those from there on are gone. -/
private theorem unread_from {next after : Graph} {id : LayerId} {index : Nat}
    (first : ∀ source, next.readersOf source =
      (graph.readersOf source).filter (· ≠ ⟨id, index⟩))
    (rest : ∀ source, after.readersOf source = (next.readersOf source).filter fun reader =>
      ¬(reader.layer = id ∧ index + 1 ≤ reader.index))
    (source : OutputRef) : after.readersOf source = (graph.readersOf source).filter fun reader =>
      ¬(reader.layer = id ∧ index ≤ reader.index) := by
  rw [rest, first, List.filter_filter]
  apply List.filter_congr
  rintro ⟨layer, slotIndex⟩ _
  rw [← Bool.decide_and, decide_eq_decide, ne_eq, InputRef.mk.injEq]
  constructor
  · rintro ⟨later, other⟩ ⟨sameLayer, inside⟩
    exact later ⟨sameLayer, Nat.lt_of_le_of_ne inside fun same => other ⟨sameLayer, same.symm⟩⟩
  · intro outside
    refine ⟨fun ⟨sameLayer, later⟩ => outside ⟨sameLayer, Nat.le_of_succ_le later⟩, ?_⟩
    rintro ⟨sameLayer, same⟩
    exact outside ⟨sameLayer, Nat.le_of_eq same.symm⟩

/-- What every reader of an output passes removes none of them. -/
theorem Wired.filter_readersOf (wired : graph.Wired) {source : OutputRef} {keep : InputRef → Bool}
    (kept : ∀ reader, graph.sourceOf? reader = some source → keep reader = true) :
    (graph.readersOf source).filter keep = graph.readersOf source :=
  List.filter_eq_self.mpr fun reader member => kept reader (wired.mem_readersOf.mp member)

/-- A reader that leaves its source is nowhere recorded any more. -/
theorem Wired.readersOf_unlink (wired : graph.Wired) {source : OutputRef} {target : InputRef}
    (reads : graph.sourceOf? target = some source) (other : OutputRef) :
    (graph.unlink source target).readersOf other =
      (graph.readersOf other).filter (· ≠ target) := by
  rw [Graph.readersOf_unlink]
  split
  · rename_i same
    rw [same]
  · rename_i apart
    refine (wired.filter_readersOf fun reader recorded => ?_).symm
    rw [decide_eq_true_eq]
    rintro rfl
    rw [reads, Option.some.injEq] at recorded
    exact apart recorded.symm

@[simp] theorem ids_unlinkInputs (id : LayerId) (index : Nat) (slots : List InputSlot)
    (graph : Graph) : (graph.unlinkInputs id index slots).ids = graph.ids := by
  induction slots generalizing graph index with
  | nil => rfl
  | cons slot slots ih =>
    rw [unlinkInputs]
    cases slot.source with
    | none => exact ih (index + 1) graph
    | some source => exact (ih (index + 1) _).trans (ids_unlink source ⟨id, index⟩)

/-- Inputs that agree with the recorded sources lose them all, their sources lose these readers, and
nothing else changes. -/
theorem unlinkInputs_spec {id : LayerId} {index : Nat} {slots : List InputSlot}
    (wired : graph.Wired)
    (agree : ∀ offset, graph.sourceOf? ⟨id, index + offset⟩ = slots[offset]?.bind (·.source)) :
    (graph.unlinkInputs id index slots).Wired ∧
      (graph.unlinkInputs id index slots).nextId = graph.nextId ∧
      (∀ target, (graph.unlinkInputs id index slots).sourceOf? target =
        if target.layer = id ∧ index ≤ target.index then none else graph.sourceOf? target) ∧
      ∀ source, (graph.unlinkInputs id index slots).readersOf source =
        (graph.readersOf source).filter fun reader =>
          ¬(reader.layer = id ∧ index ≤ reader.index) := by
  induction slots generalizing graph index with
  | nil =>
    have unread : ∀ target : InputRef, target.layer = id ∧ index ≤ target.index →
        graph.sourceOf? target = none := by
      rintro target ⟨rfl, later⟩
      have empty := agree (target.index - index)
      rw [Nat.add_sub_cancel' later] at empty
      simpa using empty
    refine ⟨wired, rfl, fun target => ?_, fun source => ?_⟩
    · split
      · rename_i inside
        exact unread target inside
      · rfl
    · refine (wired.filter_readersOf fun reader recorded => ?_).symm
      rw [decide_eq_true_eq]
      intro inside
      rw [unread reader inside] at recorded
      cases recorded
  | cons slot rest ih =>
    have head : graph.sourceOf? ⟨id, index⟩ = slot.source := by simpa using agree 0
    cases reads : slot.source with
    | none =>
      have agreeRest : ∀ offset,
          graph.sourceOf? ⟨id, index + 1 + offset⟩ = rest[offset]?.bind (·.source) := by
        intro offset
        simpa [Nat.add_assoc, Nat.add_comm 1] using agree (offset + 1)
      obtain ⟨finalWired, nextId, sources, readers⟩ := ih wired agreeRest
      simp only [unlinkInputs, reads]
      refine ⟨finalWired, nextId, cleared_from (fun target => ?_) sources,
        unread_from (fun source => ?_) readers⟩
      · split
        · rename_i same
          rw [same, head, reads]
        · rfl
      · refine (wired.filter_readersOf fun reader recorded => ?_).symm
        rw [decide_eq_true_eq]
        rintro rfl
        rw [head, reads] at recorded
        cases recorded
    | some source =>
      have agreeRest : ∀ offset, (graph.unlink source ⟨id, index⟩).sourceOf?
          ⟨id, index + 1 + offset⟩ = rest[offset]?.bind (·.source) := by
        intro offset
        rw [sourceOf?_unlink, if_neg (by simp; omega)]
        simpa [Nat.add_assoc, Nat.add_comm 1] using agree (offset + 1)
      obtain ⟨finalWired, nextId, sources, readers⟩ :=
        ih (wired.unlink (head.trans reads)) agreeRest
      simp only [unlinkInputs, reads]
      exact ⟨finalWired, by simpa using nextId,
        cleared_from (sourceOf?_unlink source ⟨id, index⟩) sources,
        unread_from (wired.readersOf_unlink (head.trans reads)) readers⟩

theorem ids_without_sublist (graph : Graph) (id : LayerId) :
    (graph.without id).ids.Sublist graph.ids := List.filter_sublist.map _

theorem find?_without (unique : graph.ids.Nodup) (id other : LayerId) :
    (graph.without id).find? other = if other = id then none else graph.find? other := by
  apply Option.ext
  intro layer
  rw [find?_eq_some_iff (unique.sublist (ids_without_sublist graph id)), Graph.without,
    List.mem_filter]
  by_cases same : other = id
  · simp only [if_pos same, reduceCtorEq, iff_false]
    rintro ⟨⟨_, kept⟩, sameId⟩
    exact absurd (sameId.trans same) (by simpa using kept)
  · rw [if_neg same, find?_eq_some_iff unique]
    constructor
    · rintro ⟨⟨member, _⟩, sameId⟩
      exact ⟨member, sameId⟩
    · rintro ⟨member, sameId⟩
      exact ⟨⟨member, by simpa [sameId] using same⟩, sameId⟩

/-- A layer that has no edges left may go. -/
theorem Wired.without (wired : graph.Wired) {id : LayerId}
    (unconnected : ∀ index, graph.sourceOf? ⟨id, index⟩ = none)
    (unread : ∀ index, graph.readersOf ⟨id, index⟩ = []) :
    (graph.without id).Wired ∧
      ∀ target, (graph.without id).sourceOf? target = graph.sourceOf? target := by
  have sublist := ids_without_sublist graph id
  have found := find?_without wired.unique id
  have sources : ∀ target, (graph.without id).sourceOf? target = graph.sourceOf? target := by
    rintro ⟨other, index⟩
    simp only [sourceOf?, found]
    split
    · rename_i same
      simpa [sourceOf?, same] using (unconnected index).symm
    · rfl
  refine ⟨⟨wired.unique.sublist sublist, ?_, ?_⟩, sources⟩
  · exact fun other member => wired.fresh other (sublist.subset member)
  · rintro ⟨other, index⟩ target
    rw [sources, ← wired.edges]
    congr 1
    simp only [readersOf, found]
    split
    · rename_i same
      simpa [readersOf, same] using (unread index).symm
    · rfl

/-- The ids of a later graph are old ones or come from the supply, which never goes back. -/
structure Extends (before after : Graph) : Prop where
  nextId : before.nextId ≤ after.nextId
  ids : ∀ id ∈ after.ids, id ∈ before.ids ∨ before.nextId ≤ id

theorem Extends.of_ids {after : Graph} (nextId : after.nextId = graph.nextId)
    (ids : after.ids = graph.ids) : graph.Extends after where
  nextId := Nat.le_of_eq nextId.symm
  ids := fun _ member => .inl (ids ▸ member)

theorem Placed.extends {layer : Layer} {placed : Graph} (joins : graph.Placed layer placed) :
    graph.Extends placed where
  nextId := by
    rw [joins.nextId]
    exact Nat.le_succ _
  ids := by
    intro id member
    rcases List.mem_cons.mp (joins.ids_perm.mem_iff.mp member) with rfl | old
    · exact .inr (Nat.le_refl _)
    · exact .inl old

variable {after : Graph}

theorem WellFormed.connect (valid : graph.WellFormed) {source : OutputRef} {target : InputRef}
    (accepted : graph.connect source target = .ok after) :
    after.WellFormed ∧ graph.Extends after := by
  obtain ⟨output, input, free, noPath, rfl⟩ := connect_eq_ok.mp accepted
  refine ⟨valid.link output input free ?_, .of_ids rfl (by simp)⟩
  intro path
  simp [reaches_iff.mpr path] at noPath

theorem WellFormed.disconnect (valid : graph.WellFormed) {source : OutputRef} {target : InputRef}
    (accepted : graph.disconnect target = .ok (source, after)) :
    after.WellFormed ∧ graph.Extends after := by
  obtain ⟨reads, rfl⟩ := disconnect_eq_ok.mp accepted
  exact ⟨valid.unlink reads, .of_ids rfl (by simp)⟩

theorem WellFormed.addLayer (valid : graph.WellFormed) (kind : LayerKind) (name : String) :
    (graph.addLayer kind name).2.WellFormed ∧ graph.Extends (graph.addLayer kind name).2 :=
  ⟨(placed_addLayer graph kind name).wellFormed valid, (placed_addLayer graph kind name).extends⟩

theorem WellFormed.cloneInto (valid : graph.WellFormed) {origin : Graph} {id fresh : LayerId}
    (accepted : origin.cloneInto id graph = .ok (fresh, after)) :
    after.WellFormed ∧ graph.Extends after := by
  obtain ⟨layer, _, added⟩ := cloneInto_eq_ok.mp accepted
  have grown := valid.addLayer layer.kind layer.name
  rwa [added] at grown

theorem WellFormed.remove (valid : graph.WellFormed) {id : LayerId} {removed : Layer}
    (accepted : graph.remove id = .ok (removed, after)) :
    after.WellFormed ∧ graph.Extends after ∧ id ∉ after.ids := by
  obtain ⟨layer, found, unread, _, rfl⟩ := remove_eq_ok.mp accepted
  have agree : ∀ offset,
      graph.sourceOf? ⟨id, 0 + offset⟩ = layer.inputs[offset]?.bind (·.source) := by
    intro offset
    rw [Nat.zero_add, sourceOf?_of_find? found]
    rfl
  obtain ⟨wired, nextId, sources, readers⟩ := unlinkInputs_spec valid.toWired agree
  have noReaders : ∀ index, (graph.unlinkInputs id 0 layer.inputs).readersOf ⟨id, index⟩ = [] := by
    intro index
    apply List.eq_nil_iff_forall_not_mem.mpr
    intro reader member
    have old := List.mem_of_mem_filter (readers _ ▸ member)
    rw [readersOf_of_find? found] at old
    simpa [unread] using Layer.mem_consumers.mpr ⟨index, old⟩
  obtain ⟨finalWired, finalSources⟩ :=
    wired.without (fun index => by simp [sources]) noReaders
  obtain ⟨rank, ranked⟩ := valid.ranked
  refine ⟨⟨finalWired, rank, ?_⟩, ⟨Nat.le_of_eq nextId.symm, ?_⟩, ?_⟩
  · intro target source reads
    rw [finalSources, sources] at reads
    split at reads
    · cases reads
    · exact ranked target source reads
  · intro other member
    exact .inl (ids_unlinkInputs id 0 _ graph ▸ (ids_without_sublist _ id).subset member)
  · simp [Graph.ids, Graph.without]

/-- Edits of different layers commute, and so do edits of one layer that commute there. -/
theorem modify_comm {f g : Layer → Layer} (keepsLeft : ∀ layer, (f layer).id = layer.id)
    (keepsRight : ∀ layer, (g layer).id = layer.id) {first second : LayerId}
    (comm : first ≠ second ∨ ∀ layer, f (g layer) = g (f layer)) :
    (graph.modify first f).modify second g = (graph.modify second g).modify first f := by
  simp only [modify, List.map_map]
  congr 1
  apply List.map_congr_left
  intro layer _
  simp only [Function.comp_apply]
  split_ifs <;> simp_all

/-- Edges between different layers may be recorded in either order. -/
theorem link_comm {first second : OutputRef} {left right : InputRef}
    (sources : first.layer ≠ second.layer) (targets : left.layer ≠ right.layer) :
    (graph.link first left).link second right = (graph.link second right).link first left := by
  have ends : ∀ (graph : Graph) (source : OutputRef) (target reader : InputRef)
      (value : Option OutputRef),
      (graph.modify target.layer (·.withSource target.index value)).modify source.layer
          (·.mapConsumers source.index (· ++ [reader])) =
        (graph.modify source.layer (·.mapConsumers source.index (· ++ [reader]))).modify
          target.layer (·.withSource target.index value) := by
    intro graph source target reader value
    exact modify_comm (f := (·.withSource target.index value))
      (g := (·.mapConsumers source.index (· ++ [reader]))) (fun _ => rfl) (fun _ => rfl)
      (.inr fun _ => rfl)
  simp only [link]
  rw [ends, ends, modify_comm (f := (·.mapConsumers first.index (· ++ [left])))
      (g := (·.mapConsumers second.index (· ++ [right]))) (fun _ => rfl) (fun _ => rfl)
      (.inl sources),
    modify_comm (f := (·.withSource left.index (some first)))
      (g := (·.withSource right.index (some second))) (fun _ => rfl) (fun _ => rfl) (.inl targets)]

variable {placed : Graph} {source : OutputRef} {moved : List InputRef} {kind : LayerKind}
  {name : String} {id : LayerId}

/-- The given readers move to the layer under the next id, which then reads the slot that they
read. -/
def reroute (graph placed : Graph) (source : OutputRef) (moved : List InputRef) : Graph :=
  (placed.moveConsumers source ⟨graph.nextId, 0⟩ moved).link source ⟨graph.nextId, 0⟩

@[simp] theorem ids_reroute (graph placed : Graph) (source : OutputRef) (moved : List InputRef) :
    (graph.reroute placed source moved).ids = placed.ids := by
  simp [reroute]

@[simp] theorem nextId_reroute (graph placed : Graph) (source : OutputRef)
    (moved : List InputRef) : (graph.reroute placed source moved).nextId = placed.nextId := by
  simp [reroute]

theorem Wired.insertBefore_reroutes (wired : graph.Wired) {target : InputRef}
    (accepted : graph.insertBefore target kind name = .ok (id, after)) :
    (kind.inputCount = 1 ∧ kind.outputCount = 1) ∧ id = graph.nextId ∧
      ∃ source, graph.sourceOf? target = some source ∧
        after = graph.reroute (graph.placedBefore target.layer kind name (graph.slotInfo? source))
          source [target] := by
  obtain ⟨fits, source, reads, rfl, rfl⟩ := insertBefore_eq_ok.mp accepted
  obtain ⟨sourceOld, targetOld⟩ := wired.ne_nextId reads
  refine ⟨fits, rfl, source, reads, ?_⟩
  rw [link_comm sourceOld targetOld.symm]
  rfl

theorem insertAfter_reroutes
    (accepted : graph.insertAfter source kind name = .ok (id, after)) :
    (kind.inputCount = 1 ∧ kind.outputCount = 1) ∧ id = graph.nextId ∧ graph.HasOutput source ∧
      after = graph.reroute (graph.placedAfter source.layer kind name (graph.slotInfo? source))
        source (graph.readersOf source) := by
  obtain ⟨fits, output, rfl, rfl⟩ := insertAfter_eq_ok.mp accepted
  exact ⟨fits, rfl, output, rfl⟩

theorem Placed.wired_reroute {info : Option TensorInfo}
    (joins : graph.Placed ((Layer.new graph.nextId kind name).withInfo 0 info) placed)
    (wired : graph.Wired) (fits : kind.inputCount = 1 ∧ kind.outputCount = 1)
    (output : graph.HasOutput source) (distinct : moved.Nodup)
    (former : ∀ slot ∈ moved, graph.sourceOf? slot = some source) :
    (graph.reroute placed source moved).Wired ∧
      ∀ slot, (graph.reroute placed source moved).sourceOf? slot =
        if slot = ⟨graph.nextId, 0⟩ then some source
        else if slot ∈ moved then some ⟨graph.nextId, 0⟩ else graph.sourceOf? slot := by
  obtain ⟨newInput, newOutput⟩ := joins.spliced wired fits
  obtain ⟨movedWired, sources⟩ := moveConsumers_spec (joins.wired wired) newOutput distinct
    fun slot member => (joins.sourceOf? wired slot).trans (former slot member)
  have newSlot : (placed.moveConsumers source ⟨graph.nextId, 0⟩ moved).HasInput
      ⟨graph.nextId, 0⟩ := by simpa using newInput
  have oldSlot : (placed.moveConsumers source ⟨graph.nextId, 0⟩ moved).HasOutput source := by
    simpa using joins.hasOutput wired output
  have notMoved : ⟨graph.nextId, 0⟩ ∉ moved := fun member =>
    (wired.ne_nextId (former _ member)).2 rfl
  have free : placed.sourceOf? ⟨graph.nextId, 0⟩ = none := by
    rw [Graph.sourceOf?, joins.find? wired, if_pos rfl]
    exact joins.unconnected 0
  constructor
  · exact movedWired.link oldSlot newSlot (by rw [sources, if_neg notMoved, free])
  · intro slot
    rw [reroute, sourceOf?_link newSlot, sources, joins.sourceOf? wired]

/-- The old ranks are doubled, which leaves a level for the new layer right above the one that it
reads. -/
theorem Placed.wellFormed_reroute {info : Option TensorInfo}
    (joins : graph.Placed ((Layer.new graph.nextId kind name).withInfo 0 info) placed)
    (valid : graph.WellFormed) (fits : kind.inputCount = 1 ∧ kind.outputCount = 1)
    (output : graph.HasOutput source) (distinct : moved.Nodup)
    (former : ∀ slot ∈ moved, graph.sourceOf? slot = some source) :
    (graph.reroute placed source moved).WellFormed ∧
      graph.Extends (graph.reroute placed source moved) := by
  have wired := valid.toWired
  obtain ⟨rerouted, sources⟩ := joins.wired_reroute wired fits output distinct former
  obtain ⟨rank, ranked⟩ := valid.ranked
  have sourceOld : source.layer ≠ graph.nextId := by
    obtain ⟨_, found, _⟩ := output
    exact Nat.ne_of_lt (wired.fresh _ (mem_ids_of_find? found))
  refine ⟨⟨rerouted, fun id => if id = graph.nextId then 2 * rank source.layer + 1
    else 2 * rank id, ?_⟩, ⟨?_, ?_⟩⟩
  · intro reader origin reads
    rw [sources] at reads
    split at reads
    · rename_i entry
      cases reads
      simp [entry, sourceOld]
    · split at reads
      · rename_i member
        cases reads
        have readsOld := former reader member
        have grows := ranked reader source readsOld
        simp only [(wired.ne_nextId readsOld).2, if_true, if_false]
        omega
      · obtain ⟨producerOld, consumerOld⟩ := wired.ne_nextId reads
        have grows := ranked reader origin reads
        simp only [producerOld, consumerOld, if_false]
        omega
  · simpa using joins.extends.nextId
  · simpa using joins.extends.ids

theorem WellFormed.insertBefore (valid : graph.WellFormed) {target : InputRef} {kind : LayerKind}
    {name : String} {id : LayerId}
    (accepted : graph.insertBefore target kind name = .ok (id, after)) :
    after.WellFormed ∧ graph.Extends after := by
  have wired := valid.toWired
  obtain ⟨fits, _, source, reads, rfl⟩ := wired.insertBefore_reroutes accepted
  apply (placed_placedBefore graph _ kind name _).wellFormed_reroute valid fits
    (wired.hasOutput reads) (List.nodup_singleton target)
  intro slot member
  rw [List.mem_singleton.mp member, reads]

theorem WellFormed.insertAfter (valid : graph.WellFormed) {source : OutputRef} {kind : LayerKind}
    {name : String} {id : LayerId}
    (accepted : graph.insertAfter source kind name = .ok (id, after)) :
    after.WellFormed ∧ graph.Extends after := by
  have wired := valid.toWired
  obtain ⟨fits, _, output, rfl⟩ := insertAfter_reroutes accepted
  apply (placed_placedAfter graph _ kind name _).wellFormed_reroute valid fits output
    (wired.nodup_readersOf source)
  exact fun slot member => wired.mem_readersOf.mp member

end Graph

end NeuralGraph
