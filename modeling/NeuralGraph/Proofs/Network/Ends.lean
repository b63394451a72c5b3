import NeuralGraph.Proofs.Backend.Descriptor
import NeuralGraph.Proofs.Network.Protocol

/-! The ends of a network. A binding stands for the memory of the last layer that has it, in the
order of the schedule, and memory is held to the declared shape where an operation layer reads or
fills it and nowhere else. -/

namespace NeuralGraph

/-- The slot of an input layer, under its binding. -/
def Layer.inputEnd? (layer : Layer) : Option (UInt32 × OutputRef) :=
  match layer.kind with
  | .input binding => some (binding, ⟨layer.id, 0⟩)
  | _ => none

/-- The slot that feeds an output layer, under its binding. -/
def Layer.outputEnd? (layer : Layer) : Option (UInt32 × OutputRef) :=
  match layer.kind with
  | .output binding => (layer.source? 0).map fun source => (binding, source)
  | _ => none

/-- Operation layers are no ends. -/
theorem Layer.ends_of_operation {layer : Layer} (operation : layer.kind.isBinding = false) :
    layer.inputEnd? = none ∧ layer.outputEnd? = none := by
  unfold inputEnd? outputEnd?
  cases kind : layer.kind <;> simp_all [LayerKind.isBinding]

/-- An operation layer works on the slots that it reads and on those that it fills. -/
def Layer.WorksOn (layer : Layer) (slot : OutputRef) : Prop :=
  layer.kind.isBinding = false ∧
    ((∃ input ∈ layer.inputs, input.source = some slot) ∨
      (slot.layer = layer.id ∧ slot.index < layer.outputs.length))

namespace Graph

/-- The ends of one side, in the order of their layers. -/
def ends (graph : Graph) (side : Layer → Option (UInt32 × OutputRef)) (order : List LayerId) :
    List (UInt32 × OutputRef) :=
  order.filterMap fun id => (graph.find? id).bind side

/-- The end of the last layer that has a binding. -/
def lastEnd? (graph : Graph) (side : Layer → Option (UInt32 × OutputRef)) (order : List LayerId)
    (binding : UInt32) : Option OutputRef :=
  (graph.ends side order).reverse.lookup binding

/-- Whether a slot is an end of one side, under a binding. -/
def IsEnd (graph : Graph) (side : Layer → Option (UInt32 × OutputRef)) (binding : UInt32)
    (slot : OutputRef) : Prop :=
  ∃ layer ∈ graph.layers, side layer = some (binding, slot)

/-- Whether some operation layer works on a slot. -/
def IsWorked (graph : Graph) (slot : OutputRef) : Prop :=
  ∃ layer ∈ graph.layers, layer.WorksOn slot

end Graph

/-- What the bindings of one side of a network stand for. -/
structure Exposes (graph : Graph) (handles : TensorHandles)
    (side : Layer → Option (UInt32 × OutputRef)) (order : List LayerId)
    (exposed : UInt32 → Option Handle) : Prop where
  /-- A binding gives the memory that was supplied for its last end. -/
  last (binding : UInt32) : exposed binding =
    (graph.lastEnd? side order binding).bind handles.find?
  /-- Memory was supplied for every end. -/
  supplied {binding : UInt32} {slot : OutputRef} (isEnd : graph.IsEnd side binding slot) :
    (handles.find? slot).isSome = true
  /-- Every end is reached under its binding just when ends with one binding share their
  memory. -/
  reaches : (∀ binding slot, graph.IsEnd side binding slot →
      exposed binding = handles.find? slot) ↔
    ∀ binding slot other, graph.IsEnd side binding slot → graph.IsEnd side binding other →
      handles.find? slot = handles.find? other

namespace Graph

variable {graph : Graph} {side : Layer → Option (UInt32 × OutputRef)} {order : List LayerId}
  {binding : UInt32} {slot : OutputRef}

theorem mem_ends (unique : graph.ids.Nodup) (all : order.Perm graph.ids) :
    (binding, slot) ∈ graph.ends side order ↔ graph.IsEnd side binding slot := by
  unfold ends IsEnd
  rw [List.mem_filterMap]
  constructor
  · rintro ⟨id, _, shown⟩
    obtain ⟨layer, found, shown⟩ := Option.bind_eq_some_iff.mp shown
    exact ⟨layer, mem_of_find? found, shown⟩
  · rintro ⟨layer, member, shown⟩
    have found := (find?_eq_some_iff unique).mpr ⟨member, rfl⟩
    exact ⟨layer.id, all.mem_iff.mpr (mem_ids_of_find? found), by rw [found]; exact shown⟩

theorem isEnd_of_lastEnd? (unique : graph.ids.Nodup) (all : order.Perm graph.ids)
    (found : graph.lastEnd? side order binding = some slot) : graph.IsEnd side binding slot :=
  (mem_ends unique all).mp (List.mem_reverse.mp (mem_of_lookup found))

theorem exists_lastEnd? (unique : graph.ids.Nodup) (all : order.Perm graph.ids)
    (isEnd : graph.IsEnd side binding slot) :
    ∃ last, graph.lastEnd? side order binding = some last := by
  have member := List.mem_reverse.mpr ((mem_ends unique all).mpr isEnd)
  refine Option.ne_none_iff_exists'.mp fun missing => ?_
  simpa using List.lookup_eq_none_iff.mp missing _ member

end Graph

namespace TensorHandles

/-- Ends with the memory that was supplied for them. -/
def Supplies (handles : TensorHandles) (ends : List (UInt32 × OutputRef))
    (entries : List (UInt32 × Handle)) : Prop :=
  entries.map (fun entry => (entry.1, some entry.2)) =
    ends.map fun slot => (slot.1, handles.find? slot.2)

variable {handles : TensorHandles} {ends later : List (UInt32 × OutputRef)}
  {entries others : List (UInt32 × Handle)}

theorem Supplies.append (first : handles.Supplies ends entries)
    (second : handles.Supplies later others) :
    handles.Supplies (ends ++ later) (entries ++ others) := by
  simp only [Supplies, List.map_append] at *
  rw [first, second]

theorem Supplies.lookup (supplies : handles.Supplies ends entries) (binding : UInt32) :
    entries.lookup binding = (ends.lookup binding).bind handles.find? := by
  induction ends generalizing entries with
  | nil =>
    obtain rfl : entries = [] := by simpa [Supplies] using supplies
    rfl
  | cons slot ends ih =>
    cases entries with
    | nil => simp [Supplies] at supplies
    | cons entry entries =>
      obtain ⟨same, rest⟩ := List.cons.inj supplies
      obtain ⟨key, held⟩ := Prod.mk.inj same
      rw [show entry = (entry.1, entry.2) from rfl, show slot = (slot.1, slot.2) from rfl,
        lookup_cons_eq_ite, lookup_cons_eq_ite, ih rest, key]
      split
      · exact held
      · rfl

theorem Supplies.isSome (supplies : handles.Supplies ends entries) {slot : UInt32 × OutputRef}
    (member : slot ∈ ends) : (handles.find? slot.2).isSome = true := by
  have inside : (slot.1, handles.find? slot.2) ∈
      entries.map fun entry => (entry.1, some entry.2) := by
    rw [supplies]
    exact List.mem_map_of_mem (f := fun slot => (slot.1, handles.find? slot.2)) member
  obtain ⟨entry, _, same⟩ := List.mem_map.mp inside
  rw [← (Prod.mk.inj same).2]
  rfl

/-- Entries that are supplied for the ends of a side, the last end first, expose the side. -/
theorem Supplies.exposes {graph : Graph} {side : Layer → Option (UInt32 × OutputRef)}
    {order : List LayerId} (unique : graph.ids.Nodup) (all : order.Perm graph.ids)
    (supplies : handles.Supplies (graph.ends side order).reverse entries) :
    Exposes graph handles side order (List.lookup · entries) where
  last := supplies.lookup
  supplied isEnd :=
    supplies.isSome (List.mem_reverse.mpr ((Graph.mem_ends unique all).mpr isEnd))
  reaches := by
    constructor
    · intro reached binding slot other first second
      rw [← reached binding slot first, ← reached binding other second]
    · intro shared binding slot isEnd
      obtain ⟨last, found⟩ := Graph.exists_lastEnd? unique all isEnd
      have lookup := supplies.lookup binding
      rw [show (graph.ends side order).reverse.lookup binding = some last from found,
        Option.bind_some] at lookup
      rw [lookup]
      exact shared binding last slot (Graph.isEnd_of_lastEnd? unique all found) isEnd

end TensorHandles

namespace Loading

variable {loading next final : Loading} {registry : Registry} {handles : TensorHandles}
  {graph : Graph}

theorem supplies_input {layer : Layer} {binding : UInt32} {handle : Handle} {rest : List Handle}
    (kind : layer.kind = .input binding)
    (writes : outputHandles handles layer.label layer.id 0 layer.outputs.length =
      .ok (handle :: rest)) : handles.Supplies layer.inputEnd?.toList [(binding, handle)] := by
  have held := outputHandles_eq_ok.mp writes
  rw [List.map_cons] at held
  obtain ⟨_, _, range, first, _⟩ := List.map_eq_cons_iff.mp held.symm
  obtain ⟨rfl, _⟩ := List.range'_eq_cons_iff.mp range
  simp [TensorHandles.Supplies, Layer.inputEnd?, kind, first]

theorem supplies_output {layer : Layer} {binding : UInt32} {handle : Handle} {rest : List Handle}
    (kind : layer.kind = .output binding)
    (reads : inputHandles handles layer.label layer.inputs = .ok (handle :: rest)) :
    handles.Supplies layer.outputEnd?.toList [(binding, handle)] := by
  have held := inputHandles_eq_ok.mp reads
  rw [List.map_cons] at held
  obtain ⟨slot, slots, inputs, first, _⟩ := List.map_eq_cons_iff.mp held.symm
  obtain ⟨source, feeds, found⟩ := Option.bind_eq_some_iff.mp first
  simp [TensorHandles.Supplies, Layer.outputEnd?, Layer.source?, kind, inputs, feeds, found]

/-- Binds a layer to the memory around it, or compiles it. -/
def place (loading : Loading) (registry : Registry) (layer : Layer) (inputs outputs : List Handle) :
    Loading × Except Error Unit :=
  match layer.kind with
  | .input binding =>
    match outputs with
    | [] => (loading, .error .outOfBounds)
    | handle :: _ =>
      ({ loading with network := { loading.network with
          inputs := (binding, handle) :: loading.network.inputs } }, .ok ())
  | .output binding =>
    match inputs with
    | [] => (loading, .error .outOfBounds)
    | handle :: _ =>
      ({ loading with network := { loading.network with
          outputs := (binding, handle) :: loading.network.outputs } }, .ok ())
  | _ => loading.compile registry layer inputs outputs

/-- A step finds the memory around a layer, and places the layer there. -/
theorem step_eq_ok_iff {id : LayerId} : loading.step registry handles id = (next, .ok ()) ↔
    ∃ layer inputs outputs, loading.graph.find? id = some layer ∧
      inputHandles handles layer.label layer.inputs = .ok inputs ∧
      outputHandles handles layer.label layer.id 0 layer.outputs.length = .ok outputs ∧
      loading.place registry layer inputs outputs = (next, .ok ()) := by
  constructor
  · intro success
    unfold step at success
    dsimp only at success
    split at success
    · cases success
    · rename_i layer reading filling bound
      obtain ⟨stored, found, bound⟩ := Graph.get_bind_eq_ok.mp bound
      obtain ⟨inputs, reads, bound⟩ := bind_eq_ok.mp bound
      obtain ⟨outputs, writes, bound⟩ := bind_eq_ok.mp bound
      obtain ⟨rfl, rfl, rfl⟩ : stored = layer ∧ inputs = reading ∧ outputs = filling := by
        simpa using pure_eq_ok.mp bound
      obtain rfl := Graph.id_of_find? found
      exact ⟨_, _, _, found, reads, writes, success⟩
  · rintro ⟨layer, inputs, outputs, found, reads, writes, placed⟩
    obtain rfl := Graph.id_of_find? found
    unfold step
    simp only [Graph.get, found, reads, writes, bind_ok]
    exact placed

/-- What one layer adds to the ends of a network. -/
theorem step_ends {id : LayerId} (success : loading.step registry handles id = (next, .ok ())) :
    ∃ layer inputs outputs, loading.graph.find? id = some layer ∧
      next.network.inputs = inputs ++ loading.network.inputs ∧
      next.network.outputs = outputs ++ loading.network.outputs ∧
      handles.Supplies layer.inputEnd?.toList inputs ∧
      handles.Supplies layer.outputEnd?.toList outputs := by
  obtain ⟨layer, inputs, outputs, found, reads, writes, placed⟩ := step_eq_ok_iff.mp success
  have bare : TensorHandles.Supplies handles [] [] := rfl
  unfold place at placed
  split at placed
  · rename_i binding kind
    have other : layer.outputEnd? = none := by simp [Layer.outputEnd?, kind]
    split at placed
    · cases placed
    · cases placed
      exact ⟨layer, _, [], found, rfl, rfl, supplies_input kind writes, other ▸ bare⟩
  · rename_i binding kind
    have other : layer.inputEnd? = none := by simp [Layer.inputEnd?, kind]
    split at placed
    · cases placed
    · cases placed
      exact ⟨layer, [], _, found, rfl, rfl, other ▸ bare, supplies_output kind reads⟩
  · rename_i notInput notOutput
    obtain ⟨noInput, noOutput⟩ := Layer.ends_of_operation (isBinding_eq_false notInput notOutput)
    obtain ⟨_, _, _, _, _, _, _, _, _, rfl⟩ := compile_eq_ok placed
    exact ⟨layer, [], [], found, rfl, rfl, noInput ▸ bare, noOutput ▸ bare⟩

theorem reverse_ends_cons {id : LayerId} {ids : List LayerId} {layer : Layer}
    (found : graph.find? id = some layer) (side : Layer → Option (UInt32 × OutputRef)) :
    (graph.ends side (id :: ids)).reverse =
      (graph.ends side ids).reverse ++ (side layer).toList := by
  rw [Graph.ends, List.filterMap_cons, found, Option.bind_some]
  cases side layer with
  | none => simp [Graph.ends]
  | some slot => simp [Graph.ends]

/-- The ends that a run of layers adds: the last layer comes first. -/
theorem run_ends {ids : List LayerId}
    (agree : Graph.AgreeOn Layer.unresolved graph loading.graph)
    (success : run registry handles ids loading = (final, .ok ())) :
    ∃ inputs outputs, final.network.inputs = inputs ++ loading.network.inputs ∧
      final.network.outputs = outputs ++ loading.network.outputs ∧
      handles.Supplies (graph.ends Layer.inputEnd? ids).reverse inputs ∧
      handles.Supplies (graph.ends Layer.outputEnd? ids).reverse outputs := by
  induction ids generalizing loading with
  | nil =>
    cases success
    exact ⟨[], [], rfl, rfl, rfl, rfl⟩
  | cons id ids ih =>
    rw [run] at success
    split at success
    · cases success
    · rename_i next _ stepped
      have agree_next : Graph.AgreeOn Layer.unresolved graph next.graph := by
        have kept := loading.agree_step registry handles id
        rw [stepped] at kept
        exact agree.trans kept
      obtain ⟨laterIn, laterOut, inputs, outputs, suppliesIn, suppliesOut⟩ := ih agree_next success
      obtain ⟨stateful, ownIn, ownOut, found, addsIn, addsOut, ownSuppliesIn, ownSuppliesOut⟩ :=
        step_ends stepped
      obtain ⟨layer, stored, same⟩ := agree.exists_find? found
      rw [same] at ownSuppliesIn ownSuppliesOut
      refine ⟨laterIn ++ ownIn, laterOut ++ ownOut, ?_, ?_, ?_, ?_⟩
      · rw [inputs, addsIn, List.append_assoc]
      · rw [outputs, addsOut, List.append_assoc]
      · rw [reverse_ends_cons stored]
        exact suppliesIn.append ownSuppliesIn
      · rw [reverse_ends_cons stored]
        exact suppliesOut.append ownSuppliesOut

/-- The same loading with other ends. -/
def withEnds (loading : Loading) (ends : Network) : Loading :=
  { loading with network := { ends with layers := loading.network.layers } }

theorem compile_withEnds (loading : Loading) (ends : Network) (registry : Registry)
    (layer : Layer) (inputs outputs : List Handle) :
    (loading.withEnds ends).compile registry layer inputs outputs =
      ((loading.compile registry layer inputs outputs).1.withEnds ends,
        (loading.compile registry layer inputs outputs).2) := by
  unfold compile withEnds
  dsimp only
  split
  · rfl
  · split
    · rfl
    · split
      · rfl
      · split
        · rfl
        · rfl

/-- What is found for each item under one table is also found, maybe changed, under another. -/
private theorem exists_map_some {α β : Type} {f g : α → Option β} {items : List α}
    {results : List β} (held : results.map some = items.map f)
    (kept : ∀ item, (f item).isSome = true → (g item).isSome = true) :
    ∃ others, others.map some = items.map g ∧ others.length = results.length ∧
      ((∀ item ∈ items, g item = f item) → others = results) := by
  induction items generalizing results with
  | nil =>
    obtain rfl : results = [] := by simpa using held
    exact ⟨[], rfl, rfl, fun _ => rfl⟩
  | cons item items ih =>
    obtain ⟨result, rest, rfl, first, later⟩ := List.map_eq_cons_iff.mp held
    obtain ⟨others, taken, length, same⟩ := ih later
    obtain ⟨other, shown⟩ :=
      Option.isSome_iff_exists.mp (kept item (Option.isSome_of_eq_some first.symm))
    refine ⟨other :: others, by rw [List.map_cons, List.map_cons, shown, taken],
      by simp [length], fun unchanged => ?_⟩
    have sameFirst : some other = some result :=
      (shown.symm.trans (unchanged item List.mem_cons_self)).trans first.symm
    rw [Option.some.inj sameFirst,
      same fun later member => unchanged later (List.mem_cons_of_mem _ member)]

variable {slot : OutputRef} {handle : Handle} {label : String}

theorem isSome_insert {other : OutputRef} (held : (handles.find? other).isSome = true) :
    ((handles.insert slot handle).find? other).isSome = true := by
  rw [TensorHandles.find?_insert]
  split
  · rfl
  · exact held

/-- Other memory for a slot is found where the slot is read, and nowhere else. -/
theorem inputHandles_insert (slot : OutputRef) (handle : Handle) {slots : List InputSlot}
    {inputs : List Handle}
    (reads : inputHandles handles label slots = .ok inputs) :
    ∃ others, inputHandles (handles.insert slot handle) label slots = .ok others ∧
      others.length = inputs.length ∧
      ((∀ input ∈ slots, input.source ≠ some slot) → others = inputs) := by
  obtain ⟨others, taken, length, same⟩ := exists_map_some
    (g := fun input : InputSlot => input.source.bind (handles.insert slot handle).find?)
    (inputHandles_eq_ok.mp reads) fun input shown => by
      obtain ⟨found, shown⟩ := Option.isSome_iff_exists.mp shown
      obtain ⟨source, feeds, there⟩ := Option.bind_eq_some_iff.mp shown
      rw [feeds, Option.bind_some]
      exact isSome_insert (Option.isSome_of_eq_some there)
  refine ⟨others, inputHandles_eq_ok.mpr taken, length, fun apart => same fun input member => ?_⟩
  cases feeds : input.source with
  | none => rfl
  | some source =>
    have other : source ≠ slot := fun same => apart input member (same ▸ feeds)
    simp [TensorHandles.find?_insert, other]

/-- Other memory for a slot is found where the slot is filled, and nowhere else. -/
theorem outputHandles_insert (slot : OutputRef) (handle : Handle) {id : LayerId} {count : Nat}
    {outputs : List Handle}
    (writes : outputHandles handles label id 0 count = .ok outputs) :
    ∃ others, outputHandles (handles.insert slot handle) label id 0 count = .ok others ∧
      others.length = outputs.length ∧
      (¬(slot.layer = id ∧ slot.index < count) → others = outputs) := by
  obtain ⟨others, taken, length, same⟩ :=
    exists_map_some (outputHandles_eq_ok.mp writes) fun _ held => isSome_insert held
  refine ⟨others, outputHandles_eq_ok.mpr taken, length, fun apart => same fun index inside => ?_⟩
  have other : (⟨id, index⟩ : OutputRef) ≠ slot := fun same => by
    subst same
    exact apart ⟨rfl, by simpa using (List.mem_range'_1.mp inside).2⟩
  simp [TensorHandles.find?_insert, other]

/-- A layer that does not work on a slot is loaded as before when the slot is given other memory;
only the ends may differ. -/
theorem step_insert (handle : Handle) (ends : Network) {id : LayerId}
    (success : loading.step registry handles id = (next, .ok ()))
    (idle : ∀ layer, loading.graph.find? id = some layer → ¬layer.WorksOn slot) :
    ∃ ends', (loading.withEnds ends).step registry (handles.insert slot handle) id =
      (next.withEnds ends', .ok ()) := by
  obtain ⟨layer, inputs, outputs, found, reads, writes, placed⟩ := step_eq_ok_iff.mp success
  obtain ⟨others, reads', lengthIn, sameIn⟩ := inputHandles_insert slot handle reads
  obtain ⟨filled, writes', lengthOut, sameOut⟩ := outputHandles_insert slot handle writes
  suffices placed' : ∃ ends', (loading.withEnds ends).place registry layer others filled =
      (next.withEnds ends', .ok ()) by
    obtain ⟨ends', placed'⟩ := placed'
    exact ⟨ends', step_eq_ok_iff.mpr ⟨layer, others, filled, found, reads', writes', placed'⟩⟩
  unfold place at placed ⊢
  split at placed
  · rename_i binding kind
    split at placed
    · cases placed
    · cases placed
      obtain ⟨first, rest, rfl⟩ : ∃ first rest, filled = first :: rest :=
        List.exists_cons_of_length_eq_add_one lengthOut
      exact ⟨{ ends with inputs := (binding, first) :: ends.inputs }, rfl⟩
  · rename_i binding kind
    split at placed
    · cases placed
    · cases placed
      obtain ⟨first, rest, rfl⟩ : ∃ first rest, others = first :: rest :=
        List.exists_cons_of_length_eq_add_one lengthIn
      exact ⟨{ ends with outputs := (binding, first) :: ends.outputs }, rfl⟩
  · rename_i notInput notOutput
    have operation := isBinding_eq_false notInput notOutput
    have apart := not_or.mp fun works => idle layer found ⟨operation, works⟩
    obtain rfl := sameIn fun input member reads => apart.1 ⟨input, member, reads⟩
    obtain rfl := sameOut apart.2
    exact ⟨ends, by rw [compile_withEnds, placed]⟩

/-- Layers that do not work on a slot are loaded as before when it is given other memory. -/
theorem run_insert (handle : Handle) (ends : Network) {ids : List LayerId}
    (agree : Graph.AgreeOn Layer.unresolved graph loading.graph)
    (idle : ¬graph.IsWorked slot) (success : run registry handles ids loading = (final, .ok ())) :
    ∃ ends', run registry (handles.insert slot handle) ids (loading.withEnds ends) =
      (final.withEnds ends', .ok ()) := by
  induction ids generalizing loading ends with
  | nil =>
    cases success
    exact ⟨ends, rfl⟩
  | cons id ids ih =>
    rw [run] at success
    split at success
    · cases success
    · rename_i next _ stepped
      have agree_next : Graph.AgreeOn Layer.unresolved graph next.graph := by
        have kept := loading.agree_step registry handles id
        rw [stepped] at kept
        exact agree.trans kept
      have apart : ∀ layer, loading.graph.find? id = some layer → ¬layer.WorksOn slot := by
        intro layer found works
        obtain ⟨old, stored, same⟩ := agree.exists_find? found
        rw [same] at works
        exact idle ⟨old, Graph.mem_of_find? stored, works⟩
      obtain ⟨middle, stepped'⟩ := step_insert handle ends stepped apart
      obtain ⟨ends', later⟩ := ih middle agree_next success
      exact ⟨ends', by rw [run, stepped']; exact later⟩

/-- Where loading gets through, the memory of every operation layer fits. -/
theorem Follows.exists_fits {ids : List LayerId} {device last : Device}
    {calls : List BackendCall} {loaded : List LoadedLayer} {outcome : Except Error Unit}
    {id : LayerId} {layer : Layer}
    (follows : Follows graph registry handles ids device calls loaded last outcome)
    (success : outcome = .ok ()) (member : id ∈ ids) (found : graph.find? id = some layer)
    (operation : layer.kind.isBinding = false) :
    ∃ descriptor info, Surrounds graph handles layer descriptor info ∧
      descriptor.validate info = .ok () := by
  induction follows with
  | nil => cases member
  | binding stored binds _ _ ih =>
    rcases List.mem_cons.mp member with rfl | later
    · obtain rfl := Option.some.inj (stored.symm.trans found)
      rw [operation] at binds
      cases binds
    · exact ih success later
  | operation stored around _ fits _ _ ih =>
    rcases List.mem_cons.mp member with rfl | later
    · obtain rfl := Option.some.inj (stored.symm.trans found)
      exact ⟨_, _, around, fits⟩
    · exact ih success later
  | stops => cases success

/-- Handles and descriptors that were found for the same items agree item by item. -/
private theorem exists_sameShape {α : Type} {held : α → Option Handle}
    {declared : α → Option TensorInfo} {items : List α} {taken : List Handle}
    {infos : List TensorInfo} (takes : taken.map some = items.map held)
    (declares : infos.map some = items.map declared)
    (shapes : taken.map (·.shape) = infos.map (·.shape)) {item : α} (member : item ∈ items) :
    ∃ handle info, held item = some handle ∧ declared item = some info ∧
      handle.shape = info.shape := by
  induction items generalizing taken infos with
  | nil => cases member
  | cons first items ih =>
    obtain ⟨handle, taken, rfl, holds, takes⟩ := List.map_eq_cons_iff.mp takes
    obtain ⟨info, infos, rfl, tells, declares⟩ := List.map_eq_cons_iff.mp declares
    obtain ⟨same, shapes⟩ := List.cons.inj shapes
    rcases List.mem_cons.mp member with rfl | later
    · exact ⟨handle, info, holds.symm, tells.symm, same⟩
    · exact ih takes declares shapes later

/-- Memory that fits has the declared shape on every slot that the layer works on. -/
theorem Surrounds.shape {layer : Layer} {descriptor : QueueDescriptor} {info : WorkloadInfo}
    (around : Surrounds graph handles layer descriptor info)
    (fits : descriptor.validate info = .ok ())
    (stored : graph.find? layer.id = some layer) (works : layer.WorksOn slot) :
    ∃ handle declared, handles.find? slot = some handle ∧
      graph.slotInfo? slot = some declared ∧ handle.shape = declared.shape := by
  obtain ⟨⟨_, shapesIn⟩, _, shapesOut⟩ := QueueDescriptor.validate_eq_ok.mp fits
  obtain ⟨_, ⟨input, inside, reads⟩ | ⟨own, below⟩⟩ := works
  · simpa [reads] using exists_sameShape around.inputs around.inputInfos shapesIn inside
  · obtain ⟨_, index⟩ := slot
    obtain rfl : _ = layer.id := own
    have infos : info.outputs.map some = (List.range' 0 layer.outputs.length).map fun index =>
        graph.slotInfo? ⟨layer.id, index⟩ := by
      rw [around.outputInfos]
      refine List.ext_getElem (by simp) fun position inside _ => ?_
      have bound : position < layer.outputs.length := by simpa using inside
      simp [Graph.slotInfo?, stored, bound]
    exact exists_sameShape around.outputs infos shapesOut (List.mem_range'_1.mpr (by simpa))

end Loading

namespace Network

open Loading

variable {graph : Graph} {registry : Registry} {handles : TensorHandles} {device : Device}
  {network : Network}

theorem load_ok_iff : (load graph registry handles device).outcome = .ok network ↔
    graph.validate.2 = .ok () ∧ ∃ order final,
      graph.validate.1.topologicalOrder = .ok order ∧
      run registry handles order { graph := graph.validate.1, device, network := { handles } } =
        (final, .ok ()) ∧
      final.network = network := by
  unfold load
  dsimp only
  cases checked : graph.validate.2 with
  | error error => simp [bind, Except.bind]
  | ok _ =>
    rw [bind_ok]
    cases scheduled : graph.validate.1.topologicalOrder with
    | error error => simp
    | ok order =>
      simp only [Except.ok.injEq, exists_and_left, true_and, exists_eq_left']
      split <;> simp_all

/-- A network exposes the memory that its bindings were supplied with. A binding stands for the
last of its ends in the order of the schedule, so it reaches all of them just when they share their
memory. What an operation layer works on has the declared shape; any other memory could be
exchanged for memory of any shape, and the network would be loaded as it is. -/
theorem load_exposes (reached : graph.Reachable)
    (success : (load graph registry handles device).outcome = .ok network) :
    ∃ order, graph.topologicalOrder = .ok order ∧
      Exposes graph handles Layer.inputEnd? order network.inputHandle? ∧
      Exposes graph handles Layer.outputEnd? order network.outputHandle? ∧
      (∀ slot, graph.IsWorked slot → ∃ handle declared, handles.find? slot = some handle ∧
        graph.slotInfo? slot = some declared ∧ handle.shape = declared.shape) ∧
      ∀ slot handle, ¬graph.IsWorked slot → ∃ other,
        (load graph registry (handles.insert slot handle) device).outcome = .ok other ∧
          other.layers = network.layers := by
  have valid := reached.wellFormed
  have agree := graph.agree_validate
  obtain ⟨checked, order, final, scheduled, ran, rfl⟩ := load_ok_iff.mp success
  have arranged : graph.topologicalOrder = .ok order :=
    agree.wiring_of_unresolved.topologicalOrder.symm.trans scheduled
  obtain ⟨all, _⟩ := Graph.topologicalOrder_sound valid.unique arranged
  obtain ⟨inputs, outputs, exposedIn, exposedOut, suppliesIn, suppliesOut⟩ := run_ends agree ran
  rw [List.append_nil] at exposedIn exposedOut
  refine ⟨order, arranged, ?_, ?_, ?_, ?_⟩
  · have exposes := suppliesIn.exposes valid.unique all
    rw [← exposedIn] at exposes
    exact exposes
  · have exposes := suppliesOut.exposes valid.unique all
    rw [← exposedOut] at exposes
    exact exposes
  · rintro slot ⟨layer, member, works⟩
    have stored := (Graph.find?_eq_some_iff valid.unique).mpr ⟨member, rfl⟩
    obtain ⟨_, accepted, _⟩ := load_follows reached registry handles device
    obtain ⟨twin, again, _, _, _, ⟨_, _, follows, _⟩ | ⟨_, _, _, failed, _⟩⟩ := accepted checked
    · obtain rfl := Except.ok.inj (arranged.symm.trans again)
      obtain ⟨_, _, around, fits⟩ := follows.exists_fits rfl
        (all.mem_iff.mpr (Graph.mem_ids_of_find? stored)) stored works.1
      exact around.shape fits stored works
    · rw [success] at failed
      cases failed
  · intro slot handle idle
    obtain ⟨ends, ran⟩ := run_insert handle { handles := handles.insert slot handle } agree idle ran
    exact ⟨_, load_ok_iff.mpr ⟨checked, order, _, scheduled, ran, rfl⟩, rfl⟩

/-- Two inputs with one binding, each shown by an output. -/
def twins : List Graph.Call :=
  [.addLayer (.input 0) "a", .addLayer (.input 0) "b", .addLayer (.output 0) "x",
    .addLayer (.output 1) "y", .connect ⟨0, 0⟩ ⟨2, 0⟩, .connect ⟨1, 0⟩ ⟨3, 0⟩,
    .setInfo ⟨0, 0⟩ { shape := ⟨[2]⟩ }, .setInfo ⟨1, 0⟩ { shape := ⟨[2]⟩ }, .infer]

/-- Memory of its own for each of the inputs; that of the second is too long. -/
def twinHandles : TensorHandles where
  entries := [(⟨0, 0⟩, { info := { shape := ⟨[2]⟩ }, buffer := some 0 }),
    (⟨1, 0⟩, { info := { shape := ⟨[3]⟩ }, buffer := some 1 })]

/-- The second input takes the binding of the first, and keeps memory of another shape than it
declares. -/
theorem twins_collide : ∃ network,
    (load (Graph.run twins .empty) .empty twinHandles {}).outcome = .ok network ∧
      network.inputHandle? 0 = twinHandles.find? ⟨1, 0⟩ ∧
      (twinHandles.find? ⟨0, 0⟩).map (·.buffer) ≠ (twinHandles.find? ⟨1, 0⟩).map (·.buffer) ∧
      (twinHandles.find? ⟨1, 0⟩).map (·.shape) = some ⟨[3]⟩ ∧
      ((Graph.run twins .empty).slotInfo? ⟨1, 0⟩).map (·.shape) = some ⟨[2]⟩ := by
  have reached : (Graph.run twins .empty).Reachable := ⟨twins, rfl⟩
  have success : (load (Graph.run twins .empty) .empty twinHandles {}).outcome.toOption.isSome =
      true := by decide +kernel
  cases loaded : (load (Graph.run twins .empty) .empty twinHandles {}).outcome with
  | error error =>
    rw [loaded] at success
    cases success
  | ok network =>
    obtain ⟨order, scheduled, exposes, _⟩ := load_exposes reached loaded
    have arranged : (Graph.run twins .empty).topologicalOrder = .ok [0, 1, 2, 3] := by
      decide +kernel
    obtain rfl := Except.ok.inj (arranged.symm.trans scheduled)
    have last : (Graph.run twins .empty).lastEnd? Layer.inputEnd? [0, 1, 2, 3] 0 =
        some ⟨1, 0⟩ := by decide +kernel
    refine ⟨network, rfl, ?_, by decide +kernel, by decide +kernel, by decide +kernel⟩
    rw [exposes.last, last, Option.bind_some]

end Network

end NeuralGraph
