import Mathlib.Data.List.Basic
import Mathlib.Logic.Function.Basic
import NeuralGraph.Proofs.Graph.Splice

/-! Edits in place. A store keeps the layers of a graph by their ids, apart from the insertion
order, and an edit writes to it step by step: an error in the middle leaves what was written before.
On a well-formed graph no step after the first write can fail, so an edit in place gives what the
edit of the graph gives, and it writes nothing when that is refused. -/

namespace NeuralGraph

/-- A graph as it stands in memory: layers by id, and apart from them their insertion order. -/
structure Store where
  layers : LayerId → Option Layer
  order : List LayerId
  nextId : LayerId

namespace Store

/-- The graph that a store holds. -/
def graph (store : Store) : Graph where
  layers := store.order.filterMap store.layers
  nextId := store.nextId

/-- Edits the layer with the given id, if there is one. -/
def modify (store : Store) (id : LayerId) (f : Layer → Layer) : Store :=
  { store with layers := Function.update store.layers id ((store.layers id).map f) }

/-- The position behind an id, which is the end for an id that has no place. -/
def positionAfter (order : List LayerId) (anchor : LayerId) : Nat :=
  (order.idxOf? anchor).elim order.length (· + 1)

end Store

/-- An edit in place, which keeps what it has written when it fails. -/
abbrev InPlace := EStateM Error Store

namespace InPlace

def fetch (id : LayerId) : InPlace Layer := do
  match (← get).layers id with
  | some layer => return layer
  | none => throw (.unknownLayer id)

/-- Edits a slot of a layer, if the layer is there. -/
def editSlot (id : LayerId) (slots : Layer → Nat) (index : Nat) (f : Layer → Layer) :
    InPlace Unit := do
  match (← get).layers id with
  | none => return
  | some layer =>
    if slots layer ≤ index then
      throw .outOfBounds
    modify (·.modify id f)

/-- Edits both ends of an edge, first the readers and then the source. -/
def editEnds (source : OutputRef) (f : List InputRef → List InputRef) (target : InputRef)
    (value : Option OutputRef) : InPlace Unit := do
  editSlot source.layer (·.outputs.length) source.index (·.mapConsumers source.index f)
  editSlot target.layer (·.inputs.length) target.index (·.withSource target.index value)

def link (source : OutputRef) (target : InputRef) : InPlace Unit :=
  editEnds source (· ++ [target]) target (some source)

def unlink (source : OutputRef) (target : InputRef) : InPlace Unit :=
  editEnds source (·.filter (· ≠ target)) target none

/-- Stores an unconnected layer under a fresh id, without a place in the order. -/
def allocate (kind : LayerKind) (name : String) : InPlace LayerId := do
  let id := (← get).nextId
  modify fun store =>
    { store with
      layers := Function.update store.layers id (some (.new id kind name))
      nextId := id + 1 }
  return id

/-- Stores an unconnected layer and gives it a place in the order. -/
def splice (position : Nat) (kind : LayerKind) (name : String) : InPlace LayerId := do
  let id ← allocate kind name
  if (← get).order.length < position then
    throw .outOfBounds
  modify fun store => { store with order := store.order.insertIdx position id }
  return id

def addLayer (kind : LayerKind) (name : String) : InPlace LayerId := do
  let id ← allocate kind name
  modify fun store => { store with order := store.order ++ [id] }
  return id

/-- Gives the first output of a layer its descriptor. -/
def declareFirst (id : LayerId) (info : Option TensorInfo) : InPlace Unit := do
  let layer ← fetch id
  if layer.outputs = [] then
    throw .outOfBounds
  modify (·.modify id (·.withInfo 0 info))

/-- The outcome of a check that writes nothing. -/
def check (outcome : Except Error Unit) : InPlace Unit :=
  match outcome with
  | .ok _ => return
  | .error error => throw error

def connect (source : OutputRef) (target : InputRef) : InPlace Unit := do
  let producer ← fetch source.layer
  if producer.outputs.length ≤ source.index then
    throw (.structural (.noOutputSlot producer.label source.index))
  let consumer ← fetch target.layer
  match consumer.inputs[target.index]? with
  | none => throw (.structural (.noInputSlot consumer.label target.index))
  | some slot =>
    if let some existing := slot.source then
      throw (.structural (.alreadyConnected target.index consumer.label existing))
    if (← get).graph.reaches target.layer source.layer then
      throw (.structural (.wouldCycle producer.label consumer.label))
    link source target

def disconnect (target : InputRef) : InPlace OutputRef := do
  let consumer ← fetch target.layer
  match consumer.source? target.index with
  | none => throw (.structural (.notConnected target.index consumer.label))
  | some source =>
    unlink source target
    return source

def unlinkInputs (id : LayerId) : Nat → List InputSlot → InPlace Unit
  | _, [] => return
  | index, slot :: slots => do
    if let some source := slot.source then
      unlink source ⟨id, index⟩
    unlinkInputs id (index + 1) slots

def remove (id : LayerId) : InPlace Layer := do
  let layer ← fetch id
  if layer.consumers ≠ [] then
    throw (.structural (.stillRead layer.label layer.consumers.length))
  unlinkInputs id 0 layer.inputs
  modify fun store => { store with order := store.order.filter (· ≠ id) }
  let removed ← fetch id
  modify fun store => { store with layers := Function.update store.layers id none }
  return removed

def replace (id : LayerId) (kind : LayerKind) : InPlace LayerKind := do
  let layer ← fetch id
  if kind.inputCount ≠ layer.inputs.length ∨ kind.outputCount ≠ layer.outputs.length then
    throw (.structural (.slotCounts layer.label layer.inputs.length layer.outputs.length
      kind.operation kind.inputCount kind.outputCount))
  modify (·.modify id (·.withKind kind))
  return layer.kind

/-- Adds a copy of a layer of another store. -/
def cloneFrom (origin : Store) (id : LayerId) : InPlace LayerId := do
  match origin.layers id with
  | none => throw (.unknownLayer id)
  | some layer => addLayer layer.kind layer.name

def clone (id : LayerId) : InPlace LayerId := do
  let layer ← fetch id
  addLayer layer.kind layer.name

def insertBefore (target : InputRef) (kind : LayerKind) (name : String) : InPlace LayerId := do
  check (Graph.checkSpliceable kind)
  let consumer ← fetch target.layer
  match consumer.source? target.index with
  | none => throw (.structural (.insertUnconnected target.index consumer.label))
  | some source =>
    let store ← get
    match store.order.idxOf? target.layer with
    | none => throw (.unknownLayer target.layer)
    | some position =>
      let id ← splice position kind name
      unlink source target
      link source ⟨id, 0⟩
      link ⟨id, 0⟩ target
      declareFirst id (store.graph.slotInfo? source)
      return id

def moveConsumers (source target : OutputRef) : List InputRef → InPlace Unit
  | [] => return
  | consumer :: rest => do
    unlink source consumer
    link target consumer
    moveConsumers source target rest

def insertAfter (source : OutputRef) (kind : LayerKind) (name : String) : InPlace LayerId := do
  check (Graph.checkSpliceable kind)
  let producer ← fetch source.layer
  match producer.outputs[source.index]? with
  | none => throw (.structural (.noOutputSlot producer.label source.index))
  | some slot =>
    let store ← get
    let id ← splice (Store.positionAfter store.order source.layer) kind name
    moveConsumers source ⟨id, 0⟩ slot.consumers
    link source ⟨id, 0⟩
    declareFirst id slot.info
    return id

def reset (id : LayerId) : InPlace Unit :=
  modify (·.modify id fun layer => { layer with state := .constructed })

def setInfo (slot : OutputRef) (info : TensorInfo) : InPlace Unit := do
  let producer ← fetch slot.layer
  match producer.outputs[slot.index]? with
  | none => throw (.structural (.noOutputSlot producer.label slot.index))
  | some output =>
    modify (·.modify slot.layer (·.withInfo slot.index (some info)))
    reset slot.layer
    output.consumers.forM fun reader => reset reader.layer

end InPlace

namespace Graph

variable {graph : Graph}

/-- The store that holds a graph. -/
def store (graph : Graph) : Store where
  layers := graph.find?
  order := graph.ids
  nextId := graph.nextId

@[simp] theorem store_layers (graph : Graph) : graph.store.layers = graph.find? := rfl

@[simp] theorem store_order (graph : Graph) : graph.store.order = graph.ids := rfl

/-- Nothing about a graph is lost in its store. -/
theorem graph_store (unique : graph.ids.Nodup) : graph.store.graph = graph := by
  have kept : graph.ids.filterMap graph.find? = graph.layers := by
    rw [ids, List.filterMap_map]
    conv_rhs => rw [← List.filterMap_some (l := graph.layers)]
    exact List.filterMap_congr fun layer member =>
      (find?_eq_some_iff unique).mpr ⟨member, rfl⟩
  simp only [store, Store.graph, kept]

theorem store_modify {f : Layer → Layer} (keeps : ∀ layer, (f layer).id = layer.id)
    (id : LayerId) : (graph.modify id f).store = graph.store.modify id f := by
  have layers : (graph.modify id f).find? =
      Function.update graph.find? id ((graph.find? id).map f) := by
    funext other
    rw [find?_modify keeps, Function.update_apply]
  simp only [store, Store.modify, layers, ids_modify keeps, nextId_modify]

/-- What an edit in place has to leave: what the edit of the graph gives, or the graph itself if
that is refused. -/
def settle {α : Type} (graph : Graph) (edited : Except Error (α × Graph)) :
    EStateM.Result Error Store α :=
  match edited with
  | .ok (value, after) => .ok value after.store
  | .error error => .error error graph.store

/-- An edit in place does on the store of a graph what the edit does on the graph. -/
def Settles {α : Type} (graph : Graph) (edit : InPlace α) (edited : Except Error (α × Graph)) :
    Prop :=
  edit.run graph.store = graph.settle edited

end Graph

namespace InPlace

variable {graph : Graph} {α β : Type}

theorem run_bind_ok {first : InPlace α} {next : α → InPlace β} {before after : Store} {value : α}
    (ran : first.run before = .ok value after) :
    (first >>= next).run before = (next value).run after := by
  rw [EStateM.run_bind, ran]

theorem run_fetch {store : Store} {id : LayerId} {layer : Layer}
    (stored : store.layers id = some layer) : (fetch id).run store = .ok layer store := by
  rw [fetch, run_bind_ok (EStateM.run_get store), stored]
  rfl

theorem settles_ok {edit : InPlace α} {value : α} {after : Graph}
    (ran : edit.run graph.store = .ok value after.store) :
    graph.Settles edit (pure (value, after)) := ran

theorem settles_throw (error : Error) :
    graph.Settles (throw error : InPlace α) (throw error) := rfl

theorem settles_get {next : Store → InPlace α} {edited : Except Error (α × Graph)}
    (agree : graph.Settles (next graph.store) edited) : graph.Settles (get >>= next) edited := agree

theorem settles_check {outcome : Except Error Unit} {edit : InPlace α}
    {edited : Except Error (α × Graph)} (agree : outcome = .ok () → graph.Settles edit edited) :
    graph.Settles (check outcome >>= fun _ => edit) (outcome >>= fun _ => edited) := by
  cases outcome with
  | error error => exact settles_throw error
  | ok _ => exact agree rfl

theorem settles_fetch {id : LayerId} {next : Layer → InPlace α}
    {edited : Layer → Except Error (α × Graph)}
    (agree : ∀ layer, graph.find? id = some layer → graph.Settles (next layer) (edited layer)) :
    graph.Settles (fetch id >>= next) (graph.get id >>= edited) := by
  cases found : graph.find? id with
  | none =>
    have stored : graph.store.layers id = none := found
    have absent : graph.get id = .error (.unknownLayer id) := by rw [Graph.get, found]
    rw [Graph.Settles, absent, fetch, EStateM.run_bind, run_bind_ok (EStateM.run_get graph.store),
      stored]
    rfl
  | some layer =>
    rw [Graph.Settles, run_bind_ok (run_fetch found), Graph.get_eq_ok.mpr found, bind_ok]
    exact agree layer found

theorem settles_guard {refuse : Prop} [Decidable refuse] {error : Error} {edit : InPlace α}
    {edited : Except Error (α × Graph)} {next : β → InPlace α}
    {rest : β → Except Error (α × Graph)} (agree : ¬refuse → graph.Settles edit edited) :
    graph.Settles (if refuse then throw error >>= next else edit)
      (if refuse then throw error >>= rest else edited) := by
  by_cases refused : refuse
  · rw [if_pos refused, if_pos refused]
    rfl
  · rw [if_neg refused, if_neg refused]
    exact agree refused

theorem run_modify {f : Layer → Layer} (keeps : ∀ layer, (f layer).id = layer.id) (id : LayerId) :
    (modify (·.modify id f) : InPlace Unit).run graph.store = .ok () (graph.modify id f).store := by
  rw [EStateM.run_modify, Graph.store_modify keeps]

theorem run_editSlot {id : LayerId} {slots : Layer → Nat} {index : Nat} {f : Layer → Layer}
    (there : ∃ layer, graph.find? id = some layer ∧ index < slots layer)
    (keeps : ∀ layer, (f layer).id = layer.id) :
    (editSlot id slots index f).run graph.store = .ok () (graph.modify id f).store := by
  obtain ⟨layer, found, inside⟩ := there
  have stored : graph.store.layers id = some layer := found
  rw [editSlot, run_bind_ok (EStateM.run_get graph.store), stored]
  dsimp only
  rw [if_neg (Nat.not_le.mpr inside)]
  exact run_modify keeps id

theorem run_editEnds {source : OutputRef} {target : InputRef} (output : graph.HasOutput source)
    (input : graph.HasInput target) (f : List InputRef → List InputRef)
    (value : Option OutputRef) :
    (editEnds source f target value).run graph.store =
      .ok () ((graph.modify source.layer (·.mapConsumers source.index f)).modify target.layer
        (·.withSource target.index value)).store := by
  rw [editEnds, run_bind_ok (run_editSlot output fun _ => Layer.id_mapConsumers _ _)]
  exact run_editSlot ((Graph.hasInput_mapConsumers source f target).mpr input)
    fun _ => Layer.id_withSource _ _

theorem run_link {source : OutputRef} {target : InputRef} (output : graph.HasOutput source)
    (input : graph.HasInput target) :
    (link source target).run graph.store = .ok () (graph.link source target).store :=
  run_editEnds output input _ _

theorem run_unlink {source : OutputRef} {target : InputRef} (output : graph.HasOutput source)
    (input : graph.HasInput target) :
    (unlink source target).run graph.store = .ok () (graph.unlink source target).store :=
  run_editEnds output input _ _

end InPlace

end NeuralGraph
