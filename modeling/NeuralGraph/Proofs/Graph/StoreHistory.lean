import NeuralGraph.Proofs.Graph.History
import NeuralGraph.Proofs.Graph.InPlace

/-! Histories of a store. Inference, validation and loading write to the layers where they stand, as
the edits do, so a whole sequence of calls can be made on a store. Nothing ties the table of layers
to their order then but the calls themselves. -/

namespace NeuralGraph

open InPlace
open MonadExcept (ofExcept)

/-- What inference declares for a layer; an input has to have declared its own outputs. -/
def Graph.inferredFor (graph : Graph) (layer : Layer) :
    Except Error (Option (TensorInfo × List Shape)) := do
  if let .input _ := layer.kind then
    let _ ← declaredShapes layer
    return none
  let inputs ← graph.layerInputInfos layer
  let inferred ← inferOutputs layer inputs
  match inputs with
  | [] => throw .outOfBounds
  | template :: _ => return some (template, inferred)

namespace InPlace

def markResolved (id : LayerId) : InPlace Unit :=
  modify (·.modify id fun layer =>
    if layer.state = .constructed then { layer with state := .shapeResolved } else layer)

def validateEach : List LayerId → InPlace Unit
  | [] => return
  | id :: ids => do
    check ((← get).graph.validateLayer id)
    markResolved id
    validateEach ids

def validate : InPlace Unit := do
  validateEach (← ofExcept (← get).graph.topologicalOrder)

def inferLayer (id : LayerId) : InPlace Unit := do
  let layer ← fetch id
  match ← ofExcept ((← get).graph.inferredFor layer) with
  | none => return
  | some (template, shapes) => modify (·.modify id (·.declaring template shapes))

def inferEach : List LayerId → InPlace Unit
  | [] => return
  | id :: ids => do
    inferLayer id
    inferEach ids

def infer : InPlace Unit := do
  inferEach (← ofExcept (← get).graph.topologicalOrder)

def markBound (id : LayerId) : InPlace Unit :=
  modify (·.modify id fun layer => { layer with state := .workloadBound })

/-- Loads onto the given memory, and marks the layers that have been built as bound. -/
def load (registry : Registry) (handles : TensorHandles) (device : Device) : InPlace Unit := do
  validate
  let order ← ofExcept (← get).graph.topologicalOrder
  let loaded := Loading.run registry handles order
    { graph := (← get).graph, device, network := { handles } }
  loaded.1.network.layers.forM fun layer => markBound layer.id
  check loaded.2

def loadOnHost (registry : Registry) (device : Device) : InPlace Unit := do
  validate
  let allocated ← ofExcept (TensorHandles.allocate (← get).graph device.host)
  load registry allocated.1 { device with host := allocated.2 }

end InPlace

namespace Store

def empty : Store where
  layers _ := none
  order := []
  nextId := 0

/-- The store after an edit, which keeps what it has written when it fails. -/
def after {α : Type} (store : Store) (edit : InPlace α) : Store :=
  match edit.run store with
  | .ok _ after => after
  | .error _ after => after

/-- The store after a call. -/
def serve (store : Store) : Graph.Call → Store
  | .addLayer kind name => store.after (addLayer kind name)
  | .clone id => store.after (clone id)
  | .cloneFrom origin id => store.after (cloneFrom origin.store id)
  | .connect source target => store.after (connect source target)
  | .disconnect target => store.after (disconnect target)
  | .remove id => store.after (remove id)
  | .replace id kind => store.after (replace id kind)
  | .insertBefore target kind name => store.after (insertBefore target kind name)
  | .insertAfter source kind name => store.after (insertAfter source kind name)
  | .setInfo slot info => store.after (setInfo slot info)
  | .editKind id f => store.modify id fun layer => layer.withKind (f layer.kind)
  | .infer => store.after infer
  | .validate => store.after validate
  | .load registry handles device => store.after (load registry handles device)
  | .loadOnHost registry device => store.after (loadOnHost registry device)

/-- The store after a sequence of calls. -/
def run (calls : List Graph.Call) (store : Store) : Store := calls.foldl serve store

end Store

namespace Graph

variable {graph : Graph}

/-- What a pass in place has to leave: the graph that the pass leaves, and the same outcome. -/
def leave {α : Type} (graph : Graph) (outcome : Except Error α) : EStateM.Result Error Store Unit :=
  match outcome with
  | .ok _ => .ok () graph.store
  | .error error => .error error graph.store

theorem inferLayer_eq (graph : Graph) (id : LayerId) : graph.inferLayer id = do
    let layer ← graph.get id
    match ← graph.inferredFor layer with
    | none => return graph
    | some (template, shapes) => return graph.modify id (·.declaring template shapes) := by
  unfold inferLayer inferredFor
  refine congrArg _ (funext fun layer => ?_)
  cases layer.kind with
  | input binding => cases declaredShapes layer <;> rfl
  | _ =>
    cases graph.layerInputInfos layer with
    | error _ => rfl
    | ok inputs =>
      simp only [bind_ok]
      cases inferOutputs layer inputs with
      | error _ => rfl
      | ok shapes => cases inputs <;> rfl

end Graph

namespace InPlace

variable {graph : Graph}

theorem run_markResolved (id : LayerId) :
    (markResolved id).run graph.store = .ok () (graph.markResolved id).store :=
  run_modify (fun layer => by split <;> rfl) id

theorem run_markBound (id : LayerId) :
    (markBound id).run graph.store = .ok () (graph.markBound id).store :=
  run_modify (f := fun layer => { layer with state := .workloadBound }) (fun _ => rfl) id

theorem run_validateEach (unique : graph.ids.Nodup) (ids : List LayerId) :
    (validateEach ids).run graph.store =
      (Graph.validateEach ids graph).1.leave (Graph.validateEach ids graph).2 := by
  induction ids generalizing graph with
  | nil => rfl
  | cons id rest ih =>
    rw [validateEach, Graph.validateEach, run_bind_ok (EStateM.run_get _), Graph.graph_store unique]
    cases graph.validateLayer id with
    | error error => rfl
    | ok _ =>
      have kept := (graph.agree_markResolved id).wiring_of_unresolved.ids
      simp only [check, pure_bind]
      rw [run_bind_ok (run_markResolved id)]
      exact ih (kept ▸ unique)

theorem run_validate (unique : graph.ids.Nodup) :
    validate.run graph.store = graph.validate.1.leave graph.validate.2 := by
  rw [validate, run_bind_ok (EStateM.run_get _), Graph.graph_store unique, Graph.validate]
  cases graph.topologicalOrder with
  | error error => rfl
  | ok order => exact run_validateEach unique order

theorem settles_inferLayer (unique : graph.ids.Nodup) (id : LayerId) :
    graph.Settles (inferLayer id) (((), ·) <$> graph.inferLayer id) := by
  rw [Graph.inferLayer_eq, map_bind]
  refine settles_fetch fun layer _ => settles_get ?_
  rw [Graph.graph_store unique]
  cases graph.inferredFor layer with
  | error error => exact settles_throw error
  | ok declared =>
    cases declared with
    | none => exact settles_ok rfl
    | some declared =>
      exact settles_ok
        (run_modify (f := (·.declaring declared.1 declared.2)) (fun _ => rfl) id)

theorem run_inferEach (unique : graph.ids.Nodup) (ids : List LayerId) :
    (inferEach ids).run graph.store =
      (Graph.inferEach ids graph).1.leave (Graph.inferEach ids graph).2 := by
  induction ids generalizing graph with
  | nil => rfl
  | cons id rest ih =>
    have settles := settles_inferLayer unique id
    rw [inferEach, Graph.inferEach]
    cases inferred : graph.inferLayer id with
    | error error =>
      rw [inferred] at settles
      rw [EStateM.run_bind, settles]
      rfl
    | ok next =>
      rw [inferred] at settles
      have kept := (Graph.agree_inferLayer inferred).wiring_of_frame.ids
      exact (run_bind_ok settles).trans (ih (kept ▸ unique))

theorem run_infer (unique : graph.ids.Nodup) :
    infer.run graph.store = graph.infer.1.leave graph.infer.2 := by
  rw [infer, run_bind_ok (EStateM.run_get _), Graph.graph_store unique, Graph.infer]
  cases graph.topologicalOrder with
  | error error => rfl
  | ok order => exact run_inferEach unique order

theorem run_markEach (layers : List LoadedLayer) (graph : Graph) :
    (layers.forM fun layer => markBound layer.id).run graph.store =
      .ok () (graph.markEach (layers.map (·.id))).store := by
  induction layers generalizing graph with
  | nil => rfl
  | cons layer rest ih =>
    exact (run_bind_ok (run_markBound layer.id)).trans (ih (graph.markBound layer.id))

/-- What comes behind a validation is done on the store of the validated graph, if it is accepted. -/
theorem run_validate_bind (unique : graph.ids.Nodup) (next : InPlace Unit) :
    (validate >>= fun _ => next).run graph.store =
      match graph.validate.2 with
      | .ok _ => next.run graph.validate.1.store
      | .error error => .error error graph.validate.1.store := by
  rw [EStateM.run_bind, run_validate unique]
  cases graph.validate.2 <;> rfl

theorem run_load (unique : graph.ids.Nodup) (registry : Registry) (handles : TensorHandles)
    (device : Device) :
    let report := Network.load graph registry handles device
    (load registry handles device).run graph.store = report.graph.leave report.outcome := by
  have kept := graph.agree_validate.wiring_of_unresolved.ids
  rw [Network.load, load, run_validate_bind unique]
  dsimp only
  cases graph.validate.2 with
  | error error => rfl
  | ok _ =>
    dsimp only
    rw [run_bind_ok (EStateM.run_get _), Graph.graph_store (kept ▸ unique), bind_ok]
    cases graph.validate.1.topologicalOrder with
    | error error => rfl
    | ok order =>
      obtain ⟨loaded, layers, marked, _⟩ := Loading.run_marks registry handles order
        { graph := graph.validate.1, device, network := { handles } }
      simp only [ofExcept, pure_bind]
      rw [run_bind_ok (EStateM.run_get _), Graph.graph_store (kept ▸ unique)]
      cases ran : Loading.run registry handles order
          { graph := graph.validate.1, device, network := { handles } } with
      | mk last outcome =>
        rw [ran] at layers marked
        obtain rfl : last.network.layers = loaded := layers
        -- the marks that the load has set on its graph are those that are set on the store
        have marks := run_markEach last.network.layers graph.validate.1
        rw [← marked] at marks
        dsimp only
        rw [run_bind_ok marks]
        cases outcome <;> rfl

theorem run_loadOnHost (unique : graph.ids.Nodup) (registry : Registry) (device : Device) :
    let report := Network.loadOnHost graph registry device
    (loadOnHost registry device).run graph.store = report.graph.leave report.outcome := by
  have kept := graph.agree_validate.wiring_of_unresolved.ids
  rw [Network.loadOnHost, loadOnHost, run_validate_bind unique]
  dsimp only
  cases graph.validate.2 with
  | error error => rfl
  | ok _ =>
    dsimp only
    rw [run_bind_ok (EStateM.run_get _), Graph.graph_store (kept ▸ unique), bind_ok]
    cases TensorHandles.allocate graph.validate.1 device.host with
    | error error => rfl
    | ok allocated => exact run_load (kept ▸ unique) registry allocated.1 _

end InPlace

namespace Graph

variable {graph : Graph} {α : Type}

theorem after_of_settles {edit : InPlace α} {edited : Except Error (α × Graph)}
    (settles : graph.Settles edit edited) :
    graph.store.after edit = (graph.afterEdit edited (·.2)).store := by
  rw [Settles] at settles
  rw [Store.after, settles]
  cases edited <;> rfl

/-- The same for an edit that gives nothing but the graph. -/
theorem after_of_settles_unit {edit : InPlace Unit} {edited : Except Error Graph}
    (settles : graph.Settles edit (((), ·) <$> edited)) :
    graph.store.after edit = (graph.afterEdit edited id).store := by
  rw [after_of_settles settles]
  cases edited <;> rfl

theorem after_of_leave {pass : InPlace Unit} {left : Graph} {outcome : Except Error α}
    (leaves : pass.run graph.store = left.leave outcome) :
    graph.store.after pass = left.store := by
  rw [Store.after, leaves]
  cases outcome <;> rfl

/-- A call does on the store of a well-formed graph what it does on the graph. -/
theorem WellFormed.serve (valid : graph.WellFormed) (call : Call) :
    graph.store.serve call = (call.apply graph).store := by
  have wired := valid.toWired
  cases call with
  | addLayer kind name =>
    have ran := run_addLayer wired kind name
    rw [Store.serve, Store.after, ran]
    rfl
  | clone id => exact after_of_settles (settles_clone wired id)
  | cloneFrom origin id => exact after_of_settles (settles_cloneFrom wired origin id)
  | connect source target =>
    exact after_of_settles_unit (settles_connect wired.unique source target)
  | disconnect target => exact after_of_settles (settles_disconnect wired target)
  | remove id => exact after_of_settles (settles_remove wired id)
  | replace id kind => exact after_of_settles (settles_replace id kind)
  | insertBefore target kind name =>
    exact after_of_settles (settles_insertBefore wired target kind name)
  | insertAfter source kind name =>
    exact after_of_settles (settles_insertAfter wired source kind name)
  | setInfo slot info => exact after_of_settles_unit (settles_setInfo slot info)
  | editKind id f =>
    exact (store_modify (f := fun layer => layer.withKind (f layer.kind)) (fun _ => rfl) id).symm
  | infer => exact after_of_leave (run_infer wired.unique)
  | validate => exact after_of_leave (run_validate wired.unique)
  | load registry handles device =>
    exact after_of_leave (run_load wired.unique registry handles device)
  | loadOnHost registry device =>
    exact after_of_leave (run_loadOnHost wired.unique registry device)

/-- A history of a store is the history of the graph that it holds. -/
theorem WellFormed.store_run (valid : graph.WellFormed) (calls : List Call) :
    Store.run calls graph.store = (Graph.run calls graph).store := by
  induction calls generalizing graph with
  | nil => rfl
  | cons call rest ih =>
    rw [Store.run, List.foldl_cons, valid.serve call]
    exact ih (valid.apply call).1

/-- Whatever is called on a graph, in any order and with any arguments: insertion order lists
every stored id once; ids of removed layers stay unused; the two ends of every edge agree, between
slots that are there; and no layer feeds itself, so there always is a topological order. The same
calls on a store, where the order is apart from the layers, leave just what they leave of the graph:
the order names the stored layers, each of them once. -/
theorem run_consistent (calls : List Call) :
    (run calls empty).ids.Nodup ∧
    (∀ id, id ∈ (run calls empty).ids ↔ ((run calls empty).find? id).isSome) ∧
    (∀ id removed after, (run calls empty).remove id = .ok (removed, after) →
      ∀ later, (run later after).find? id = none) ∧
    (∀ target source, (run calls empty).sourceOf? target = some source →
      (run calls empty).HasOutput source ∧
        ((run calls empty).readersOf source).count target = 1) ∧
    (∀ source target, target ∈ (run calls empty).readersOf source →
      (run calls empty).HasInput target ∧ (run calls empty).sourceOf? target = some source) ∧
    (∀ id, ¬ Relation.TransGen (run calls empty).Feeds id id) ∧
    (∃ order, (run calls empty).topologicalOrder = .ok order) ∧
    (Store.run calls .empty).order.Nodup ∧
    (∀ id, id ∈ (Store.run calls .empty).order ↔
      ((Store.run calls .empty).layers id).isSome) ∧
    Store.run calls .empty = (run calls empty).store := by
  have valid := (WellFormed.empty.run calls).1
  have stored : Store.run calls .empty = (run calls empty).store :=
    WellFormed.empty.store_run calls
  have listed : ∀ id, id ∈ (run calls empty).ids ↔ ((run calls empty).find? id).isSome :=
    fun _ => find?_isSome_iff.symm
  refine ⟨valid.unique, listed, ?_, ?_, ?_, valid.acyclic, valid.topologicalOrder,
    stored ▸ valid.unique, stored ▸ listed, stored⟩
  · intro id removed after accepted later
    exact valid.find?_after_remove accepted later
  · intro target source reads
    exact ⟨valid.toWired.hasOutput reads, by rw [valid.edges, if_pos reads]⟩
  · intro source target member
    have reads := valid.toWired.mem_readersOf.mp member
    exact ⟨.of_sourceOf? reads, reads⟩

end Graph

end NeuralGraph
