import NeuralGraph.Proofs.Graph.Validation
import NeuralGraph.Proofs.Graph.History

/-! How many slots a layer has. A layer keeps the slots that it was made with, while its kind can be
edited into one that asks for others. Validation compares inferred and declared shapes only as far
as both go; the main statement says which layers pass it without the slots of their kind. -/

namespace NeuralGraph

/-- The numbers of input and output slots that a kind asks for. -/
def LayerKind.slotCounts (kind : LayerKind) : Nat × Nat := (kind.inputCount, kind.outputCount)

namespace Layer

/-- The numbers of input and output slots that a layer has. -/
def slotCounts (layer : Layer) : Nat × Nat := (layer.inputs.length, layer.outputs.length)

@[simp] theorem slotCounts_new (id : LayerId) (kind : LayerKind) (name : String) :
    (Layer.new id kind name).slotCounts = kind.slotCounts := by
  simp [slotCounts, LayerKind.slotCounts, new]

@[simp] theorem slotCounts_withInfo (layer : Layer) (index : Nat) (info : Option TensorInfo) :
    (layer.withInfo index info).slotCounts = layer.slotCounts := by
  simp [slotCounts, withInfo]

@[simp] theorem slotCounts_withSource (layer : Layer) (index : Nat) (source : Option OutputRef) :
    (layer.withSource index source).slotCounts = layer.slotCounts := by
  simp [slotCounts, withSource]

@[simp] theorem slotCounts_mapConsumers (layer : Layer) (index : Nat)
    (f : List InputRef → List InputRef) :
    (layer.mapConsumers index f).slotCounts = layer.slotCounts := by
  simp [slotCounts, mapConsumers]

/-- The layers whose edited kind asks for other slots than there are, and that validation does not
tell from others: input layers, of which it only looks at the declared outputs; output layers, for
which nothing is inferred; and operations without an output that could disagree. -/
inductive Misfit (layer : Layer) : Prop where
  | input {binding : UInt32} (kind : layer.kind = .input binding)
      (slots : layer.slotCounts ≠ (0, 1))
  | output {binding : UInt32} (kind : layer.kind = .output binding)
      (slots : layer.slotCounts = (1, 1))
  | operation (kind : layer.kind.slotCounts = (1, 1)) (slots : layer.slotCounts = (1, 0))

theorem Misfit.slotCounts_ne {layer : Layer} (misfit : layer.Misfit) :
    layer.slotCounts ≠ layer.kind.slotCounts := by
  cases misfit with
  | input kind slots => simpa [kind, LayerKind.slotCounts, LayerKind.inputCount,
      LayerKind.outputCount] using slots
  | output kind slots => simp [kind, slots, LayerKind.slotCounts, LayerKind.outputCount]
  | operation kind slots => simp [kind, slots]

end Layer

/-- Kinds that ask for as many inputs ask for as many outputs, unless just one of them is an output
layer. -/
theorem LayerKind.outputCount_cases {first second : LayerKind}
    (same : first.inputCount = second.inputCount) (apart : first.outputCount ≠ second.outputCount) :
    (first.slotCounts = (1, 0) ∧ second.slotCounts = (1, 1)) ∨
      (first.slotCounts = (1, 1) ∧ second.slotCounts = (1, 0)) := by
  cases first <;> cases second <;> simp_all [slotCounts, inputCount, outputCount]

theorem LayerKind.eq_output {kind : LayerKind} (slots : kind.slotCounts = (1, 0)) :
    ∃ binding, kind = .output binding := by
  cases kind <;> simp_all [slotCounts, outputCount]

namespace Graph

variable {graph before after : Graph}

/-- Every layer has the slots that some kind asks for. -/
def Slotted (graph : Graph) : Prop :=
  ∀ layer ∈ graph.layers, ∃ kind : LayerKind, layer.slotCounts = kind.slotCounts

theorem Slotted.of_agree (slotted : before.Slotted)
    (agree : AgreeOn Layer.slotCounts before after) : after.Slotted := by
  intro layer member
  have shown : layer.slotCounts ∈ after.layers.map Layer.slotCounts := List.mem_map_of_mem member
  rw [agree.layers] at shown
  obtain ⟨old, inside, same⟩ := List.mem_map.mp shown
  obtain ⟨kind, slots⟩ := slotted old inside
  exact ⟨kind, same ▸ slots⟩

theorem Slotted.of_placed (slotted : graph.Slotted) {layer : Layer}
    (joins : graph.Placed layer after) {kind : LayerKind}
    (slots : layer.slotCounts = kind.slotCounts) : after.Slotted := by
  intro other member
  rcases List.mem_cons.mp (joins.layers.mem_iff.mp member) with rfl | old
  · exact ⟨kind, slots⟩
  · exact slotted other old

theorem AgreeOn.slotCounts_of_wiring (agree : AgreeOn Layer.wiring before after) :
    AgreeOn Layer.slotCounts before after :=
  agree.coarsen (fun wiring => (wiring.2.1.length, wiring.2.2.length)) fun layer => by
    simp [Layer.wiring, Layer.slotCounts]

theorem slotCounts_link (graph : Graph) (source : OutputRef) (target : InputRef) :
    AgreeOn Layer.slotCounts graph (graph.link source target) :=
  (AgreeOn.modify graph source.layer _ fun _ => by simp).trans
    (.modify _ target.layer _ fun _ => by simp)

theorem slotCounts_unlink (graph : Graph) (source : OutputRef) (target : InputRef) :
    AgreeOn Layer.slotCounts graph (graph.unlink source target) :=
  (AgreeOn.modify graph source.layer _ fun _ => by simp).trans
    (.modify _ target.layer _ fun _ => by simp)

theorem slotCounts_unlinkInputs (id : LayerId) (index : Nat) (slots : List InputSlot)
    (graph : Graph) : AgreeOn Layer.slotCounts graph (graph.unlinkInputs id index slots) := by
  induction slots generalizing graph index with
  | nil => exact .refl _ _
  | cons slot slots ih =>
    rw [unlinkInputs]
    cases slot.source with
    | none => exact ih (index + 1) graph
    | some source => exact (slotCounts_unlink graph source ⟨id, index⟩).trans (ih (index + 1) _)

theorem slotCounts_moveConsumers (source target : OutputRef) (readers : List InputRef)
    (graph : Graph) :
    AgreeOn Layer.slotCounts graph (graph.moveConsumers source target readers) := by
  induction readers generalizing graph with
  | nil => exact .refl _ _
  | cons reader rest ih =>
    exact ((slotCounts_unlink graph source reader).trans (slotCounts_link _ target reader)).trans
      (ih _)

theorem Slotted.without (slotted : graph.Slotted) (id : LayerId) : (graph.without id).Slotted :=
  fun layer member => slotted layer (List.mem_filter.mp member).1

private theorem Slotted.afterEdit {α : Type} (slotted : graph.Slotted) {edited : Except Error α}
    {pick : α → Graph} (accepted : ∀ result, edited = .ok result → (pick result).Slotted) :
    (graph.afterEdit edited pick).Slotted := by
  cases outcome : edited with
  | error _ => exact slotted
  | ok result => exact accepted result outcome

private theorem Slotted.cloneInto (slotted : graph.Slotted) {origin : Graph} {id fresh : LayerId}
    (accepted : origin.cloneInto id graph = .ok (fresh, after)) : after.Slotted := by
  obtain ⟨layer, _, added⟩ := cloneInto_eq_ok.mp accepted
  cases added
  exact slotted.of_placed (placed_addLayer graph _ _) (Layer.slotCounts_new _ _ _)

theorem Slotted.apply (slotted : graph.Slotted) (call : Call) : (call.apply graph).Slotted := by
  cases call with
  | addLayer kind name =>
    exact slotted.of_placed (placed_addLayer graph kind name) (Layer.slotCounts_new _ _ _)
  | clone id => exact slotted.afterEdit fun _ accepted => slotted.cloneInto accepted
  | cloneFrom origin id => exact slotted.afterEdit fun _ accepted => slotted.cloneInto accepted
  | connect source target =>
    refine slotted.afterEdit fun _ accepted => ?_
    obtain ⟨_, _, _, _, rfl⟩ := connect_eq_ok.mp accepted
    exact slotted.of_agree (slotCounts_link graph source target)
  | disconnect target =>
    refine slotted.afterEdit ?_
    rintro ⟨_, after⟩ accepted
    obtain ⟨_, rfl⟩ := disconnect_eq_ok.mp accepted
    exact slotted.of_agree (slotCounts_unlink graph _ target)
  | remove id =>
    refine slotted.afterEdit ?_
    rintro ⟨_, after⟩ accepted
    obtain ⟨layer, _, _, _, rfl⟩ := remove_eq_ok.mp accepted
    exact (slotted.of_agree (slotCounts_unlinkInputs id 0 layer.inputs graph)).without id
  | replace id kind =>
    exact slotted.afterEdit fun _ accepted =>
      slotted.of_agree (agree_replace accepted).slotCounts_of_wiring
  | insertBefore target kind name =>
    refine slotted.afterEdit ?_
    rintro ⟨_, after⟩ accepted
    obtain ⟨_, source, _, _, rfl⟩ := insertBefore_eq_ok.mp accepted
    have placed := slotted.of_placed
      (placed_placedBefore graph target.layer kind name (graph.slotInfo? source))
      ((Layer.slotCounts_withInfo _ _ _).trans (Layer.slotCounts_new _ _ _))
    exact placed.of_agree
      (((slotCounts_unlink _ _ _).trans (slotCounts_link _ _ _)).trans (slotCounts_link _ _ _))
  | insertAfter source kind name =>
    refine slotted.afterEdit ?_
    rintro ⟨_, after⟩ accepted
    obtain ⟨_, _, _, rfl⟩ := insertAfter_eq_ok.mp accepted
    have placed := slotted.of_placed
      (placed_placedAfter graph source.layer kind name (graph.slotInfo? source))
      ((Layer.slotCounts_withInfo _ _ _).trans (Layer.slotCounts_new _ _ _))
    exact placed.of_agree ((slotCounts_moveConsumers _ _ _ _).trans (slotCounts_link _ _ _))
  | setInfo slot info =>
    exact slotted.afterEdit fun _ accepted =>
      slotted.of_agree (agree_setInfo accepted).slotCounts_of_wiring
  | editKind id f => exact slotted.of_agree (agree_editKind graph id f).slotCounts_of_wiring
  | infer => exact slotted.of_agree graph.agree_infer.wiring_of_frame.slotCounts_of_wiring
  | validate =>
    exact slotted.of_agree graph.agree_validate.wiring_of_unresolved.slotCounts_of_wiring
  | load registry handles device =>
    exact slotted.of_agree
      (Network.agree_load graph registry handles device).wiring_of_unresolved.slotCounts_of_wiring
  | loadOnHost registry device =>
    exact slotted.of_agree
      (Network.agree_loadOnHost graph registry device).wiring_of_unresolved.slotCounts_of_wiring

theorem Slotted.run (slotted : graph.Slotted) (calls : List Call) :
    (Graph.run calls graph).Slotted := by
  induction calls generalizing graph with
  | nil => exact slotted
  | cons call calls ih => exact ih (slotted.apply call)

theorem Reachable.slotted (reached : graph.Reachable) : graph.Slotted := by
  obtain ⟨calls, rfl⟩ := reached
  exact Slotted.run (fun _ member => absurd member List.not_mem_nil) calls

/-- A layer with the slots of its kind, which declares exactly what inference says. -/
structure Fitted (graph : Graph) (layer : Layer) : Prop where
  inputs : layer.inputs.length = layer.kind.inputCount
  outputs : layer.outputs.length = layer.kind.outputCount
  declares : (∀ binding, layer.kind ≠ .input binding) → ∃ infos shapes,
    graph.layerInputInfos layer = .ok infos ∧ declaredShapes layer = .ok shapes ∧
      layer.kind.inferShapes (infos.map (·.shape)) = .ok shapes

theorem length_layerInputInfos {layer : Layer} {infos : List TensorInfo}
    (flows : graph.layerInputInfos layer = .ok infos) : infos.length = layer.inputs.length := by
  simpa using congrArg List.length (layerInputInfos_eq_ok.mp flows)

/-- Inference refuses another number of inputs, so a layer that passes has the inputs of its
kind. -/
theorem Passes.length_inputs {layer : Layer} {infos : List TensorInfo} {declared : List Shape}
    (passes : graph.Passes layer infos declared)
    (computes : ∀ binding, layer.kind ≠ .input binding) :
    layer.inputs.length = layer.kind.inputCount := by
  obtain ⟨_, infers, _⟩ := passes.agrees computes
  obtain ⟨counts, _⟩ := LayerKind.inferShapes_eq_ok.mp (inferOutputs_eq_ok.mp infers)
  rw [← length_layerInputInfos passes.flows, ← counts, List.length_map]

/-- A layer that passes validation has the slots of its kind and declares what inference says,
unless its kind was edited into one of the misfits. -/
theorem Reachable.validated_fitted_iff (reached : graph.Reachable) {id : LayerId} {layer : Layer}
    (found : graph.find? id = some layer) (validates : graph.validateLayer id = .ok ()) :
    graph.Fitted layer ↔ ¬layer.Misfit := by
  obtain ⟨infos, declared, passes⟩ := exists_passes_of_validateLayer validates found
  obtain ⟨origin, made⟩ := reached.slotted layer (mem_of_find? found)
  constructor
  · intro fitted misfit
    exact misfit.slotCounts_ne (Prod.ext fitted.inputs fitted.outputs)
  · intro regular
    by_cases binds : ∃ binding, layer.kind = .input binding
    · obtain ⟨binding, kind⟩ := binds
      have slots : layer.slotCounts = (0, 1) := by
        by_contra other
        exact regular (.input kind other)
      obtain ⟨inputs, outputs⟩ := Prod.mk.inj slots
      exact ⟨by rw [inputs, kind]; rfl, by rw [outputs, kind]; rfl,
        fun computes => absurd kind (computes binding)⟩
    · have computes : ∀ binding, layer.kind ≠ .input binding := not_exists.mp binds
      have inputs := passes.length_inputs computes
      have outputs : layer.outputs.length = layer.kind.outputCount := by
        by_contra apart
        obtain ⟨madeInputs, madeOutputs⟩ := Prod.mk.inj made
        rcases LayerKind.outputCount_cases (madeInputs.symm.trans inputs)
            (madeOutputs ▸ apart) with ⟨bare, single⟩ | ⟨single, bare⟩
        · exact regular (.operation single (made.trans bare))
        · obtain ⟨binding, kind⟩ := LayerKind.eq_output bare
          exact regular (.output kind (made.trans single))
      exact ⟨inputs, outputs, fun _ => ⟨infos, declared, passes.flows, passes.declares,
        passes.inferShapes computes outputs⟩⟩

/-- An output layer that was edited into a rectification: it has no slot for what it computes. -/
def relabelled : Graph :=
  run [.addLayer (.input 0) "x", .addLayer (.output 0) "y", .connect ⟨0, 0⟩ ⟨1, 0⟩,
    .setInfo ⟨0, 0⟩ { shape := ⟨[2, 3]⟩ }, .editKind 1 fun _ => .activation { curve := .reLu }]
    empty

theorem relabelled_unfitted : relabelled.validateLayer 1 = .ok () ∧
    ∃ layer, relabelled.find? 1 = some layer ∧ layer.kind.slotCounts = (1, 1) ∧
      layer.slotCounts = (1, 0) ∧ ¬relabelled.Fitted layer := by
  have reached : relabelled.Reachable := ⟨_, rfl⟩
  have validates : relabelled.validateLayer 1 = .ok () := by decide +kernel
  obtain ⟨layer, found⟩ : ∃ layer, relabelled.find? 1 = some layer := ⟨_, rfl⟩
  cases found
  refine ⟨validates, _, rfl, rfl, rfl, fun fitted => ?_⟩
  exact (reached.validated_fitted_iff rfl validates).mp fitted (.operation rfl rfl)

end Graph

end NeuralGraph
