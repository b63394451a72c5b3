import NeuralGraph.Proofs.Reference.Execution
import NeuralGraph.Proofs.Reference.Lstm
import NeuralGraph.Proofs.Reference.Pooling
import NeuralGraph.Proofs.Reference.Weights

/-! Progress of the reference kernels. A layer that has passed shape inference, on full inputs, has
a value of the inferred shapes, or it is one of a few configurations that no check refuses and no
kernel can run. -/

namespace NeuralGraph

namespace Reference

theorem mul_toNat_ne_zero {first second : Extent} :
    first.toNat * second.toNat ≠ 0 ↔ first ≠ 0 ∧ second ≠ 0 := by
  rw [Nat.mul_ne_zero_iff]
  simp [UInt32.ext_iff]

/-- A cell whose parameters pass has the groups of constants that its flags ask for. -/
theorem checkGroups_of_parameters {cell : Lstm.Cell} {params : Lstm.Params}
    (parameters : (LayerKind.lstm cell params).checkParameters = .ok ()) :
    params.checkGroups cell = .ok () := by
  unfold LayerKind.checkParameters at parameters
  dsimp only at parameters
  split at parameters
  · assumption
  · cases parameters

/-- What the checks accept and the kernels cannot run: softmax of a scalar, a cell without units on
a batch that is not empty, and pooling with a window that the kernel cannot take. -/
inductive Stuck : LayerKind → List Shape → List Shape → Prop where
  | softmax {beta : Float32} {outputs : List Shape} : Stuck (.softmax beta) [⟨[]⟩] outputs
  | pooling2d {pooling : Pooling} {batch channels height width rows columns : Extent}
      (occupied : batch ≠ 0 ∧ channels ≠ 0)
      (window : PoolingStuck pooling height.toNat width.toNat rows.toNat columns.toNat) :
      Stuck (.pooling2d pooling) [⟨[batch, channels, height, width]⟩]
        [⟨[batch, channels, rows, columns]⟩]
  | lstm {cell : Lstm.Cell} {params : Lstm.Params} {input outputState : Shape} {batch : Extent}
      {outputs : List Shape} (occupied : batch ≠ 0) :
      Stuck (.lstm cell params) [input, outputState, ⟨[batch, 0]⟩] outputs

/-- A layer that computes something, on full inputs, with the output shapes that follow from
theirs. -/
structure Applied (kind : LayerKind) (views : List View) (shapes : List Shape) : Prop where
  operation : kind.isBinding = false
  parameters : kind.checkParameters = .ok ()
  inferred : kind.inferShapes (views.map (·.shape)) = .ok shapes
  activation : ∀ cell params, kind = .lstm cell params →
    ∃ activation, Lstm.Activation.ofCode cell.activationCode = .ok activation
  full : ∀ view ∈ views, view.data.size = view.shape.elementCount

/-- A layer with inputs and output shapes that the checks before a run let through. -/
structure Admitted (kind : LayerKind) (views : List View) (shapes : List Shape) : Prop
    extends Applied kind views shapes where
  storable : ∀ shape ∈ shapes, shape.isStorable = true

namespace Applied

variable {views : List View} {shapes : List Shape} {kind : LayerKind}

theorem inferChecked (applied : Applied kind views shapes) :
    views.length = kind.inputCount ∧ kind.inferChecked (views.map (·.shape)) = .ok shapes := by
  simpa using LayerKind.inferShapes_eq_ok.mp applied.inferred

/-- A layer with one input. -/
theorem single (applied : Applied kind views shapes) (one : kind.inputCount = 1) :
    ∃ view, views = [view] ∧ view.data.size = view.shape.elementCount := by
  obtain ⟨view, rfl⟩ := List.length_eq_one_iff.mp (applied.inferChecked.1.trans one)
  exact ⟨view, rfl, applied.full view List.mem_cons_self⟩

/-- The planes that pooling goes through. -/
theorem planes {pooling : Pooling} (applied : Applied (.pooling2d pooling) views shapes) :
    ∃ view batch channels height width rows columns,
      views = [view] ∧ view.shape = ⟨[batch, channels, height, width]⟩ ∧
      shapes = [⟨[batch, channels, rows, columns]⟩] ∧
      view.data.size = batch.toNat * channels.toNat * (height.toNat * width.toNat) ∧
      (pooling.isGlobal = true → rows = 1 ∧ columns = 1) := by
  obtain ⟨view, rfl, full⟩ := applied.single rfl
  obtain ⟨out, inferred, same⟩ := bind_eq_ok.mp applied.inferChecked.2
  obtain rfl := pure_eq_ok.mp same
  obtain ⟨batch, channels, height, width, rows, columns, shape, rfl⟩ :=
    Pooling.inferShape_eq_ok inferred
  dsimp only at shape
  refine ⟨view, batch, channels, height, width, rows, columns, rfl, shape, rfl, ?_,
    fun whole => ?_⟩
  · rw [full, shape, Shape.elementCount_planes]
  · simpa [Pooling.inferShape, shape, whole, eq_comm] using inferred

/-- The operands of a cell. -/
theorem step {cell : Lstm.Cell} {params : Lstm.Params}
    (applied : Applied (.lstm cell params) views shapes) :
    ∃ input outputState cellState batch inputSize outputSize units,
      views = [input, outputState, cellState] ∧
      params.checkGroups cell = .ok () ∧
      Lstm.inferMatrices cell params batch inputSize batch outputSize batch units = .ok shapes ∧
      StepOperands batch inputSize outputSize units input outputState cellState := by
  obtain ⟨count, checked⟩ := applied.inferChecked
  obtain ⟨input, outputState, cellState, rfl⟩ := List.length_eq_three.mp count
  obtain ⟨batch, inputSize, outputBatch, outputSize, cellBatch, units, operands, inferred⟩ :=
    Lstm.inferShapes_eq_ok.mp checked
  obtain ⟨⟨rfl, rfl⟩, _⟩ := Lstm.inferMatrices_eq_ok.mp inferred
  have full := applied.full
  simp only [List.map_cons, List.map_nil, List.cons.injEq, and_true] at operands
  obtain ⟨inputShape, outputShape, cellShape⟩ := operands
  simp only [List.forall_mem_cons] at full
  obtain ⟨inputFull, outputFull, cellFull, _⟩ := full
  exact ⟨input, outputState, cellState, _, inputSize, outputSize, units, rfl,
    checkGroups_of_parameters applied.parameters, inferred,
    .of_full inputShape outputShape cellShape inputFull outputFull cellFull⟩

end Applied

/-- Layers that are not stuck have a value of the inferred shapes. -/
theorem progress {kind : LayerKind} {views : List View} {shapes : List Shape}
    (admitted : Admitted kind views shapes) (free : ¬Stuck kind (views.map (·.shape)) shapes) :
    ∃ results, evaluate kind views shapes = .ok results ∧
      List.Forall₂ (fun data shape => data.size = shape.elementCount) results shapes := by
  obtain ⟨count, checked⟩ := admitted.inferChecked
  cases kind with
  | input _ => cases admitted.operation
  | output _ => cases admitted.operation
  | activation curve =>
    obtain ⟨view, rfl, full⟩ := admitted.single rfl
    cases checked
    exact ⟨_, rfl, .cons ((size_activation curve view).trans full) .nil⟩
  | softmax beta =>
    obtain ⟨view, rfl, full⟩ := admitted.single rfl
    cases checked
    have axis : view.shape.extents ≠ [] := fun none => free (by
      rw [List.map_singleton, show view.shape = ⟨[]⟩ from congrArg Shape.mk none]
      exact .softmax)
    obtain ⟨result, computed, size⟩ := @softmax_total beta _ axis full
    exact ⟨[result], evaluate_softmax_eq_ok.mpr ⟨result, computed, rfl⟩, .cons size .nil⟩
  | addition =>
    obtain ⟨a, b, rfl⟩ := List.length_eq_two.mp count
    simp only [LayerKind.inferChecked, List.map_cons, List.map_nil] at checked
    split at checked
    · rename_i out joined
      cases checked
      obtain ⟨result, computed, size⟩ := addition_total joined
        (admitted.storable out List.mem_cons_self) (admitted.full a (by simp))
        (admitted.full b (by simp))
      exact ⟨[result], evaluate_addition_eq_ok.mpr ⟨result, computed, rfl⟩, .cons size .nil⟩
    · cases checked
  | fullyConnected dense weights bias =>
    obtain ⟨view, rfl, full⟩ := admitted.single rfl
    obtain ⟨out, inferred, same⟩ := bind_eq_ok.mp checked
    obtain rfl := pure_eq_ok.mp same
    obtain ⟨result, computed, size⟩ :=
      fullyConnected_total inferred (admitted.storable out List.mem_cons_self) full
    exact ⟨[result], evaluate_fullyConnected_eq_ok.mpr ⟨result, computed, rfl⟩, .cons size .nil⟩
  | convolution2d convolution weights bias =>
    obtain ⟨view, rfl, full⟩ := admitted.single rfl
    obtain ⟨out, inferred, same⟩ := bind_eq_ok.mp checked
    obtain rfl := pure_eq_ok.mp same
    obtain ⟨result, computed, size⟩ :=
      convolution2d_total inferred (admitted.storable out List.mem_cons_self) full
    exact ⟨[result], evaluate_convolution2d_eq_ok.mpr ⟨result, computed, rfl⟩, .cons size .nil⟩
  | pooling2d pooling =>
    obtain ⟨view, batch, channels, height, width, rows, columns, rfl, shape, rfl, full, _⟩ :=
      admitted.planes
    have sizes : view.shape.sizes = [batch.toNat, channels.toNat, height.toNat, width.toNat] := by
      rw [shape]
      rfl
    have taken : ¬(batch.toNat * channels.toNat ≠ 0 ∧
        PoolingStuck pooling height.toNat width.toNat rows.toNat columns.toNat) := by
      rintro ⟨occupied, window⟩
      refine free ?_
      rw [List.map_singleton, shape]
      exact .pooling2d (mul_toNat_ne_zero.mp occupied) window
    obtain ⟨result, computed⟩ := (pooling2d_total_iff sizes rfl full
      (admitted.storable _ List.mem_cons_self)).mpr taken
    have size := size_pooling2d sizes rfl full computed
    exact ⟨[result], evaluate_pooling2d_eq_ok.mpr ⟨result, computed, rfl⟩, .cons size .nil⟩
  | lstm cell params =>
    obtain ⟨input, outputState, cellState, batch, inputSize, outputSize, units, rfl, groups,
      inferred, operands⟩ := admitted.step
    obtain ⟨activation, code⟩ := admitted.activation cell params rfl
    have room : ¬(batch ≠ 0 ∧ units = 0) := by
      rintro ⟨occupied, rfl⟩
      refine free ?_
      simp only [List.map_cons, List.map_nil, operands.cellShape]
      exact .lstm occupied
    obtain ⟨result, computed⟩ :=
      (@lstm_total_iff _ _ activation _ _ _ _ _ _ _ _ groups inferred operands).mpr
        ⟨admitted.storable, room⟩
    exact ⟨_, evaluate_lstm_eq_ok.mpr ⟨activation, result, code, computed, rfl⟩,
      size_lstm inferred operands computed⟩

/-- Layers that are stuck have none. -/
theorem Stuck.evaluate_ne_ok {kind : LayerKind} {views : List View} {shapes : List Shape}
    (stuck : Stuck kind (views.map (·.shape)) shapes) (admitted : Admitted kind views shapes)
    (results : List (Array Float32)) : evaluate kind views shapes ≠ .ok results := by
  intro evaluated
  generalize inputs : views.map (·.shape) = sources at stuck
  cases stuck with
  | softmax =>
    obtain ⟨⟨shape, data⟩, rfl, scalar⟩ := List.map_eq_singleton_iff.mp inputs
    cases scalar
    obtain ⟨_, computed, _⟩ := evaluate_softmax_eq_ok.mp evaluated
    cases computed
  | pooling2d occupied window =>
    obtain ⟨view, batch, channels, height, width, _, _, rfl, shape, same, full, _⟩ :=
      admitted.planes
    simp only [List.map_cons, List.map_nil, shape, List.cons.injEq, Shape.mk.injEq,
      and_true] at inputs same
    obtain ⟨rfl, rfl, rfl, rfl⟩ := inputs
    obtain ⟨_, _, rfl, rfl⟩ := same
    have sizes : view.shape.sizes = [batch.toNat, channels.toNat, height.toNat, width.toNat] := by
      rw [shape]
      rfl
    obtain ⟨result, computed, _⟩ := evaluate_pooling2d_eq_ok.mp evaluated
    exact (pooling2d_total_iff sizes rfl full (admitted.storable _ List.mem_cons_self)).mp
      ⟨result, computed⟩ ⟨mul_toNat_ne_zero.mpr occupied, window⟩
  | lstm occupied =>
    obtain ⟨input, outputState, cellState, batch, inputSize, outputSize, units, rfl, groups,
      inferred, operands⟩ := admitted.step
    simp only [List.map_cons, List.map_nil, operands.cellShape, List.cons.injEq, Shape.mk.injEq,
      and_true] at inputs
    obtain ⟨_, _, rfl, rfl⟩ := inputs
    obtain ⟨_, result, _, computed, _⟩ := evaluate_lstm_eq_ok.mp evaluated
    exact ((lstm_total_iff groups inferred operands).mp ⟨result, computed⟩).2 ⟨occupied, rfl⟩

end Reference

/-- A descriptor that the checks before a run let through. -/
structure QueueDescriptor.Checked (descriptor : QueueDescriptor) : Prop where
  operation : descriptor.kind.isBinding = false
  parameters : descriptor.kind.checkParameters = .ok ()
  inferred : descriptor.kind.inferShapes (descriptor.inputs.map (·.shape)) =
    .ok (descriptor.outputs.map (·.shape))
  activation : ∀ cell params, descriptor.kind = .lstm cell params →
    ∃ activation, Lstm.Activation.ofCode cell.activationCode = .ok activation

/-- Memory that holds a full buffer for every handle of a descriptor, one of its own for each
output. -/
structure QueueDescriptor.Backed (descriptor : QueueDescriptor) (memory : HostMemory) : Prop
    extends descriptor.Ready memory where
  written : ∀ handle ∈ descriptor.outputs, ∃ data,
    memory.read? handle = some data ∧ data.size = handle.info.elementCount
  storable : ∀ handle ∈ descriptor.outputs, handle.shape.isStorable = true

namespace QueueDescriptor

variable {descriptor : QueueDescriptor} {memory : HostMemory}

/-- The descriptor is one that no kernel can run. -/
def Stuck (descriptor : QueueDescriptor) : Prop :=
  Reference.Stuck descriptor.kind (descriptor.inputs.map (·.shape))
    (descriptor.outputs.map (·.shape))

/-- What the inputs of a descriptor show. -/
theorem Backed.exists_views (backed : descriptor.Backed memory) :
    ∃ views : List Reference.View, views.map some = descriptor.inputs.map memory.view? ∧
      views.map (·.shape) = descriptor.inputs.map (·.shape) ∧
      ∀ view ∈ views, view.data.size = view.shape.elementCount := by
  have inputs := backed.inputs
  generalize descriptor.inputs = handles at inputs
  induction handles with
  | nil => exact ⟨[], rfl, rfl, by simp⟩
  | cons handle handles ih =>
    obtain ⟨⟨data, held, size⟩, inputs⟩ := List.forall_mem_cons.mp inputs
    obtain ⟨views, read, shapes, full⟩ := ih inputs
    refine ⟨⟨handle.shape, data⟩ :: views, ?_, ?_, ?_⟩
    · simp [read, HostMemory.view?, held]
    · simp [shapes]
    · exact List.forall_mem_cons.mpr ⟨size, full⟩

theorem Checked.admitted (checked : descriptor.Checked) (backed : descriptor.Backed memory)
    {views : List Reference.View} (shapes : views.map (·.shape) = descriptor.inputs.map (·.shape))
    (full : ∀ view ∈ views, view.data.size = view.shape.elementCount) :
    Reference.Admitted descriptor.kind views (descriptor.outputs.map (·.shape)) where
  operation := checked.operation
  parameters := checked.parameters
  inferred := shapes ▸ checked.inferred
  activation := checked.activation
  full := full
  storable := List.forall_mem_map.mpr backed.storable

end QueueDescriptor

namespace Reference

variable {descriptor : QueueDescriptor} {device : Device}

/-- A kernel that is not stuck overwrites its outputs and nothing else. -/
theorem execute_progress (checked : descriptor.Checked) (backed : descriptor.Backed device.host)
    (free : ¬descriptor.Stuck) :
    ∃ host, execute descriptor device = ({ device with host }, .ok ()) ∧
      host.SameSizes device.host := by
  obtain ⟨views, read, shapes, full⟩ := backed.exists_views
  obtain ⟨results, evaluated, sizes⟩ :=
    progress (checked.admitted backed shapes full) (shapes ▸ free)
  obtain ⟨host, written, same, _⟩ :=
    writeResults_of_fits backed.outputs (fits_of_sizes backed.written sizes)
  exact ⟨host, execute_eq_ok.mpr ⟨views, results, host, read, evaluated, written, rfl⟩, same⟩

theorem execute_stuck (checked : descriptor.Checked) (backed : descriptor.Backed device.host)
    (stuck : descriptor.Stuck) (final : Device) : execute descriptor device ≠ (final, .ok ()) := by
  intro success
  obtain ⟨views, results, host, read, evaluated, _⟩ := execute_eq_ok.mp success
  obtain ⟨others, again, shapes, full⟩ := backed.exists_views
  obtain rfl : views = others :=
    List.map_injective_iff.mpr (Option.some_injective _) (read.trans again.symm)
  have admitted := checked.admitted backed shapes full
  exact Stuck.evaluate_ne_ok (shapes ▸ stuck) admitted results evaluated

end Reference

end NeuralGraph
