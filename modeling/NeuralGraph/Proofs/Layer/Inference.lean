import NeuralGraph.Layer.Kind
import NeuralGraph.Proofs.Outcome
import NeuralGraph.Proofs.Tensor.Shape

/-! What inference asks for and gives: one shape for each output slot, and for a cell the sizes
that its constants imply. -/

namespace NeuralGraph

namespace Lstm

variable {cell : Cell} {params : Params}

/-- Every constant that a cell has must have the shape of its role. -/
theorem Params.checkShapes_eq_ok {dims : Dims} :
    params.checkShapes dims = .ok () ↔ ∀ role constant, params.get? role = some constant →
      constant.shape = dims.expected role := by
  unfold checkShapes
  constructor
  · intro checked role constant plays
    split at checked
    · rename_i none
      have entry : (role, constant) ∈ params.tensors :=
        List.mem_filterMap.mpr ⟨role, by cases role <;> decide, by simp [plays]⟩
      simpa using List.find?_eq_none.mp none _ entry
    · cases checked
  · intro shapes
    split
    · rfl
    · rename_i role constant found
      obtain ⟨other, _, plays⟩ := List.mem_filterMap.mp (List.mem_of_find?_eq_some found)
      obtain ⟨held, there, same⟩ := Option.map_eq_some_iff.mp plays
      cases same
      have wrong := List.find?_some found
      simp [shapes _ _ there] at wrong

/-- The groups of constants that a cell enables are there. -/
theorem Params.checkGroups_eq_ok :
    params.checkGroups cell = .ok () ↔
      (cell.coupled = false → params.inputToInputWeights.isSome ∧
        params.recurrentToInputWeights.isSome ∧ params.inputGateBias.isSome) ∧
      (cell.projection = true → params.projectionWeights.isSome) ∧
      (cell.peephole = true → params.cellToForgetWeights.isSome ∧
        params.cellToOutputWeights.isSome) := by
  unfold checkGroups
  have missing : params.missingInputGate? = none ↔ params.inputToInputWeights.isSome ∧
      params.recurrentToInputWeights.isSome ∧ params.inputGateBias.isSome := by
    simp [missingInputGate?, get?, Option.isSome_iff_ne_none]
  rw [← missing]
  cases cell.coupled with
  | true => simp [guard_eq_ok, check_eq_ok, Option.isSome_iff_ne_none]
  | false =>
    cases params.missingInputGate? with
    | none => simp [guard_eq_ok, check_eq_ok, Option.isSome_iff_ne_none]
    | some role => simp [throw_bind_ne_ok]

theorem asMismatch_eq_ok {α : Type} {result : Except Fault α} {value : α} :
    asMismatch result = .ok value ↔ result = .ok value := by
  cases result <;> simp [asMismatch]

theorem inferMatrices_eq_ok
    {batch inputSize outputBatch outputSize cellBatch units : Extent} {shapes : List Shape} :
    inferMatrices cell params batch inputSize outputBatch outputSize cellBatch units = .ok shapes ↔
      (outputBatch = batch ∧ cellBatch = batch) ∧
      params.dims = .ok ⟨units, inputSize, outputSize⟩ ∧
      params.checkShapes ⟨units, inputSize, outputSize⟩ = .ok () ∧
      (cell.projection = true ∨ outputSize = units) ∧
      ∃ scratch, Extent.ofNat? (units.toNat * cell.gates) = some scratch ∧
        shapes = [⟨[batch, scratch]⟩, ⟨[batch, outputSize]⟩, ⟨[batch, units]⟩,
          ⟨[batch, outputSize]⟩] := by
  simp only [inferMatrices, guard_eq_ok, bind_eq_ok, asMismatch_eq_ok]
  constructor
  · rintro ⟨batches, dims, sizes, unitsSame, widthsSame, ⟨⟩, checked, width, scratchFits⟩
    simp only [not_or, ne_eq, Decidable.not_not] at batches unitsSame widthsSame
    obtain ⟨inputSame, outputSame⟩ := widthsSame
    obtain rfl : dims = ⟨units, inputSize, outputSize⟩ := by
      cases dims
      simp_all
    refine ⟨batches, sizes, checked, by simpa [Decidable.or_iff_not_imp_left] using width, ?_⟩
    cases scratch : Extent.ofNat? (units.toNat * cell.gates) with
    | none => simp [scratch, throw_ne_ok] at scratchFits
    | some extent =>
      rw [scratch] at scratchFits
      exact ⟨extent, rfl, (pure_eq_ok.mp scratchFits).symm⟩
  · rintro ⟨⟨rfl, rfl⟩, sizes, checked, width, scratch, fits, rfl⟩
    refine ⟨by simp, _, sizes, by simp, by simp, (), checked, ?_, ?_⟩
    · simpa [Decidable.or_iff_not_imp_left] using width
    · rw [fits]
      rfl

theorem inferShapes_eq_ok {inputs shapes : List Shape} :
    inferShapes cell params inputs = .ok shapes ↔
      ∃ batch inputSize outputBatch outputSize cellBatch units,
        inputs = [⟨[batch, inputSize]⟩, ⟨[outputBatch, outputSize]⟩, ⟨[cellBatch, units]⟩] ∧
        inferMatrices cell params batch inputSize outputBatch outputSize cellBatch units =
          .ok shapes := by
  unfold inferShapes
  rw [bind_eq_ok]
  constructor
  · rintro ⟨⟨⟩, _, inferred⟩
    split at inferred
    · exact ⟨_, _, _, _, _, _, rfl, inferred⟩
    · exact absurd inferred throw_ne_ok
  · rintro ⟨_, _, _, _, _, _, rfl, inferred⟩
    exact ⟨(), rfl, inferred⟩

end Lstm

namespace Dense

variable {dense : Dense} {weights : Constant} {bias : Option Constant} {input out : Shape}

private theorem foldlM_flatten {extents : List Extent} {start product : Extent}
    (fits : extents.foldlM (fun product extent =>
      Extent.ofNat? (product.toNat * extent.toNat)) start = some product) :
    product.toNat = start.toNat * Shape.volume (extents.map UInt32.toNat) := by
  induction extents generalizing start with
  | nil =>
    cases fits
    simp
  | cons extent rest ih =>
    obtain ⟨next, grown, later⟩ := Option.bind_eq_some_iff.mp fits
    rw [ih later, Extent.ofNat?_eq_some.mp grown, Nat.mul_assoc]
    rfl

theorem flatten?_eq_some {extents : List Extent} {product : Extent}
    (fits : flatten? extents = some product) :
    product.toNat = Shape.volume (extents.map UInt32.toNat) := by
  simpa using foldlM_flatten fits

theorem checkBias_eq_ok {outputs : Extent} :
    checkBias bias outputs = .ok () ↔ ∀ constant ∈ bias, constant.shape = ⟨[outputs]⟩ := by
  cases bias with
  | none => simp [checkBias]
  | some constant => simp [checkBias]

/-- Weights whose inputs are the elements of a batch entry. -/
theorem inferShape_eq_ok (inferred : dense.inferShape weights bias input = .ok out) :
    ∃ batch rest rows columns, input.extents = batch :: rest ∧
      weights.shape.extents = [rows, columns] ∧
      (dense.sides rows columns).1.toNat = Shape.volume (rest.map UInt32.toNat) ∧
      (∀ constant ∈ bias, constant.shape = ⟨[(dense.sides rows columns).2]⟩) ∧
      out = ⟨[batch, (dense.sides rows columns).2]⟩ := by
  unfold inferShape at inferred
  split at inferred
  · rename_i batch first rest extents
    split at inferred
    · rename_i rows columns matrix
      split at inferred
      · cases inferred
      · rename_i flattened fits
        dsimp only at inferred
        split at inferred
        · cases inferred
        · rename_i same
          obtain ⟨checked, given⟩ := seq_eq_ok.mp inferred
          obtain rfl := pure_eq_ok.mp given
          exact ⟨batch, first :: rest, rows, columns, extents, matrix,
            (not_not.mp same).symm ▸ flatten?_eq_some fits, checkBias_eq_ok.mp checked, rfl⟩
    · cases inferred
  · cases inferred

end Dense

namespace Convolution

variable {convolution : Convolution} {weights : Constant} {bias : Option Constant}
  {input out : Shape}

theorem checkBias_eq_ok {channels : Extent} (checked : checkBias bias channels = .ok ()) :
    ∀ constant ∈ bias, constant.shape = ⟨[channels]⟩ := by
  unfold checkBias at checked
  split at checked
  · simp
  · split at checked
    · simpa
    · cases checked

/-- Filters with a kernel for each channel of the input. -/
theorem inferShape_eq_ok (inferred : convolution.inferShape weights bias input = .ok out) :
    ∃ batch channels height width outputs kernelHeight kernelWidth rows columns,
      input = ⟨[batch, channels, height, width]⟩ ∧
      weights.shape = ⟨[outputs, channels, kernelHeight, kernelWidth]⟩ ∧
      (∀ constant ∈ bias, constant.shape = ⟨[outputs]⟩) ∧
      out = ⟨[batch, outputs, rows, columns]⟩ := by
  unfold inferShape at inferred
  split at inferred
  · rename_i batch channels height width extents
    split at inferred
    · rename_i outputs expected kernelHeight kernelWidth filters
      split at inferred
      · cases inferred
      · split at inferred
        · cases inferred
        · rename_i same
          obtain rfl := not_not.mp same
          obtain ⟨checked, given⟩ := seq_eq_ok.mp inferred
          obtain ⟨rows, _, given⟩ := bind_eq_ok.mp given
          obtain ⟨columns, _, given⟩ := bind_eq_ok.mp given
          obtain rfl := pure_eq_ok.mp given
          exact ⟨batch, expected, height, width, outputs, kernelHeight, kernelWidth, rows, columns,
            congrArg Shape.mk extents, congrArg Shape.mk filters, checkBias_eq_ok checked, rfl⟩
    · cases inferred
  · cases inferred

end Convolution

/-- Pooling keeps batch and channels. -/
theorem Pooling.inferShape_eq_ok {pooling : Pooling} {input out : Shape}
    (inferred : pooling.inferShape input = .ok out) :
    ∃ batch channels height width rows columns, input = ⟨[batch, channels, height, width]⟩ ∧
      out = ⟨[batch, channels, rows, columns]⟩ := by
  unfold inferShape at inferred
  split at inferred
  · rename_i batch channels height width extents
    split at inferred
    · cases inferred
      exact ⟨batch, channels, height, width, 1, 1, congrArg Shape.mk extents, rfl⟩
    · obtain ⟨columns, _, given⟩ := bind_eq_ok.mp inferred
      obtain ⟨rows, _, given⟩ := bind_eq_ok.mp given
      obtain rfl := pure_eq_ok.mp given
      exact ⟨batch, channels, height, width, rows, columns, congrArg Shape.mk extents, rfl⟩
  · cases inferred

namespace LayerKind

variable {kind : LayerKind} {inputs shapes : List Shape}

/-- Input layers are the layers that read nothing. -/
theorem inputCount_eq_zero : kind.inputCount = 0 ↔ ∃ binding, kind = .input binding := by
  cases kind <;> simp [inputCount]

theorem inferShapes_eq_ok :
    kind.inferShapes inputs = .ok shapes ↔
      inputs.length = kind.inputCount ∧ kind.inferChecked inputs = .ok shapes := by
  unfold inferShapes
  split <;> simp_all

theorem inferShapes_convolution2d_eq_ok {convolution : Convolution} {weights : Constant}
    {bias : Option Constant} {input out : Shape} :
    (convolution2d convolution weights bias).inferShapes [input] = .ok [out] ↔
      convolution.inferShape weights bias input = .ok out :=
  singleton_eq_ok

theorem inferShapes_pooling2d_eq_ok {pooling : Pooling} {input out : Shape} :
    (pooling2d pooling).inferShapes [input] = .ok [out] ↔ pooling.inferShape input = .ok out :=
  singleton_eq_ok

/-- Inference gives one shape for each output slot of the kind. -/
theorem length_inferShapes (success : kind.inferShapes inputs = .ok shapes) :
    shapes.length = kind.outputCount := by
  obtain ⟨_, checked⟩ := inferShapes_eq_ok.mp success
  have single : ∀ {computed : Except ShapeError Shape},
      (do return [← computed]) = .ok shapes → shapes.length = 1 := by
    intro computed gives
    obtain ⟨shape, _, same⟩ := bind_eq_ok.mp gives
    rw [← pure_eq_ok.mp same]
    rfl
  unfold inferChecked at checked
  split at checked
  · cases checked
  · cases checked
    rfl
  · cases checked
    rfl
  · cases checked
    rfl
  · split at checked
    · cases checked
      rfl
    · cases checked
  · exact single checked
  · exact single checked
  · exact single checked
  · obtain ⟨_, _, _, _, _, _, _, matrices⟩ := Lstm.inferShapes_eq_ok.mp checked
    obtain ⟨_, _, _, _, _, _, rfl⟩ := Lstm.inferMatrices_eq_ok.mp matrices
    rfl
  · cases checked

end LayerKind

end NeuralGraph
