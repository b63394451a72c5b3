import NeuralGraph.Proofs.Accelerator.Equivalence

/-! The capability check for cells and shape inference are written apart from each other: one
compares every tensor with a table of expected shapes, the other derives the outputs from the
inputs. They accept the same cells. -/

namespace NeuralGraph.Accelerator

open Lstm (Params Dims)

variable {cell : Lstm.Cell} {params : Params} {inputs outputs : List TensorInfo}

theorem saturatingProduct_eq {extent product : Extent} {factor : Nat}
    (fits : Extent.ofNat? (extent.toNat * factor) = some product) :
    saturatingProduct extent factor = product := by
  simp [saturatingProduct, fits]

namespace LstmFunction

/-- The tensors that a cell accepts are the ones that inference goes from and to, as long as the
width of the scratch buffer is an extent. -/
theorem checkTensors_iff_inferShapes {plan : List (Lstm.Role × Constant)} {dims : Dims}
    {scratch : Extent} (planned : stagingPlan cell params = .ok (plan, dims))
    (fits : Extent.ofNat? (dims.units.toNat * cell.gates) = some scratch)
    {inputs outputs : List Shape} :
    (inputs.length = 3 ∧ outputs.length = 4) ∧
        checkTensors dims cell.gates inputs outputs = .ok () ↔
      Lstm.inferShapes cell params inputs = .ok outputs := by
  obtain ⟨_, known, shapes, width, _⟩ := stagingPlan_eq_ok.mp planned
  have table : ∀ batch, tensorShapes dims cell.gates batch =
      ([⟨[batch, dims.inputSize]⟩, ⟨[batch, dims.outputSize]⟩, ⟨[batch, dims.units]⟩],
       [⟨[batch, scratch]⟩, ⟨[batch, dims.outputSize]⟩, ⟨[batch, dims.units]⟩,
        ⟨[batch, dims.outputSize]⟩]) := fun batch => by
    rw [tensorShapes, saturatingProduct_eq fits]
  constructor
  · rintro ⟨⟨three, four⟩, checked⟩
    cases inputs with
    | nil => simp at three
    | cons first rest =>
      obtain ⟨batch, sameInputs, sameOutputs⟩ :=
        (checkTensors_eq_ok ⟨by simpa using three, four⟩).mp checked
      rw [table] at sameInputs sameOutputs
      refine Lstm.inferShapes_eq_ok.mpr ⟨_, _, _, _, _, _, sameInputs, ?_⟩
      exact Lstm.inferMatrices_eq_ok.mpr
        ⟨⟨rfl, rfl⟩, known, shapes, width, scratch, fits, sameOutputs⟩
  · intro inferred
    obtain ⟨_, _, _, _, batch, _, rfl, matrices⟩ := Lstm.inferShapes_eq_ok.mp inferred
    obtain ⟨⟨rfl, rfl⟩, sizes, _, _, _, wide, rfl⟩ := Lstm.inferMatrices_eq_ok.mp matrices
    cases Except.ok.inj (known.symm.trans sizes)
    cases Option.some.inj (fits.symm.trans wide)
    refine ⟨⟨rfl, rfl⟩, (checkTensors_eq_ok ⟨rfl, rfl⟩).mpr ⟨batch, ?_, ?_⟩⟩ <;> rw [table]

/-- A cell is supported on tensors exactly when its activation has a name, the constants that it
enables are there, and inference gives precisely the output shapes. Only a scratch buffer whose
width is no extent could set the two apart. -/
theorem validate_supported_iff_inferred
    (narrow : ∀ dims, params.dims = .ok dims → dims.units.toNat * cell.gates < UInt32.size) :
    validate cell params inputs outputs = .supported ↔
      (∃ activation, Lstm.Activation.ofCode cell.activationCode = .ok activation) ∧
      params.checkGroups cell = .ok () ∧
      (LayerKind.lstm cell params).inferShapes (inputs.map (·.shape)) =
        .ok (outputs.map (·.shape)) := by
  have fits : ∀ {dims}, params.dims = .ok dims → ∃ scratch,
      Extent.ofNat? (dims.units.toNat * cell.gates) = some scratch := fun known =>
    ⟨_, if_pos (narrow _ known)⟩
  rw [validate_eq_supported]
  constructor
  · rintro ⟨activation, plan, dims, code, planned, counts, checked⟩
    obtain ⟨groups, known, _⟩ := stagingPlan_eq_ok.mp planned
    obtain ⟨_, wide⟩ := fits known
    have inferred := (checkTensors_iff_inferShapes planned wide).mp ⟨by simpa using counts, checked⟩
    exact ⟨⟨activation, code⟩, groups,
      LayerKind.inferShapes_eq_ok.mpr ⟨by simpa [LayerKind.inputCount] using counts.1, inferred⟩⟩
  · rintro ⟨⟨activation, code⟩, groups, inferred⟩
    obtain ⟨_, cellShapes⟩ := LayerKind.inferShapes_eq_ok.mp inferred
    have given : Lstm.inferShapes cell params (inputs.map (·.shape)) =
      .ok (outputs.map (·.shape)) := cellShapes
    obtain ⟨_, _, _, _, _, _, _, matrices⟩ := Lstm.inferShapes_eq_ok.mp given
    obtain ⟨_, known, shapes, width, scratch, wide, _⟩ := Lstm.inferMatrices_eq_ok.mp matrices
    have planned := stagingPlan_eq_ok.mpr ⟨groups, known, shapes, width, rfl⟩
    obtain ⟨counts, checked⟩ := (checkTensors_iff_inferShapes planned wide).mpr given
    exact ⟨activation, _, _, code, planned, by simpa using counts, checked⟩

theorem peepedCell_supported :
    (∀ dims, LstmWorkload.peepedParams.dims = .ok dims →
      dims.units.toNat * LstmWorkload.peepedCell.gates < UInt32.size) ∧
    (LayerKind.lstm LstmWorkload.peepedCell LstmWorkload.peepedParams).inferShapes
        [⟨[1, 1]⟩, ⟨[1, 1]⟩, ⟨[1, 2]⟩] =
      .ok [⟨[1, 8]⟩, ⟨[1, 1]⟩, ⟨[1, 2]⟩, ⟨[1, 1]⟩] ∧
    validate LstmWorkload.peepedCell LstmWorkload.peepedParams LstmWorkload.peepedInfo.inputs
      LstmWorkload.peepedInfo.outputs = .supported := by
  have narrow : ∀ dims, LstmWorkload.peepedParams.dims = .ok dims →
      dims.units.toNat * LstmWorkload.peepedCell.gates < UInt32.size := by
    intro dims known
    have sizes : LstmWorkload.peepedParams.dims = .ok ⟨2, 1, 1⟩ := rfl
    cases Except.ok.inj (sizes.symm.trans known)
    decide
  refine ⟨narrow, by decide +kernel, (validate_supported_iff_inferred narrow).mpr ⟨?_, ?_, ?_⟩⟩
  · exact ⟨.tanH, rfl⟩
  · rfl
  · decide +kernel

end LstmFunction

end NeuralGraph.Accelerator
