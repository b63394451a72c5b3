import NeuralGraph.Proofs.Layer.Inference
import NeuralGraph.Proofs.Reference.Elementwise
import NeuralGraph.Reference.Lstm

/-! The reference kernel for an LSTM step, opened. It succeeds exactly when its operands are full
matrices of one batch, its constants are there, its results can be allocated, and a row has room
for its gates. -/

namespace NeuralGraph

namespace Lstm

/-- The sizes that the data of a gate has in a cell. -/
structure Gate.Sized (gate : Gate) (dims : Dims) : Prop where
  inputWeights : gate.inputWeights.data.size = dims.units.toNat * dims.inputSize.toNat
  recurrentWeights : gate.recurrentWeights.data.size = dims.units.toNat * dims.outputSize.toNat
  bias : gate.bias.data.size = dims.units.toNat

namespace Params

variable {params : Params} {dims : Dims} {role : Role} {constant : Constant}

theorem size_matrix (shapes : params.checkShapes dims = .ok ())
    (plays : params.get? role = some constant) {rows columns : Extent}
    (expected : dims.expected role = ⟨[rows, columns]⟩) :
    constant.data.size = rows.toNat * columns.toNat := by
  have shape := (checkShapes_eq_ok.mp shapes role constant plays).trans expected
  rw [Constant.size_of_shape shape, Shape.elementCount_matrix]

theorem size_vector (shapes : params.checkShapes dims = .ok ())
    (plays : params.get? role = some constant) {length : Extent}
    (expected : dims.expected role = ⟨[length]⟩) : constant.data.size = length.toNat := by
  have shape := (checkShapes_eq_ok.mp shapes role constant plays).trans expected
  rw [Constant.size_of_shape shape, Shape.elementCount_vector]

theorem sized_forget (shapes : params.checkShapes dims = .ok ()) : params.forget.Sized dims :=
  ⟨@size_matrix _ _ .inputToForgetWeights _ shapes rfl _ _ rfl,
    @size_matrix _ _ .recurrentToForgetWeights _ shapes rfl _ _ rfl,
    @size_vector _ _ .forgetGateBias _ shapes rfl _ rfl⟩

theorem sized_cell (shapes : params.checkShapes dims = .ok ()) : params.cell.Sized dims :=
  ⟨@size_matrix _ _ .inputToCellWeights _ shapes rfl _ _ rfl,
    @size_matrix _ _ .recurrentToCellWeights _ shapes rfl _ _ rfl,
    @size_vector _ _ .cellBias _ shapes rfl _ rfl⟩

theorem sized_output (shapes : params.checkShapes dims = .ok ()) : params.output.Sized dims :=
  ⟨@size_matrix _ _ .inputToOutputWeights _ shapes rfl _ _ rfl,
    @size_matrix _ _ .recurrentToOutputWeights _ shapes rfl _ _ rfl,
    @size_vector _ _ .outputGateBias _ shapes rfl _ rfl⟩

theorem sized_input (shapes : params.checkShapes dims = .ok ()) {gate : Gate}
    (input : params.inputToInputWeights = some gate.inputWeights)
    (recurrent : params.recurrentToInputWeights = some gate.recurrentWeights)
    (bias : params.inputGateBias = some gate.bias) : gate.Sized dims :=
  ⟨@size_matrix _ _ .inputToInputWeights _ shapes input _ _ rfl,
    @size_matrix _ _ .recurrentToInputWeights _ shapes recurrent _ _ rfl,
    @size_vector _ _ .inputGateBias _ shapes bias _ rfl⟩

end Params

end Lstm

namespace Reference

open Lstm (Gate Params Role Dims)

variable {cell : Lstm.Cell} {params : Params}

@[simp]
theorem length_addProduct (values : List Float32) (matrix : Constant) (x : List Float32) :
    (addProduct values matrix x).length = values.length := by
  simp [addProduct]

@[simp]
theorem length_preActivation (gate : Gate) (x h : List Float32) :
    (preActivation gate x h).length = gate.bias.data.size := by
  simp [preActivation]

/-- The sum of a gate, with its peephole if it has one. -/
def peepedSum (gate : Gate) (peephole : Option Constant) (x h state : List Float32) :
    List Float32 :=
  match peephole with
  | none => preActivation gate x h
  | some weights => addPeephole (preActivation gate x h) weights state

theorem length_peepedSum {gate : Gate} {peephole : Option Constant} {x h state : List Float32}
    {units : Nat} (bias : gate.bias.data.size = units) (width : state.length = units)
    (weights : ∀ constant ∈ peephole, constant.data.size = units) :
    (peepedSum gate peephole x h state).length = units := by
  unfold peepedSum
  cases peephole with
  | none => simp [bias]
  | some constant => simp [addPeephole, bias, width, weights constant rfl]

theorem requireRole_eq_ok {role : Role} {constant : Constant} :
    requireRole params role = .ok constant ↔ params.get? role = some constant := by
  unfold requireRole
  cases params.get? role <;> simp

/-- The input gate of a cell that has one of its own. -/
def ownGate (cell : Lstm.Cell) (params : Params) : Except Error (Option Gate) :=
  if cell.coupled then pure none
  else do
    let inputWeights ← requireRole params .inputToInputWeights
    let recurrentWeights ← requireRole params .recurrentToInputWeights
    let bias ← requireRole params .inputGateBias
    pure (some { inputWeights, recurrentWeights, bias })

/-- The peephole weights that every cell with peepholes has. -/
def peepholes (cell : Lstm.Cell) (params : Params) : Except Error (Option (Constant × Constant)) :=
  if cell.peephole then do
    let toForget ← requireRole params .cellToForgetWeights
    let toOutput ← requireRole params .cellToOutputWeights
    pure (some (toForget, toOutput))
  else pure none

/-- The projection of a cell that has one. -/
def ownProjection (cell : Lstm.Cell) (params : Params) : Except Error (Option Constant) :=
  if cell.projection then do pure (some (← requireRole params .projectionWeights)) else pure none

theorem lstmExtras_eq (cell : Lstm.Cell) (params : Params) :
    lstmExtras cell params = do
      let inputGate ← ownGate cell params
      let peephole ← peepholes cell params
      let projection ← ownProjection cell params
      return { inputGate, peephole, projection } := by
  unfold lstmExtras ownGate peepholes ownProjection
  cases cell.coupled <;> cases cell.peephole <;> cases cell.projection <;>
    simp [bind_assoc]

theorem lstmExtras_eq_ok {extras : LstmExtras} :
    lstmExtras cell params = .ok extras ↔ ownGate cell params = .ok extras.inputGate ∧
      peepholes cell params = .ok extras.peephole ∧
      ownProjection cell params = .ok extras.projection := by
  simp only [lstmExtras_eq, bind_eq_ok, pure_eq_ok]
  constructor
  · rintro ⟨_, input, _, peephole, _, projection, rfl⟩
    exact ⟨input, peephole, projection⟩
  · rintro ⟨input, peephole, projection⟩
    exact ⟨_, input, _, peephole, _, projection, rfl⟩

theorem ownGate_eq_ok {gate : Option Gate} :
    ownGate cell params = .ok gate ↔ (cell.coupled = true ∧ gate = none) ∨
      (cell.coupled = false ∧ ∃ own, gate = some own ∧
        params.inputToInputWeights = some own.inputWeights ∧
        params.recurrentToInputWeights = some own.recurrentWeights ∧
        params.inputGateBias = some own.bias) := by
  unfold ownGate
  cases cell.coupled with
  | true => simp [pure, Except.pure, eq_comm]
  | false =>
    simp only [Bool.false_eq_true, if_false, bind_eq_ok, pure_eq_ok, requireRole_eq_ok,
      Params.get?, false_and, true_and, false_or]
    constructor
    · rintro ⟨_, input, _, recurrent, _, bias, rfl⟩
      exact ⟨_, rfl, input, recurrent, bias⟩
    · rintro ⟨_, rfl, input, recurrent, bias⟩
      exact ⟨_, input, _, recurrent, _, bias, rfl⟩

theorem peepholes_eq_ok {weights : Option (Constant × Constant)} :
    peepholes cell params = .ok weights ↔ (cell.peephole = false ∧ weights = none) ∨
      (cell.peephole = true ∧ ∃ toForget toOutput, weights = some (toForget, toOutput) ∧
        params.cellToForgetWeights = some toForget ∧
        params.cellToOutputWeights = some toOutput) := by
  unfold peepholes
  cases cell.peephole with
  | false => simp [pure, Except.pure, eq_comm]
  | true =>
    simp only [if_true, bind_eq_ok, pure_eq_ok, requireRole_eq_ok, Params.get?, true_and,
      reduceCtorEq, false_and, false_or]
    constructor
    · rintro ⟨_, toForget, _, toOutput, rfl⟩
      exact ⟨_, _, rfl, toForget, toOutput⟩
    · rintro ⟨_, _, rfl, toForget, toOutput⟩
      exact ⟨_, toForget, _, toOutput, rfl⟩

theorem ownProjection_eq_ok {weights : Option Constant} :
    ownProjection cell params = .ok weights ↔ (cell.projection = false ∧ weights = none) ∨
      (cell.projection = true ∧ ∃ own, weights = some own ∧
        params.projectionWeights = some own) := by
  unfold ownProjection
  cases cell.projection with
  | false => simp [pure, Except.pure, eq_comm]
  | true =>
    simp only [if_true, bind_eq_ok, pure_eq_ok, requireRole_eq_ok, Params.get?, true_and,
      reduceCtorEq, false_and, false_or]
    constructor
    · rintro ⟨_, projection, rfl⟩
      exact ⟨_, rfl, projection⟩
    · rintro ⟨_, rfl, projection⟩
      exact ⟨_, projection, rfl⟩

theorem checkOperand_eq_ok {operand : View} {batch width : Extent} :
    checkOperand operand batch width = .ok () ↔ operand.shape = ⟨[batch, width]⟩ ∧
      operand.data.size = batch.toNat * width.toNat := by
  unfold checkOperand
  split
  · rename_i full
    obtain ⟨shape, size⟩ := full
    simp [shape, size]
  · rename_i short
    simp only [reduceCtorEq, false_iff]
    rintro ⟨shape, size⟩
    exact short ⟨shape, by simp [shape, size]⟩

/-- The input gate of a row, by the sum of its gate. -/
theorem inputGateValues_some (gate : Gate) (forget x h state : List Float32) :
    inputGateValues cell params (some gate) forget x h state =
      (peepedSum gate (if cell.peephole then params.cellToInputWeights else none) x h state).map
        Scalar.sigmoid := by
  unfold inputGateValues peepedSum
  cases cell.peephole <;> cases params.cellToInputWeights <;> rfl

/-- The two peepholes that a row reads. -/
theorem peepholes_of_lstmExtras {extras : LstmExtras}
    (found : lstmExtras cell params = .ok extras) :
    extras.peephole.map (·.1) = (if cell.peephole then params.cellToForgetWeights else none) ∧
      extras.peephole.map (·.2) = (if cell.peephole then params.cellToOutputWeights else none) := by
  rcases peepholes_eq_ok.mp (lstmExtras_eq_ok.mp found).2.1 with
    ⟨without, none⟩ | ⟨with_, toForget, toOutput, some, forget, output⟩
  · simp [without, none]
  · simp [with_, some, forget, output]

section Lengths

variable {dims : Dims} {extras : LstmExtras} {x h state : List Float32}

theorem length_forgetSum (shapes : params.checkShapes dims = .ok ())
    (found : lstmExtras cell params = .ok extras) (width : state.length = dims.units.toNat) :
    (peepedSum params.forget (extras.peephole.map (·.1)) x h state).length =
      dims.units.toNat := by
  apply length_peepedSum (Params.sized_forget shapes).bias width
  intro constant member
  rw [(peepholes_of_lstmExtras found).1] at member
  split at member
  · exact @Params.size_vector _ _ .cellToForgetWeights _ shapes member _ rfl
  · cases member

theorem length_outputSum (shapes : params.checkShapes dims = .ok ())
    (found : lstmExtras cell params = .ok extras) (width : state.length = dims.units.toNat) :
    (peepedSum params.output (extras.peephole.map (·.2)) x h state).length =
      dims.units.toNat := by
  apply length_peepedSum (Params.sized_output shapes).bias width
  intro constant member
  rw [(peepholes_of_lstmExtras found).2] at member
  split at member
  · exact @Params.size_vector _ _ .cellToOutputWeights _ shapes member _ rfl
  · cases member

theorem length_inputGateValues (shapes : params.checkShapes dims = .ok ())
    (found : lstmExtras cell params = .ok extras) {forget : List Float32}
    (widthForget : forget.length = dims.units.toNat) (width : state.length = dims.units.toNat) :
    (inputGateValues cell params extras.inputGate forget x h state).length =
      dims.units.toNat := by
  rcases ownGate_eq_ok.mp (lstmExtras_eq_ok.mp found).1 with
    ⟨_, none⟩ | ⟨_, gate, some, input, recurrent, bias⟩
  · simp [none, inputGateValues, widthForget]
  · rw [some, inputGateValues_some, List.length_map]
    refine length_peepedSum (Params.sized_input shapes input recurrent bias).bias width
      fun constant member => ?_
    split at member
    · exact @Params.size_vector _ _ .cellToInputWeights _ shapes member _ rfl
    · cases member

end Lengths

/-- A row, by the sums of its gates. -/
theorem lstmRow_eq (extras : LstmExtras) (activation : Lstm.Activation) (outputSize : Nat)
    (x h state : List Float32) :
    lstmRow cell params extras activation outputSize x h state =
      let forget := (peepedSum params.forget (extras.peephole.map (·.1)) x h state).map
        Scalar.sigmoid
      let candidate := (preActivation params.cell x h).map activation.apply
      let input := inputGateValues cell params extras.inputGate forget x h state
      let cellState := (List.zipWith (· + ·) (List.zipWith (· * ·) forget state)
        (List.zipWith (· * ·) input candidate)).map (Scalar.clip cell.cellClip)
      let outputGate := (peepedSum params.output (extras.peephole.map (·.2)) x h cellState).map
        Scalar.sigmoid
      let hidden := List.zipWith (fun gate value => gate * activation.apply value) outputGate
        cellState
      { scratch := (if cell.coupled then [] else input) ++ candidate ++ forget ++ outputGate
        cellState
        output := projectRow cell params extras.projection outputSize hidden } := by
  unfold lstmRow peepedSum
  cases extras.peephole <;> rfl

/-- The rows of a step, for the extras that it has looked up. -/
def lstmRows (cell : Lstm.Cell) (params : Params) (activation : Lstm.Activation) (dims : Dims)
    (extras : LstmExtras) (batch : Nat) (input outputState cellState : Array Float32) :
    List LstmRow :=
  (List.range batch).map fun index =>
    lstmRow cell params extras activation dims.outputSize.toNat
      (row input dims.inputSize.toNat index) (row outputState dims.outputSize.toNat index)
      (row cellState dims.units.toNat index)

section Operands

variable {activation : Lstm.Activation} {input outputState cellState : View}
  {batch inputSize outputSize units : Extent}

/-- Full operands of the shapes that a cell has been inferred from. -/
structure StepOperands (batch inputSize outputSize units : Extent)
    (input outputState cellState : View) : Prop where
  inputShape : input.shape = ⟨[batch, inputSize]⟩
  outputShape : outputState.shape = ⟨[batch, outputSize]⟩
  cellShape : cellState.shape = ⟨[batch, units]⟩
  inputFull : input.data.size = batch.toNat * inputSize.toNat
  outputFull : outputState.data.size = batch.toNat * outputSize.toNat
  cellFull : cellState.data.size = batch.toNat * units.toNat

theorem StepOperands.of_full (inputShape : input.shape = ⟨[batch, inputSize]⟩)
    (outputShape : outputState.shape = ⟨[batch, outputSize]⟩)
    (cellShape : cellState.shape = ⟨[batch, units]⟩)
    (inputFull : input.data.size = input.shape.elementCount)
    (outputFull : outputState.data.size = outputState.shape.elementCount)
    (cellFull : cellState.data.size = cellState.shape.elementCount) :
    StepOperands batch inputSize outputSize units input outputState cellState where
  inputShape := inputShape
  outputShape := outputShape
  cellShape := cellShape
  inputFull := by rw [inputFull, inputShape, Shape.elementCount_matrix]
  outputFull := by rw [outputFull, outputShape, Shape.elementCount_matrix]
  cellFull := by rw [cellFull, cellShape, Shape.elementCount_matrix]

/-- What a step does once its operands have been checked. -/
def lstmStep (cell : Lstm.Cell) (params : Params) (activation : Lstm.Activation) (dims : Dims)
    (batch : Extent) (input outputState cellState : Array Float32) : Except Error LstmOutputs := do
  let extras ← lstmExtras cell params
  if (bufferSizes cell dims batch.toNat).any fun count => !Capacity.fitsBuffer count then
    throw .outOfBounds
  if batch ≠ 0 ∧ (dims.units = 0 ∨ (extras.projection.isNone ∧ dims.outputSize ≠ dims.units)) then
    throw .outOfBounds
  let rows := lstmRows cell params activation dims extras batch.toNat input outputState cellState
  return {
    scratch := (rows.flatMap (·.scratch)).toArray
    outputState := (rows.flatMap (·.output)).toArray
    cellState := (rows.flatMap (·.cellState)).toArray
    output := (rows.flatMap (·.output)).toArray }

theorem StepOperands.lstm_eq
    (operands : StepOperands batch inputSize outputSize units input outputState cellState)
    (known : params.dims = .ok ⟨units, inputSize, outputSize⟩)
    (shapes : params.checkShapes ⟨units, inputSize, outputSize⟩ = .ok ()) :
    lstm cell params activation input outputState cellState =
      lstmStep cell params activation ⟨units, inputSize, outputSize⟩ batch input.data
        outputState.data cellState.data := by
  have batched : (input.shape.dim? 0).getD 0 = batch := by simp [operands.inputShape, Shape.dim?]
  have inputFull := checkOperand_eq_ok.mpr ⟨operands.inputShape, operands.inputFull⟩
  have outputFull := checkOperand_eq_ok.mpr ⟨operands.outputShape, operands.outputFull⟩
  have cellFull := checkOperand_eq_ok.mpr ⟨operands.cellShape, operands.cellFull⟩
  unfold lstm
  simp only [known, shapes, liftFault, bind_ok, batched, inputFull, outputFull, cellFull]
  rfl

/-- A step succeeds on full operands, where its constants are there, memory can hold its results and
its rows have room. -/
theorem lstm_eq_ok {result : LstmOutputs}
    (known : params.dims = .ok ⟨units, inputSize, outputSize⟩)
    (shapes : params.checkShapes ⟨units, inputSize, outputSize⟩ = .ok ())
    (operands : StepOperands batch inputSize outputSize units input outputState cellState) :
    lstm cell params activation input outputState cellState = .ok result ↔
      ∃ extras, lstmExtras cell params = .ok extras ∧
        (∀ count ∈ bufferSizes cell ⟨units, inputSize, outputSize⟩ batch.toNat,
          Capacity.fitsBuffer count = true) ∧
        (batch ≠ 0 → units ≠ 0 ∧ (extras.projection = none → outputSize = units)) ∧
        result =
          let rows := lstmRows cell params activation ⟨units, inputSize, outputSize⟩ extras
            batch.toNat input.data outputState.data cellState.data
          { scratch := (rows.flatMap (·.scratch)).toArray
            outputState := (rows.flatMap (·.output)).toArray
            cellState := (rows.flatMap (·.cellState)).toArray
            output := (rows.flatMap (·.output)).toArray } := by
  rw [operands.lstm_eq known shapes, lstmStep, bind_eq_ok]
  refine exists_congr fun extras => and_congr_right fun _ => ?_
  rw [guard_eq_ok, guard_eq_ok, pure_eq_ok]
  refine and_congr (by simp) (and_congr ?_ ⟨Eq.symm, Eq.symm⟩)
  cases extras.projection <;> simp [Classical.or_iff_not_imp_left]

end Operands

/-- What a cell enables can be looked up. -/
theorem lstmExtras_total (groups : params.checkGroups cell = .ok ()) :
    ∃ extras, lstmExtras cell params = .ok extras := by
  obtain ⟨inputs, projects, peeps⟩ := Params.checkGroups_eq_ok.mp groups
  simp only [Option.isSome_iff_exists] at inputs projects peeps
  obtain ⟨gate, ownInput⟩ : ∃ gate, ownGate cell params = .ok gate := by
    cases coupled : cell.coupled with
    | true => exact ⟨none, ownGate_eq_ok.mpr (.inl ⟨coupled, rfl⟩)⟩
    | false =>
      obtain ⟨⟨input, hasInput⟩, ⟨recurrent, hasRecurrent⟩, bias, hasBias⟩ := inputs coupled
      exact ⟨some ⟨input, recurrent, bias⟩,
        ownGate_eq_ok.mpr (.inr ⟨coupled, _, rfl, hasInput, hasRecurrent, hasBias⟩)⟩
  obtain ⟨weights, peepholes⟩ : ∃ weights, peepholes cell params = .ok weights := by
    cases peephole : cell.peephole with
    | false => exact ⟨none, peepholes_eq_ok.mpr (.inl ⟨peephole, rfl⟩)⟩
    | true =>
      obtain ⟨⟨toForget, hasForget⟩, toOutput, hasOutput⟩ := peeps peephole
      exact ⟨some (toForget, toOutput),
        peepholes_eq_ok.mpr (.inr ⟨peephole, toForget, toOutput, rfl, hasForget, hasOutput⟩)⟩
  obtain ⟨own, projection⟩ : ∃ own, ownProjection cell params = .ok own := by
    cases projection : cell.projection with
    | false => exact ⟨none, ownProjection_eq_ok.mpr (.inl ⟨projection, rfl⟩)⟩
    | true =>
      obtain ⟨own, hasOwn⟩ := projects projection
      exact ⟨some own, ownProjection_eq_ok.mpr (.inr ⟨projection, own, rfl, hasOwn⟩)⟩
  exact ⟨⟨gate, weights, own⟩, lstmExtras_eq_ok.mpr ⟨ownInput, peepholes, projection⟩⟩

section Rows

variable {dims : Dims} {extras : LstmExtras}

theorem length_projectRow {hidden : List Float32} (shapes : params.checkShapes dims = .ok ())
    (found : lstmExtras cell params = .ok extras) (width : hidden.length = dims.units.toNat)
    (unprojected : cell.projection = true ∨ dims.outputSize = dims.units) :
    (projectRow cell params extras.projection dims.outputSize.toNat hidden).length =
      dims.outputSize.toNat := by
  rcases ownProjection_eq_ok.mp (lstmExtras_eq_ok.mp found).2.2 with
    ⟨without, none⟩ | ⟨_, own, some, _⟩
  · rw [none, projectRow, width, unprojected.resolve_left (by simp [without])]
  · rw [some, projectRow]
    cases bias : params.projectionBias with
    | none => simp
    | some constant =>
      simp [@Params.size_vector _ _ .projectionBias _ shapes bias _ rfl]

/-- The widths of what one row gives. -/
theorem length_lstmRow {activation : Lstm.Activation} {x h state : List Float32}
    (shapes : params.checkShapes dims = .ok ()) (found : lstmExtras cell params = .ok extras)
    (width : state.length = dims.units.toNat)
    (unprojected : cell.projection = true ∨ dims.outputSize = dims.units) :
    let row := lstmRow cell params extras activation dims.outputSize.toNat x h state
    row.scratch.length = dims.units.toNat * cell.gates ∧
      row.cellState.length = dims.units.toNat ∧ row.output.length = dims.outputSize.toNat := by
  intro row
  have forget := @length_forgetSum _ _ _ _ x h state shapes found width
  have forgetGate : ((peepedSum params.forget (extras.peephole.map (·.1)) x h state).map
      Scalar.sigmoid).length = dims.units.toNat := by rw [List.length_map, forget]
  have input := @length_inputGateValues _ _ _ _ x h state shapes found _ forgetGate width
  have candidate : (preActivation params.cell x h).length = dims.units.toNat := by
    rw [length_preActivation, (Params.sized_cell shapes).bias]
  have cellState : row.cellState.length = dims.units.toNat := by
    simp [row, lstmRow_eq, forget, candidate, input, width]
  have output := @length_outputSum _ _ _ _ x h row.cellState shapes found cellState
  simp only [row, lstmRow_eq] at cellState output ⊢
  refine ⟨?_, cellState, length_projectRow shapes found ?_ unprojected⟩
  · cases coupled : cell.coupled with
    | true =>
      simp only [if_true, List.nil_append, List.length_append, List.length_map, forget, candidate,
        output, Lstm.Cell.gates, coupled]
      omega
    | false =>
      simp only [Bool.false_eq_true, if_false, List.length_append, List.length_map, forget,
        candidate, input, output, Lstm.Cell.gates, coupled]
      omega
  · rw [List.length_zipWith, List.length_map, output, cellState, Nat.min_self]

end Rows

section Steps

variable {activation : Lstm.Activation} {input outputState cellState : View}
  {batch inputSize outputSize units : Extent} {shapes : List Shape}

/-- What a step allocates is what the inferred shapes take. -/
theorem bufferSizes_fit_iff
    (inferred : Lstm.inferMatrices cell params batch inputSize batch outputSize batch units =
      .ok shapes) :
    (∀ count ∈ bufferSizes cell ⟨units, inputSize, outputSize⟩ batch.toNat,
        Capacity.fitsBuffer count = true) ↔ ∀ shape ∈ shapes, shape.isStorable = true := by
  obtain ⟨_, _, _, _, scratch, fits, rfl⟩ := Lstm.inferMatrices_eq_ok.mp inferred
  have width := Extent.ofNat?_eq_some.mp fits
  simp only [bufferSizes, List.forall_mem_cons, List.not_mem_nil, false_imp_iff, implies_true,
    Shape.isStorable_matrix, width, Nat.mul_assoc]

/-- A cell takes a step on every full batch, unless memory cannot hold an output or it has no units
for a batch that is not empty. -/
theorem lstm_total_iff (groups : params.checkGroups cell = .ok ())
    (inferred : Lstm.inferMatrices cell params batch inputSize batch outputSize batch units =
      .ok shapes)
    (operands : StepOperands batch inputSize outputSize units input outputState cellState) :
    (∃ result, lstm cell params activation input outputState cellState = .ok result) ↔
      (∀ shape ∈ shapes, shape.isStorable = true) ∧ ¬(batch ≠ 0 ∧ units = 0) := by
  obtain ⟨_, known, checked, unprojected, _⟩ := Lstm.inferMatrices_eq_ok.mp inferred
  obtain ⟨extras, found⟩ := lstmExtras_total groups
  have opened := fun result =>
    @lstm_eq_ok cell params activation _ _ _ _ _ _ _ result known checked operands
  rw [← bufferSizes_fit_iff inferred]
  constructor
  · rintro ⟨result, stepped⟩
    obtain ⟨_, _, small, room, _⟩ := (opened result).mp stepped
    exact ⟨small, fun ⟨occupied, empty⟩ => (room occupied).1 empty⟩
  · rintro ⟨small, room⟩
    refine ⟨_, (opened _).mpr ⟨extras, found, small,
      fun occupied => ⟨fun empty => room ⟨occupied, empty⟩, fun none => ?_⟩, rfl⟩⟩
    apply unprojected.resolve_left
    intro projects
    rcases ownProjection_eq_ok.mp (lstmExtras_eq_ok.mp found).2.2 with
      ⟨without, _⟩ | ⟨_, own, some, _⟩
    · exact absurd (projects.symm.trans without) (by simp)
    · exact absurd (none.symm.trans some) (by simp)

/-- What a step gives has the inferred shapes. -/
theorem size_lstm {result : LstmOutputs}
    (inferred : Lstm.inferMatrices cell params batch inputSize batch outputSize batch units =
      .ok shapes)
    (operands : StepOperands batch inputSize outputSize units input outputState cellState)
    (stepped : lstm cell params activation input outputState cellState = .ok result) :
    List.Forall₂ (fun data shape => data.size = shape.elementCount)
      [result.scratch, result.outputState, result.cellState, result.output] shapes := by
  obtain ⟨_, known, checked, unprojected, scratch, fits, rfl⟩ :=
    Lstm.inferMatrices_eq_ok.mp inferred
  obtain ⟨extras, found, _, _, rfl⟩ := (lstm_eq_ok known checked operands).mp stepped
  have widths := fun index (inside : index < batch.toNat) =>
    @length_lstmRow cell params _ extras activation (row input.data inputSize.toNat index)
      (row outputState.data outputSize.toNat index) _ checked found
      (length_row operands.cellFull inside) unprojected
  have outputs : ∀ {values : LstmRow → List Float32} {width : Extent},
      (∀ index < batch.toNat, (values (lstmRow cell params extras activation outputSize.toNat
        (row input.data inputSize.toNat index) (row outputState.data outputSize.toNat index)
        (row cellState.data units.toNat index))).length = width.toNat) →
      ((lstmRows cell params activation ⟨units, inputSize, outputSize⟩ extras batch.toNat input.data
        outputState.data cellState.data).flatMap values).toArray.size =
          (Shape.mk [batch, width]).elementCount := by
    intro values width each
    rw [Shape.elementCount_matrix, List.size_toArray, lstmRows, List.flatMap_map]
    exact length_flatMap_range each
  refine .cons (outputs fun index inside => ?_) (.cons (outputs fun index inside => ?_)
    (.cons (outputs fun index inside => ?_) (.cons (outputs fun index inside => ?_) .nil)))
  · rw [Extent.ofNat?_eq_some.mp fits]
    exact (widths index inside).1
  · exact (widths index inside).2.2
  · exact (widths index inside).2.1
  · exact (widths index inside).2.2

end Steps

end Reference

end NeuralGraph
