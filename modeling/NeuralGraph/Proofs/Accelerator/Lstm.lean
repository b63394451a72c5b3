import Mathlib.Data.List.Basic
import NeuralGraph.Proofs.Accelerator.Operand
import NeuralGraph.Proofs.Accelerator.Weights
import NeuralGraph.Proofs.Reference.Lstm

/-! The native LSTM step against its reference kernel. A function that reads its staged constants
computes every batch row as the kernel does; it writes the cell state before the output state, and
with a buffer for each output that order does not matter. -/

namespace NeuralGraph

namespace Accelerator

open Lstm (Gate Params Dims)
open Reference (addProduct peepedSum preActivation LstmExtras)

namespace LstmFunction

theorem matrixRows_eq (columns rows : Nat) (values : List Float32) :
    matrixRows columns rows values =
      (List.range rows).map fun index => (values.drop (index * columns)).take columns := by
  induction rows generalizing values with
  | zero => rfl
  | succ rows ih =>
    rw [matrixRows, ih, List.range_succ_eq_map, List.map_cons, List.map_map]
    simp [Function.comp_def, Nat.succ_mul, Nat.add_comm]

/-- Cutting a matrix into rows first gives the products that indexing it gives. -/
theorem accumulateRows_eq {values x : List Float32} {matrix : Constant} (wide : x.length ≠ 0)
    (size : matrix.data.size = values.length * x.length) :
    accumulateRows values matrix.data x = addProduct values matrix x := by
  unfold accumulateRows addProduct
  rw [matrixRows_eq, size, Nat.mul_div_cancel _ (Nat.pos_of_ne_zero wide)]
  apply List.ext_getElem
  · simp
  · intro index inside _
    simp [Reference.row, List.extract_eq_take_drop, Nat.succ_mul]

variable {staging : Staging} {dims : Dims} {x h state : List Float32}

/-- A staged gate sums what the reference gate sums, peephole included. -/
theorem gateSum_eq {staged : StagedGate} {gate : Gate} {peephole : Option Constant}
    (plays : staged.Plays gate peephole)
    (holds : ∀ constant ∈ staged.constants, constant.Holds staging) (sized : gate.Sized dims)
    (inputs : x.length = dims.inputSize.toNat) (wideInput : dims.inputSize.toNat ≠ 0)
    (outputs : h.length = dims.outputSize.toNat) (wideOutput : dims.outputSize.toNat ≠ 0) :
    gateSum staging staged x h state = peepedSum gate peephole x h state := by
  have input : staging.read staged.inputWeights.tensor = gate.inputWeights.data := by
    rw [holds _ (by simp [StagedGate.constants]), plays.inputWeights]
  have recurrent : staging.read staged.recurrentWeights.tensor = gate.recurrentWeights.data := by
    rw [holds _ (by simp [StagedGate.constants]), plays.recurrentWeights]
  have bias : staging.read staged.bias.tensor = gate.bias.data := by
    rw [holds _ (by simp [StagedGate.constants]), plays.bias]
  have sum : accumulateRows (accumulateRows gate.bias.data.toList gate.inputWeights.data x)
      gate.recurrentWeights.data h = preActivation gate x h := by
    rw [@accumulateRows_eq gate.bias.data.toList x gate.inputWeights (inputs ▸ wideInput)
        (by simp [sized.inputWeights, sized.bias, inputs]),
      accumulateRows_eq (outputs ▸ wideOutput)
        (by simp [sized.recurrentWeights, sized.bias, outputs])]
    rfl
  rw [← plays.peephole]
  unfold gateSum
  simp only [input, recurrent, bias, sum]
  cases held : staged.peephole with
  | none => rfl
  | some constant =>
    dsimp only [Option.map_some]
    rw [holds constant (by simp [StagedGate.constants, held])]
    rfl

variable {function : LstmFunction} {params : Params} {extras : LstmExtras}

/-- The activated input gate of a row. -/
def inputValues (function : LstmFunction) (staging : Staging) (forget x h state : List Float32) :
    List Float32 :=
  match function.inputGate with
  | some gate => (gateSum staging gate x h state).map Scalar.sigmoid
  | none => forget.map (1 - ·)

/-- A row, by the sums of its gates. -/
theorem runRow_eq_sums (function : LstmFunction) (staging : Staging) (x h state : List Float32) :
    function.runRow staging x h state =
      let forget := (gateSum staging function.forgetGate x h state).map Scalar.sigmoid
      let candidate := (gateSum staging function.cellGate x h state).map function.activation.apply
      let input := function.inputValues staging forget x h state
      let next := (List.zipWith (· + ·) (List.zipWith (· * ·) forget state)
        (List.zipWith (· * ·) input candidate)).map (Scalar.clip function.cell.cellClip)
      let output := (gateSum staging function.outputGate x h next).map Scalar.sigmoid
      let hidden := List.zipWith (fun gate value => gate * function.activation.apply value) output
        next
      { scratch :=
          (if function.inputGate.isSome then input else []) ++ candidate ++ forget ++ output
        state := next
        hidden := function.project staging hidden } := rfl

/-- A function with its constants in place, for rows of the right widths. -/
structure Prepared (function : LstmFunction) (params : Params) (staging : Staging) : Prop where
  reads : function.Reads params
  holds : ∀ constant ∈ function.constants, constant.Holds staging
  units : function.dims.units.toNat ≠ 0
  inputs : function.dims.inputSize.toNat ≠ 0
  outputs : function.dims.outputSize.toNat ≠ 0

namespace Prepared

variable (prepared : function.Prepared params staging)
include prepared

theorem holds_input {staged : StagedGate} (gate : function.inputGate = some staged) :
    ∀ constant ∈ staged.constants, constant.Holds staging := by
  intro constant member
  refine prepared.holds constant ?_
  simp only [constants, gate, Option.toList_some, List.flatMap_cons, List.flatMap_nil,
    List.append_nil, List.mem_append]
  exact .inl (.inr member)

theorem holds_projection {staged : StagedProjection}
    (projection : function.projection = some staged) :
    ∀ constant ∈ staged.constants, constant.Holds staging := by
  intro constant member
  refine prepared.holds constant ?_
  simp only [constants, projection, Option.toList_some, List.flatMap_cons, List.flatMap_nil,
    List.append_nil, List.mem_append]
  exact .inr member

theorem input_eq (found : Reference.lstmExtras function.cell params = .ok extras)
    (inputs : x.length = function.dims.inputSize.toNat)
    (outputs : h.length = function.dims.outputSize.toNat) (forget : List Float32) :
    function.inputValues staging forget x h state =
      Reference.inputGateValues function.cell params extras.inputGate forget x h state := by
  unfold inputValues
  rcases Reference.ownGate_eq_ok.mp (Reference.lstmExtras_eq_ok.mp found).1 with
    ⟨coupled, none⟩ | ⟨own, gate, some, input, recurrent, bias⟩
  · rw [prepared.reads.coupled coupled, none]
    rfl
  · obtain ⟨staged, plain, held, inputPlain, recurrentPlain, biasPlain, plays⟩ :=
      prepared.reads.input own
    obtain rfl : plain = gate := by
      cases plain
      cases gate
      simp_all
    rw [held, some, Reference.inputGateValues_some]
    dsimp only
    rw [gateSum_eq plays (prepared.holds_input held)
      (Params.sized_input prepared.reads.shapes input recurrent bias) inputs prepared.inputs outputs
      prepared.outputs]

theorem project_eq (found : Reference.lstmExtras function.cell params = .ok extras)
    {hidden : List Float32} (width : hidden.length = function.dims.units.toNat) :
    function.project staging hidden =
      Reference.projectRow function.cell params extras.projection
        function.dims.outputSize.toNat hidden := by
  rcases Reference.ownProjection_eq_ok.mp (Reference.lstmExtras_eq_ok.mp found).2.2 with
    ⟨unprojected, none⟩ | ⟨projected, weights, some, plays⟩
  · rw [project, prepared.reads.unprojected unprojected, none]
    rfl
  · obtain ⟨staged, held, matrix, bias⟩ := prepared.reads.projection projected
    obtain rfl : staged.weights.source = weights := Option.some.inj (matrix.symm.trans plays)
    have members := prepared.holds_projection held
    have size : staged.weights.source.data.size =
        function.dims.outputSize.toNat * function.dims.units.toNat :=
      @Params.size_matrix _ _ .projectionWeights _ prepared.reads.shapes matrix _ _ rfl
    have wide : hidden.length ≠ 0 := width ▸ prepared.units
    unfold project Reference.projectRow
    rw [held, some, ← bias]
    dsimp only
    rw [members staged.weights (by simp [StagedProjection.constants])]
    cases start : staged.bias with
    | none =>
      dsimp only [Option.map_none]
      rw [accumulateRows_eq wide (by simp [size, width])]
    | some constant =>
      have length : constant.source.data.size = function.dims.outputSize.toNat :=
        @Params.size_vector _ _ .projectionBias _ prepared.reads.shapes
          (by rw [start] at bias; exact bias.symm) _ rfl
      dsimp only [Option.map_some]
      rw [members constant (by simp [StagedProjection.constants, start]),
        accumulateRows_eq wide (by simp [size, width, length])]

/-- A row of the function is the row of the kernel. -/
theorem runRow_eq (found : Reference.lstmExtras function.cell params = .ok extras)
    (inputs : x.length = function.dims.inputSize.toNat)
    (outputs : h.length = function.dims.outputSize.toNat)
    (units : state.length = function.dims.units.toNat) :
    function.runRow staging x h state =
      let row := Reference.lstmRow function.cell params extras function.activation
        function.dims.outputSize.toNat x h state
      { scratch := row.scratch, state := row.cellState, hidden := row.output } := by
  obtain ⟨peepForget, peepOutput⟩ := Reference.peepholes_of_lstmExtras found
  have sums : ∀ {staged : StagedGate} {gate : Gate} {peephole : Option Constant} {state},
      staged.Plays gate peephole → gate.Sized function.dims →
      (∀ constant ∈ staged.constants, constant ∈ function.constants) →
      gateSum staging staged x h state = peepedSum gate peephole x h state :=
    fun plays sized members => gateSum_eq plays
      (fun constant member => prepared.holds constant (members constant member)) sized inputs
      prepared.inputs outputs prepared.outputs
  have shapes := prepared.reads.shapes
  have forget := fun state => @sums _ _ _ state (peepForget ▸ prepared.reads.forget)
    (Params.sized_forget shapes) (by simp +contextual [constants])
  have candidate := fun state => @sums _ _ _ state prepared.reads.candidate
    (Params.sized_cell shapes) (by simp +contextual [constants])
  have output := fun state => @sums _ _ _ state (peepOutput ▸ prepared.reads.output)
    (Params.sized_output shapes) (by simp +contextual [constants])
  have scratch : function.inputGate.isSome = !function.cell.coupled := by
    cases coupled : function.cell.coupled with
    | true =>
      rw [prepared.reads.coupled coupled]
      rfl
    | false =>
      obtain ⟨_, _, held, _⟩ := prepared.reads.input coupled
      rw [held]
      rfl
  rw [runRow_eq_sums, Reference.lstmRow_eq, scratch]
  simp only [forget, candidate, output, prepared.input_eq found inputs outputs]
  -- Only the projection asks for the width of what it is applied to.
  rw [prepared.project_eq found]
  · cases function.cell.coupled <;> rfl
  · have widthForget := @Reference.length_forgetSum _ _ _ _ x h _ shapes found units
    have widthInput := @Reference.length_inputGateValues _ _ _ _ x h _ shapes found _
      ((List.length_map Scalar.sigmoid).trans widthForget) units
    have widthCandidate : (peepedSum params.cell none x h state).length =
        function.dims.units.toNat :=
      Reference.length_peepedSum (Params.sized_cell shapes).bias units (by simp)
    simp only [List.length_zipWith, List.length_map, widthForget, widthInput, widthCandidate, units,
      Nat.min_self, Reference.length_outputSum shapes found]

theorem runRows_eq (found : Reference.lstmExtras function.cell params = .ok extras)
    {device : Device} (same : device.staging = staging) {batch : Nat} {x h state : Array Float32}
    (readInput : function.operands.input.read device = .ok x)
    (readOutput : function.operands.outputStateIn.read device = .ok h)
    (readState : function.operands.cellStateIn.read device = .ok state)
    (inputs : x.size = batch * function.dims.inputSize.toNat)
    (outputs : h.size = batch * function.dims.outputSize.toNat)
    (units : state.size = batch * function.dims.units.toNat) :
    function.runRows device = .ok ((Reference.lstmRows function.cell params function.activation
      function.dims extras batch x h state).map fun row =>
        { scratch := row.scratch, state := row.cellState, hidden := row.output }) := by
  unfold runRows Reference.lstmRows
  rw [readInput, readOutput, readState]
  simp only [bind_ok, inputs, Nat.mul_div_cancel _ (Nat.pos_of_ne_zero prepared.inputs), same]
  refine congrArg Except.ok ?_
  rw [List.map_map]
  apply List.map_congr_left
  intro index member
  have inside := List.mem_range.mp member
  exact prepared.runRow_eq found (Reference.length_row inputs inside)
    (Reference.length_row outputs inside) (Reference.length_row units inside)

end Prepared

theorem writeEach_imported {entries : List (Handle × Array Float32)} {device : Device}
    (fits : ∀ entry ∈ entries, device.host.Fits entry.1 entry.2) :
    writeEach (entries.map fun entry => (.imported entry.1, entry.2)) device =
      ({ device with host := device.host.replaceEach entries }, .ok ()) := by
  induction entries generalizing device with
  | nil => rfl
  | cons entry entries ih =>
    have head := fits entry List.mem_cons_self
    have sizes := HostMemory.sameSizes_replace head
    rw [List.map_cons, writeEach, Operand.write_imported_eq_ok.mpr ⟨head, rfl⟩]
    exact ih fun other member => (fits other (List.mem_cons_of_mem _ member)).of_sameSizes sizes

/-- One run of the kernel of a cell with its seven operands. -/
theorem execute_lstm {descriptor : QueueDescriptor} {device after : Device} {cell : Lstm.Cell}
    {input outputIn stateIn scratch outputOut stateOut output : Handle}
    (kind : descriptor.kind = .lstm cell params)
    (inputs : descriptor.inputs = [input, outputIn, stateIn])
    (outputs : descriptor.outputs = [scratch, outputOut, stateOut, output])
    (success : Reference.execute descriptor device = (after, .ok ())) :
    ∃ activation x h state result, Lstm.Activation.ofCode cell.activationCode = .ok activation ∧
      device.host.read? input = some x ∧ device.host.read? outputIn = some h ∧
      device.host.read? stateIn = some state ∧
      Reference.lstm cell params activation ⟨input.shape, x⟩ ⟨outputIn.shape, h⟩
        ⟨stateIn.shape, state⟩ = .ok result ∧
      device.host.Fits scratch result.scratch ∧ device.host.Fits outputOut result.outputState ∧
      device.host.Fits stateOut result.cellState ∧ device.host.Fits output result.output ∧
      after = { device with
        host := device.host.replaceEach [(scratch, result.scratch),
          (outputOut, result.outputState), (stateOut, result.cellState),
          (output, result.output)] } := by
  obtain ⟨views, results, host, read, evaluated, written, rfl⟩ :=
    Reference.execute_eq_ok.mp success
  rw [inputs] at read
  rw [kind] at evaluated
  rw [outputs] at written
  obtain ⟨viewInput, rest, rfl, viewedInput, read⟩ := List.map_eq_cons_iff.mp read
  obtain ⟨viewOutput, rest, rfl, viewedOutput, read⟩ := List.map_eq_cons_iff.mp read
  obtain ⟨viewState, rfl, viewedState⟩ := List.map_eq_singleton_iff.mp read
  obtain ⟨x, readInput, rfl⟩ := Option.map_eq_some_iff.mp viewedInput.symm
  obtain ⟨h, readOutput, rfl⟩ := Option.map_eq_some_iff.mp viewedOutput.symm
  obtain ⟨state, readState, rfl⟩ := Option.map_eq_some_iff.mp viewedState.symm
  obtain ⟨activation, result, code, computed, rfl⟩ := Reference.evaluate_lstm_eq_ok.mp evaluated
  have fits := Reference.fits_of_writeResults rfl written
  rw [Reference.writeResults_eq_replaceEach fits] at written
  simp only [List.forall₂_cons, List.forall₂_nil_left_iff, and_true] at fits
  obtain ⟨fitsScratch, fitsOutputState, fitsState, fitsOutput⟩ := fits
  refine ⟨activation, x, h, state, result, code, readInput, readOutput, readState, computed,
    fitsScratch, fitsOutputState, fitsState, fitsOutput, ?_⟩
  obtain ⟨rfl, _⟩ := Prod.mk.inj written
  rfl

/-- The values behind a full operand of a batch. -/
private theorem size_of_ready {descriptor : QueueDescriptor} {memory : HostMemory}
    (ready : descriptor.Ready memory) {handle : Handle} (member : handle ∈ descriptor.inputs)
    {data : Array Float32} (read : memory.read? handle = some data) {batch width : Extent}
    (shape : handle.shape = ⟨[batch, width]⟩) : data.size = batch.toNat * width.toNat := by
  obtain ⟨held, same, size⟩ := ready.inputs handle member
  obtain rfl := Option.some.inj (read.symm.trans same)
  exact HostMemory.size_of_matrix size shape

theorem run_follows {descriptor : QueueDescriptor} {device after : Device}
    {input outputIn stateIn scratch outputOut stateOut output : Handle}
    (kind : descriptor.kind = .lstm function.cell params)
    (inputs : descriptor.inputs = [input, outputIn, stateIn])
    (outputs : descriptor.outputs = [scratch, outputOut, stateOut, output])
    (prepared : function.Prepared params device.staging)
    (activation : Lstm.Activation.ofCode function.cell.activationCode = .ok function.activation)
    (operands : function.operands = ⟨.imported input, .imported outputIn, .imported stateIn,
      .imported scratch, .imported outputOut, .imported stateOut, .imported output⟩)
    (fits : checkTensors function.dims function.cell.gates
      [input.shape, outputIn.shape, stateIn.shape]
      [scratch.shape, outputOut.shape, stateOut.shape, output.shape] = .ok ())
    (ready : descriptor.Ready device.host)
    (success : Reference.execute descriptor device = (after, .ok ())) :
    function.run device = (after, .ok ()) := by
  obtain ⟨named, x, h, state, result, code, readInput, readOutput, readState, computed,
    fitsScratch, fitsOutputState, fitsState, fitsOutput, rfl⟩ :=
    execute_lstm kind inputs outputs success
  obtain rfl : named = function.activation := by
    rw [activation] at code
    exact (Except.ok.inj code).symm
  obtain ⟨batch, shapes, _⟩ := (checkTensors_eq_ok ⟨rfl, rfl⟩).mp fits
  simp only [tensorShapes, List.cons.injEq, and_true] at shapes
  obtain ⟨inputShape, outputShape, stateShape⟩ := shapes
  have sizeInput := size_of_ready ready (by simp [inputs]) readInput inputShape
  have sizeOutput := size_of_ready ready (by simp [inputs]) readOutput outputShape
  have sizeState := size_of_ready ready (by simp [inputs]) readState stateShape
  obtain ⟨extras, found, _, _, rfl⟩ := (Reference.lstm_eq_ok prepared.reads.dims
    prepared.reads.shapes ⟨inputShape, outputShape, stateShape, sizeInput, sizeOutput,
      sizeState⟩).mp computed
  unfold run
  rw [prepared.runRows_eq found rfl
    (by rw [operands]; exact Operand.read_imported_eq_ok.mpr readInput)
    (by rw [operands]; exact Operand.read_imported_eq_ok.mpr readOutput)
    (by rw [operands]; exact Operand.read_imported_eq_ok.mpr readState) sizeInput sizeOutput
    sizeState]
  simp only [List.flatMap_map, operands]
  have apart : outputOut.buffer ≠ stateOut.buffer := by
    have distinct := ready.outputs
    simp only [outputs, List.map_cons, List.nodup_cons, List.mem_cons, not_or] at distinct
    exact distinct.2.1.1
  refine (@writeEach_imported [(scratch, _), (stateOut, _), (outputOut, _), (output, _)] device
    ?_).trans ?_
  · simp only [List.forall_mem_cons]
    exact ⟨fitsScratch, fitsState, fitsOutputState, fitsOutput, by simp⟩
  · simp only [HostMemory.replaceEach, List.foldl_cons, List.foldl_nil]
    rw [HostMemory.replace_comm apart]

end LstmFunction

end Accelerator

end NeuralGraph
