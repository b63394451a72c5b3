import NeuralGraph.Proofs.Accelerator.Lstm
import NeuralGraph.Proofs.Reference.Influence

/-! The native step and the constants that a cell has no use for. Two functions that read alike
constants, each in a staging memory of its own, do the same to the host. -/

namespace NeuralGraph.Accelerator

open Lstm (Alike Gate Params data_of_value none_or_some_of_value)

/-- Constants that see the same are the same to read, once each is in place. -/
theorem StagedConstant.read_alike {constant twin : StagedConstant} {staging later : Staging}
    (holds : constant.Holds staging) (twinHolds : twin.Holds later)
    (same : constant.source.value = twin.source.value) :
    staging.read constant.tensor = later.read twin.tensor :=
  holds.trans ((data_of_value same).trans twinHolds.symm)

/-- An optional constant is staged on both sides and reads the same, or on neither. -/
theorem StagedConstant.none_or_some_alike {constant? twin? : Option StagedConstant}
    {staging later : Staging} (holds : ∀ constant ∈ constant?, constant.Holds staging)
    (twinHolds : ∀ twin ∈ twin?, twin.Holds later)
    (same : (constant?.map (·.source)).map Constant.value =
      (twin?.map (·.source)).map Constant.value) :
    (constant? = none ∧ twin? = none) ∨ ∃ constant twin, constant? = some constant ∧
      twin? = some twin ∧ staging.read constant.tensor = later.read twin.tensor := by
  rcases none_or_some_of_value same with ⟨none, twinNone⟩ | ⟨_, _, some, twinSome, seen⟩
  · exact .inl ⟨Option.map_eq_none_iff.mp none, Option.map_eq_none_iff.mp twinNone⟩
  · obtain ⟨constant, found, rfl⟩ := Option.map_eq_some_iff.mp some
    obtain ⟨twin, twinFound, rfl⟩ := Option.map_eq_some_iff.mp twinSome
    exact .inr ⟨constant, twin, found, twinFound,
      read_alike (holds constant found) (twinHolds twin twinFound) seen⟩

theorem StagedGate.mem_constants_of_peephole {gate : StagedGate} {peephole : StagedConstant}
    (found : peephole ∈ gate.peephole) : peephole ∈ gate.constants := by
  simp [StagedGate.constants, Option.mem_def.mp found]

theorem StagedProjection.mem_constants_of_bias {projection : StagedProjection}
    {bias : StagedConstant} (found : bias ∈ projection.bias) : bias ∈ projection.constants := by
  simp [StagedProjection.constants, Option.mem_def.mp found]

namespace LstmFunction

theorem gateSum_alike {staged twin : StagedGate} {gate twinGate : Gate}
    {peephole twinPeephole : Option Constant} {staging later : Staging}
    (plays : staged.Plays gate peephole) (twinPlays : twin.Plays twinGate twinPeephole)
    (holds : ∀ constant ∈ staged.constants, constant.Holds staging)
    (twinHolds : ∀ constant ∈ twin.constants, constant.Holds later)
    (same : gate.values = twinGate.values)
    (peeps : peephole.map Constant.value = twinPeephole.map Constant.value)
    (x h state : List Float32) :
    gateSum staging staged x h state = gateSum later twin x h state := by
  have read : ∀ {constant other : StagedConstant}, constant ∈ staged.constants →
      other ∈ twin.constants → constant.source.value = other.source.value →
      staging.read constant.tensor = later.read other.tensor :=
    fun member twinMember same => StagedConstant.read_alike (holds _ member)
      (twinHolds _ twinMember) same
  obtain ⟨weights, recurrent, bias⟩ := Gate.values_eq_iff.mp same
  rw [← plays.inputWeights, ← twinPlays.inputWeights] at weights
  rw [← plays.recurrentWeights, ← twinPlays.recurrentWeights] at recurrent
  rw [← plays.bias, ← twinPlays.bias] at bias
  rw [← plays.peephole, ← twinPlays.peephole] at peeps
  unfold gateSum
  rw [read (by simp [StagedGate.constants]) (by simp [StagedGate.constants]) weights,
    read (by simp [StagedGate.constants]) (by simp [StagedGate.constants]) recurrent,
    read (by simp [StagedGate.constants]) (by simp [StagedGate.constants]) bias]
  rcases StagedConstant.none_or_some_alike
      (fun constant found => holds constant (StagedGate.mem_constants_of_peephole found))
      (fun constant found => twinHolds constant (StagedGate.mem_constants_of_peephole found))
      peeps with ⟨none, twinNone⟩ | ⟨constant, other, some, twinSome, seen⟩
  · rw [none, twinNone]
  · rw [some, twinSome]
    dsimp only
    rw [seen]

/-- Two functions of one cell on the same operands, with alike constants, each in place in its
staging memory. -/
structure Twins (function twin : LstmFunction) (params other : Params) (staging later : Staging) :
    Prop where
  alike : Alike function.cell params other
  prepared : function.Prepared params staging
  twinPrepared : twin.Prepared other later
  cell : twin.cell = function.cell
  activation : twin.activation = function.activation
  operands : twin.operands = function.operands

namespace Twins

variable {function twin : LstmFunction} {params other : Params} {staging later : Staging}
  (twins : Twins function twin params other staging later)
include twins

theorem dims : twin.dims = function.dims :=
  Except.ok.inj (twins.twinPrepared.reads.dims.symm.trans
    (twins.alike.dims_eq.symm.trans twins.prepared.reads.dims))

/-- Gates of alike constants sum the same. -/
theorem gateSum {staged twinStaged : StagedGate} {gate twinGate : Gate}
    {peephole twinPeephole : Option Constant} (plays : staged.Plays gate peephole)
    (twinPlays : twinStaged.Plays twinGate twinPeephole)
    (members : ∀ constant ∈ staged.constants, constant ∈ function.constants)
    (twinMembers : ∀ constant ∈ twinStaged.constants, constant ∈ twin.constants)
    (same : gate.values = twinGate.values)
    (peeps : peephole.map Constant.value = twinPeephole.map Constant.value)
    (x h state : List Float32) :
    LstmFunction.gateSum staging staged x h state =
      LstmFunction.gateSum later twinStaged x h state :=
  gateSum_alike plays twinPlays
    (fun constant member => twins.prepared.holds constant (members constant member))
    (fun constant member => twins.twinPrepared.holds constant (twinMembers constant member))
    same peeps x h state

/-- Neither has an input gate of its own, or both have one and these sum the same. -/
theorem inputGate : (function.inputGate = none ∧ twin.inputGate = none) ∨
    ∃ staged twinStaged, function.inputGate = some staged ∧ twin.inputGate = some twinStaged ∧
      ∀ x h state, LstmFunction.gateSum staging staged x h state =
        LstmFunction.gateSum later twinStaged x h state := by
  cases coupled : function.cell.coupled with
  | true =>
    exact .inl ⟨twins.prepared.reads.coupled coupled,
      twins.twinPrepared.reads.coupled (twins.cell ▸ coupled)⟩
  | false =>
    obtain ⟨staged, gate, held, weights, recurrent, bias, plays⟩ :=
      twins.prepared.reads.input coupled
    obtain ⟨twinStaged, twinGate, twinHeld, twinWeights, twinRecurrent, twinBias, twinPlays⟩ :=
      twins.twinPrepared.reads.input (twins.cell ▸ coupled)
    rw [twins.cell] at twinPlays
    refine .inr ⟨staged, twinStaged, held, twinHeld, twins.gateSum plays twinPlays ?_ ?_
      (twins.alike.input coupled weights recurrent bias twinWeights twinRecurrent twinBias)
      (twins.alike.toInput coupled)⟩
    · simp +contextual [constants, held]
    · simp +contextual [constants, twinHeld]

theorem inputValues (forget x h state : List Float32) :
    function.inputValues staging forget x h state = twin.inputValues later forget x h state := by
  unfold LstmFunction.inputValues
  rcases twins.inputGate with ⟨none, twinNone⟩ | ⟨staged, twinStaged, some, twinSome, sums⟩
  · rw [none, twinNone]
  · rw [some, twinSome]
    dsimp only
    rw [sums]

theorem isSome_inputGate : function.inputGate.isSome = twin.inputGate.isSome := by
  rcases twins.inputGate with ⟨none, twinNone⟩ | ⟨staged, twinStaged, some, twinSome, _⟩
  · rw [none, twinNone]
  · rw [some, twinSome, Option.isSome_some, Option.isSome_some]

theorem project (hidden : List Float32) :
    function.project staging hidden = twin.project later hidden := by
  unfold LstmFunction.project
  cases projected : function.cell.projection with
  | false =>
    rw [twins.prepared.reads.unprojected projected,
      twins.twinPrepared.reads.unprojected (twins.cell ▸ projected)]
  | true =>
    obtain ⟨staged, held, matrix, bias⟩ := twins.prepared.reads.projection projected
    obtain ⟨twinStaged, twinHeld, twinMatrix, twinBias⟩ :=
      twins.twinPrepared.reads.projection (twins.cell ▸ projected)
    have weights : staging.read staged.weights.tensor = later.read twinStaged.weights.tensor :=
      StagedConstant.read_alike
        (twins.prepared.holds_projection held _ (by simp [StagedProjection.constants]))
        (twins.twinPrepared.holds_projection twinHeld _ (by simp [StagedProjection.constants]))
        (twins.alike.constant .projectionWeights (by simp [Lstm.Cell.activeRoles, projected])
          matrix twinMatrix)
    have start : (staged.bias.map (·.source)).map Constant.value =
        (twinStaged.bias.map (·.source)).map Constant.value := by
      rw [bias, twinBias]
      exact twins.alike.agree .projectionBias (by simp [Lstm.Cell.activeRoles, projected])
    rw [held, twinHeld, twins.dims, twins.cell]
    dsimp only
    rw [weights]
    rcases StagedConstant.none_or_some_alike
        (fun constant found => twins.prepared.holds_projection held constant
          (StagedProjection.mem_constants_of_bias found))
        (fun constant found => twins.twinPrepared.holds_projection twinHeld constant
          (StagedProjection.mem_constants_of_bias found))
        start with ⟨none, twinNone⟩ | ⟨constant, other, some, twinSome, seen⟩
    · rw [none, twinNone]
    · rw [some, twinSome]
      dsimp only
      rw [seen]

theorem runRow (x h state : List Float32) :
    function.runRow staging x h state = twin.runRow later x h state := by
  have toForget := twins.twinPrepared.reads.forget
  have toOutput := twins.twinPrepared.reads.output
  rw [twins.cell] at toForget toOutput
  have forget := fun state => twins.gateSum twins.prepared.reads.forget toForget
    (by simp +contextual [constants]) (by simp +contextual [constants])
    twins.alike.forget twins.alike.toForget x h state
  have candidate := fun state => twins.gateSum twins.prepared.reads.candidate
    twins.twinPrepared.reads.candidate (by simp +contextual [constants])
    (by simp +contextual [constants]) twins.alike.candidate rfl x h state
  have output := fun state => twins.gateSum twins.prepared.reads.output toOutput
    (by simp +contextual [constants]) (by simp +contextual [constants])
    twins.alike.output twins.alike.toOutput x h state
  rw [runRow_eq_sums, runRow_eq_sums]
  simp only [forget, candidate, output, twins.inputValues, twins.project, twins.isSome_inputGate,
    twins.cell, twins.activation]

end Twins

/-- What is written to the host does not depend on what is staged. -/
theorem write_imported_host (handle : Handle) (host : HostMemory) (data : Array Float32)
    (staging later : Staging) :
    (∃ fault, (Operand.imported handle).write { host, staging } data = .error fault ∧
      (Operand.imported handle).write { host, staging := later } data = .error fault) ∨
    ∃ next, (Operand.imported handle).write { host, staging } data =
        .ok { host := next, staging } ∧
      (Operand.imported handle).write { host, staging := later } data =
        .ok { host := next, staging := later } := by
  unfold Operand.write
  dsimp only
  by_cases foreign : handle.isForeign = true
  · exact .inl ⟨.foreignHandle, by rw [if_pos foreign], by rw [if_pos foreign]⟩
  · rw [if_neg foreign, if_neg foreign]
    cases host.copyFrom handle data with
    | error _ => exact .inl ⟨_, rfl, rfl⟩
    | ok next => exact .inr ⟨next, rfl, rfl⟩

theorem writeEach_host {entries : List (Operand × Array Float32)}
    (imports : ∀ entry ∈ entries, ∃ handle, entry.1 = .imported handle) (host : HostMemory)
    (staging later : Staging) :
    ∃ written outcome,
      writeEach entries { host, staging } = ({ host := written, staging }, outcome) ∧
      writeEach entries { host, staging := later } =
        ({ host := written, staging := later }, outcome) := by
  induction entries generalizing host with
  | nil => exact ⟨host, .ok (), rfl, rfl⟩
  | cons entry entries ih =>
    obtain ⟨operand, data⟩ := entry
    obtain ⟨handle, imported⟩ := imports _ List.mem_cons_self
    obtain rfl : operand = .imported handle := imported
    rcases write_imported_host handle host data staging later with
      ⟨fault, refused, laterRefused⟩ | ⟨next, stored, laterStored⟩
    · exact ⟨host, .error fault, by rw [writeEach, refused], by rw [writeEach, laterRefused]⟩
    · rw [writeEach, writeEach, stored, laterStored]
      exact ih (fun other member => imports other (List.mem_cons_of_mem _ member)) next

namespace Twins

variable {function twin : LstmFunction} {params other : Params} {staging later : Staging}
  (twins : Twins function twin params other staging later)
include twins

/-- Every run does the same to the host, and leaves either staging memory alone. -/
theorem run (imports : ∀ operand ∈ function.operands.toList, ∃ handle, operand = .imported handle)
    (host : HostMemory) :
    ∃ written outcome, function.run { host, staging } = ({ host := written, staging }, outcome) ∧
      twin.run { host, staging := later } = ({ host := written, staging := later }, outcome) := by
  have rows : twin.runRows { host, staging := later } = function.runRows { host, staging } := by
    have read : ∀ operand ∈ function.operands.toList,
        operand.read { host, staging := later } = operand.read { host, staging } := by
      intro operand member
      obtain ⟨handle, rfl⟩ := imports operand member
      rfl
    unfold runRows
    rw [twins.operands, twins.dims, read function.operands.input
        (by simp [LstmOperands.toList, LstmOperands.inputs]),
      read function.operands.outputStateIn (by simp [LstmOperands.toList, LstmOperands.inputs]),
      read function.operands.cellStateIn (by simp [LstmOperands.toList, LstmOperands.inputs])]
    simp only [twins.runRow]
  unfold LstmFunction.run
  rw [rows]
  cases function.runRows { host, staging } with
  | error fault => exact ⟨host, .error fault, rfl, rfl⟩
  | ok rows =>
    dsimp only
    rw [twins.operands]
    refine writeEach_host (fun entry member => ?_) host staging later
    simp only [List.mem_cons, List.not_mem_nil, or_false] at member
    rcases member with rfl | rfl | rfl | rfl <;>
      exact imports _ (by simp [LstmOperands.toList, LstmOperands.outputs])

end Twins

end LstmFunction

end NeuralGraph.Accelerator
