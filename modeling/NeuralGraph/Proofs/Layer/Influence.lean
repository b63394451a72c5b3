import NeuralGraph.Proofs.Layer.Inference
import NeuralGraph.Proofs.Tensor.CopyOnWrite

/-! The constants that can matter to a cell. Two sets of constants are alike for a cell when both
pass its checks and hold the same values wherever a flag of the cell asks for them; they may differ
in what the cell has no use for, and in the storage of everything. -/

namespace NeuralGraph.Lstm

/-- The roles of the groups that the flags of a cell enable. The peephole of the input gate asks for
two flags: the cell has to have an input gate of its own and peepholes. -/
def Cell.activeRoles (cell : Cell) : List Role :=
  Role.basic ++
    (if cell.coupled then []
     else [.inputToInputWeights, .recurrentToInputWeights, .inputGateBias] ++
      if cell.peephole then [.cellToInputWeights] else []) ++
    (if cell.projection then [.projectionWeights, .projectionBias] else []) ++
    (if cell.peephole then [.cellToForgetWeights, .cellToOutputWeights] else [])

theorem Cell.basic_subset (cell : Cell) : Role.basic ⊆ cell.activeRoles := by
  simp [Cell.activeRoles]

/-- What a program sees of a gate. -/
def Gate.values (gate : Gate) : ConstantValue × ConstantValue × ConstantValue :=
  (gate.inputWeights.value, gate.recurrentWeights.value, gate.bias.value)

theorem Gate.values_eq_iff {gate other : Gate} : gate.values = other.values ↔
    gate.inputWeights.value = other.inputWeights.value ∧
      gate.recurrentWeights.value = other.recurrentWeights.value ∧
      gate.bias.value = other.bias.value := by
  rw [values, values, Prod.mk.injEq, Prod.mk.injEq]

namespace Params

/-- The value that plays a role, if the cell has one. -/
def value? (params : Params) (role : Role) : Option ConstantValue :=
  (params.get? role).map Constant.value

/-- The groups that a cell enables are there, the sizes of the cell are known, and every constant
has the shape of its role, whether the cell enables it or not. -/
def Passes (params : Params) (cell : Cell) : Prop :=
  params.checkGroups cell = .ok () ∧
    ∃ dims, params.dims = .ok dims ∧ params.checkShapes dims = .ok ()

end Params

/-- Constants that differ at most in what a cell has no use for. -/
structure Alike (cell : Cell) (params other : Params) : Prop where
  passes : params.Passes cell
  otherPasses : other.Passes cell
  agree : ∀ role ∈ cell.activeRoles, params.value? role = other.value? role

theorem shape_of_value {constant other : Constant} (same : constant.value = other.value) :
    constant.shape = other.shape :=
  congrArg (·.info.shape) same

theorem data_of_value {constant other : Constant} (same : constant.value = other.value) :
    constant.data = other.data :=
  congrArg ConstantValue.data same

/-- Two options with the same value are both empty, or both hold a constant that sees the same. -/
theorem none_or_some_of_value {constant? twin? : Option Constant}
    (same : constant?.map Constant.value = twin?.map Constant.value) :
    (constant? = none ∧ twin? = none) ∨ ∃ constant twin, constant? = some constant ∧
      twin? = some twin ∧ constant.value = twin.value := by
  cases constant? with
  | none => exact .inl ⟨rfl, by simpa using same.symm⟩
  | some constant =>
    obtain ⟨twin, found, seen⟩ := Option.map_eq_some_iff.mp same.symm
    exact .inr ⟨constant, twin, rfl, found, seen.symm⟩

namespace Alike

variable {cell : Cell} {params other : Params}

theorem symm (alike : Alike cell params other) : Alike cell other params where
  passes := alike.otherPasses
  otherPasses := alike.passes
  agree := fun role member => (alike.agree role member).symm

variable (alike : Alike cell params other)
include alike

/-- The constants that play an active role see the same. -/
theorem constant (role : Role) {constant twin : Constant} (active : role ∈ cell.activeRoles)
    (plays : params.get? role = some constant) (twinPlays : other.get? role = some twin) :
    constant.value = twin.value := by
  have same := alike.agree role active
  rwa [Params.value?, Params.value?, plays, twinPlays, Option.map_some, Option.map_some,
    Option.some.injEq] at same

/-- So do two gates with active roles. -/
theorem gate (input recurrent bias : Role) {gate twin : Gate}
    (active : [input, recurrent, bias] ⊆ cell.activeRoles)
    (plays : [input, recurrent, bias].map params.get? =
      [some gate.inputWeights, some gate.recurrentWeights, some gate.bias])
    (twinPlays : [input, recurrent, bias].map other.get? =
      [some twin.inputWeights, some twin.recurrentWeights, some twin.bias]) :
    gate.values = twin.values := by
  simp only [List.map_cons, List.map_nil, List.cons.injEq, and_true] at plays twinPlays
  obtain ⟨weights, recurrents, biases⟩ := plays
  obtain ⟨twinWeights, twinRecurrents, twinBiases⟩ := twinPlays
  rw [Gate.values, Gate.values, alike.constant input (active (by simp)) weights twinWeights,
    alike.constant recurrent (active (by simp)) recurrents twinRecurrents,
    alike.constant bias (active (by simp)) biases twinBiases]

theorem forget : params.forget.values = other.forget.values :=
  alike.gate .inputToForgetWeights .recurrentToForgetWeights .forgetGateBias
    (List.Subset.trans (by decide) cell.basic_subset) rfl rfl

theorem candidate : params.cell.values = other.cell.values :=
  alike.gate .inputToCellWeights .recurrentToCellWeights .cellBias
    (List.Subset.trans (by decide) cell.basic_subset) rfl rfl

theorem output : params.output.values = other.output.values :=
  alike.gate .inputToOutputWeights .recurrentToOutputWeights .outputGateBias
    (List.Subset.trans (by decide) cell.basic_subset) rfl rfl

/-- The input gate of a cell that has one of its own. -/
theorem input (own : cell.coupled = false) {gate twin : Gate}
    (weights : params.inputToInputWeights = some gate.inputWeights)
    (recurrent : params.recurrentToInputWeights = some gate.recurrentWeights)
    (bias : params.inputGateBias = some gate.bias)
    (twinWeights : other.inputToInputWeights = some twin.inputWeights)
    (twinRecurrent : other.recurrentToInputWeights = some twin.recurrentWeights)
    (twinBias : other.inputGateBias = some twin.bias) : gate.values = twin.values := by
  refine alike.gate .inputToInputWeights .recurrentToInputWeights .inputGateBias ?_ ?_ ?_
  · simp [Cell.activeRoles, own]
  · simp [Params.get?, weights, recurrent, bias]
  · simp [Params.get?, twinWeights, twinRecurrent, twinBias]

/-- A peephole, in a cell that has peepholes. -/
theorem peephole (role : Role) (active : cell.peephole = true → role ∈ cell.activeRoles) :
    (if cell.peephole then params.get? role else none).map Constant.value =
      (if cell.peephole then other.get? role else none).map Constant.value := by
  split
  · exact alike.agree role (active ‹_›)
  · rfl

theorem toInput (own : cell.coupled = false) :
    (if cell.peephole then params.cellToInputWeights else none).map Constant.value =
      (if cell.peephole then other.cellToInputWeights else none).map Constant.value :=
  alike.peephole .cellToInputWeights fun peeps => by simp [Cell.activeRoles, own, peeps]

theorem toForget :
    (if cell.peephole then params.cellToForgetWeights else none).map Constant.value =
      (if cell.peephole then other.cellToForgetWeights else none).map Constant.value :=
  alike.peephole .cellToForgetWeights fun peeps => by simp [Cell.activeRoles, peeps]

theorem toOutput :
    (if cell.peephole then params.cellToOutputWeights else none).map Constant.value =
      (if cell.peephole then other.cellToOutputWeights else none).map Constant.value :=
  alike.peephole .cellToOutputWeights fun peeps => by simp [Cell.activeRoles, peeps]

/-- The sizes of a cell are read off constants that every cell has. -/
theorem dims_eq : params.dims = other.dims := by
  obtain ⟨weights, recurrent, bias⟩ := Gate.values_eq_iff.mp alike.forget
  rw [Params.dims, Params.dims, Params.units?, Params.units?, shape_of_value weights,
    shape_of_value recurrent, shape_of_value bias]

/-- One set of sizes passes for both. -/
theorem exists_dims : ∃ dims, params.dims = .ok dims ∧ other.dims = .ok dims ∧
    params.checkShapes dims = .ok () ∧ other.checkShapes dims = .ok () := by
  obtain ⟨_, dims, known, shapes⟩ := alike.passes
  obtain ⟨_, otherDims, otherKnown, otherShapes⟩ := alike.otherPasses
  have same : dims = otherDims :=
    Except.ok.inj (known.symm.trans (alike.dims_eq.trans otherKnown))
  exact ⟨dims, known, same ▸ otherKnown, shapes, same ▸ otherShapes⟩

end Alike

end NeuralGraph.Lstm
