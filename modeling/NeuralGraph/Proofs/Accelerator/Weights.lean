import Mathlib.Data.List.Nodup
import NeuralGraph.Accelerator.Lstm
import NeuralGraph.Proofs.Layer.Inference
import NeuralGraph.Proofs.Memory.Staging

/-! Weights of a cell in staging memory. Every constant that the cell enables gets a tensor of its
own, behind everything that was staged before, and after the upload the tensors that a function
reads hold its constants. -/

namespace NeuralGraph.Accelerator

open Lstm (Role Params Dims)
open Staging (Keeps)

variable {cell : Lstm.Cell} {params : Params} {staging after : Staging} {first : Nat}

theorem lookup_planned (params : Params) (roles : List Role) (role : Role) :
    (planned params roles).lookup role = if role ∈ roles then params.get? role else none := by
  induction roles with
  | nil => rfl
  | cons head roles ih =>
    unfold planned at ih ⊢
    by_cases same : role = head
    · subst head
      cases plays : params.get? role with
      | none => simpa [plays] using ih
      | some constant => simp [plays]
    · cases plays : params.get? head with
      | none => simpa [plays, same] using ih
      | some constant =>
        have apart : (role == head) = false := by simpa using same
        simpa [plays, same, List.lookup_cons, apart] using ih

theorem stagingPlan_eq_ok {plan : List (Role × Constant)} {dims : Dims} :
    stagingPlan cell params = .ok (plan, dims) ↔ params.checkGroups cell = .ok () ∧
      params.dims = .ok dims ∧ params.checkShapes dims = .ok () ∧
      (cell.projection = true ∨ dims.outputSize = dims.units) ∧
      plan = planned params (enabledRoles cell) := by
  simp only [stagingPlan, guard_eq_ok, bind_eq_ok, pure_eq_ok, Prod.mk.injEq]
  constructor
  · rintro ⟨⟨⟩, groups, sizes, known, ⟨⟩, checked, width, rfl, rfl⟩
    exact ⟨groups, known, checked, by simpa [Decidable.or_iff_not_imp_left] using width, rfl⟩
  · rintro ⟨groups, known, checked, width, rfl⟩
    exact ⟨(), groups, dims, known, (), checked,
      by simpa [Decidable.or_iff_not_imp_left] using width, rfl, rfl⟩

/-- A constant has a tensor of its shape, with some values and a number of references. -/
def StagedConstant.Occupies (constant : StagedConstant) (staging : Staging)
    (data : Array Float32) (references : Nat) : Prop :=
  staging.find? constant.tensor = some { shape := constant.source.shape, data, references }

/-- The values of a constant before its upload. -/
def StagedConstant.zeros (constant : StagedConstant) : Array Float32 :=
  Array.replicate constant.source.shape.elementCount 0

namespace LstmWeights

/-- The weights of a cell in staging memory, in slots of their own from slot `first` on. -/
structure Staged (weights : LstmWeights) (cell : Lstm.Cell) (params : Params) (first : Nat) :
    Prop where
  dims : params.dims = .ok weights.dims
  shapes : params.checkShapes weights.dims = .ok ()
  sources : weights.staged.map (fun entry => (entry.1, entry.2.source)) =
    planned params (enabledRoles cell)
  occupied : ∀ entry ∈ planned params (enabledRoles cell), entry.2.shape.elementCount ≠ 0
  fresh : ∀ entry ∈ weights.staged, first ≤ entry.2.tensor.index
  apart : ∀ entry ∈ weights.staged, ∀ other ∈ weights.staged,
    entry.2.tensor.index = other.2.tensor.index → entry = other

/-- Constants are staged one after the other. -/
theorem allocateEach_cons_eq_ok {role : Role} {source : Constant} {plan : List (Role × Constant)}
    {staged : List (Role × StagedConstant)} :
    allocateEach ((role, source) :: plan) staging = (after, .ok staged) ↔
      ∃ middle tensor rest, staging.allocate source.shape = (middle, .ok tensor) ∧
        allocateEach plan middle = (after, .ok rest) ∧
        staged = (role, { tensor, source }) :: rest := by
  constructor
  · intro allocated
    unfold allocateEach at allocated
    split at allocated
    · cases allocated
    · rename_i middle tensor head
      split at allocated
      · cases allocated
      · rename_i rest later tail
        cases allocated
        exact ⟨middle, tensor, later, head, tail, rfl⟩
  · rintro ⟨middle, tensor, rest, head, tail, rfl⟩
    simp only [allocateEach, head, tail]

theorem allocateEach_eq_ok {plan : List (Role × Constant)} {staged : List (Role × StagedConstant)}
    (allocated : allocateEach plan staging = (after, .ok staged)) :
    staged.map (fun entry => (entry.1, entry.2.source)) = plan ∧
      staged.map (·.2.tensor.index) = List.range' staging.slots.size plan.length ∧
      after.slots.size = staging.slots.size + plan.length ∧
      (∀ entry ∈ plan, entry.2.shape.elementCount ≠ 0) ∧
      Keeps staging.slots.size staging after := by
  induction plan generalizing staging staged with
  | nil =>
    simp only [allocateEach, Prod.mk.injEq, Except.ok.injEq] at allocated
    obtain ⟨rfl, rfl⟩ := allocated
    exact ⟨rfl, rfl, rfl, by simp, .refl _ _⟩
  | cons entry plan ih =>
    obtain ⟨middle, tensor, rest, head, tail, rfl⟩ := allocateEach_cons_eq_ok.mp allocated
    obtain ⟨occupied, index, size, keepsHead⟩ := Staging.allocate_eq_ok head
    obtain ⟨sources, indices, sizeTail, others, keepsTail⟩ := ih tail
    rw [size] at indices sizeTail keepsTail
    refine ⟨by simp [sources], ?_, ?_, ?_, keepsHead.trans (keepsTail.weaken (Nat.le_succ _))⟩
    · simp [indices, index, List.range'_succ]
    · rw [sizeTail, List.length_cons, Nat.add_right_comm, Nat.add_assoc]
    · intro entry member
      rcases List.mem_cons.mp member with rfl | later
      · exact occupied
      · exact others entry later

/-- A constant that has just been staged has zeros for values, and nothing else refers to it. -/
theorem allocateEach_occupies {plan : List (Role × Constant)}
    {staged : List (Role × StagedConstant)}
    (allocated : allocateEach plan staging = (after, .ok staged)) :
    ∀ entry ∈ staged, entry.2.Occupies after entry.2.zeros 1 := by
  induction plan generalizing staging staged with
  | nil =>
    cases allocated
    simp
  | cons entry plan ih =>
    obtain ⟨middle, tensor, rest, head, tail, rfl⟩ := allocateEach_cons_eq_ok.mp allocated
    intro other member
    rcases List.mem_cons.mp member with rfl | inside
    · obtain ⟨_, index, size, _⟩ := Staging.allocate_eq_ok head
      obtain ⟨_, _, _, _, keeps⟩ := allocateEach_eq_ok tail
      have inside : tensor.index < middle.slots.size := by omega
      exact (keeps.find? inside).trans (Staging.find?_allocate head)
    · exact ih tail other inside

theorem allocate_eq_ok_iff {weights : LstmWeights} :
    allocate cell params staging = (after, .ok weights) ↔
      ∃ plan, stagingPlan cell params = .ok (plan, weights.dims) ∧
        allocateEach plan staging = (after, .ok weights.staged) := by
  constructor
  · intro allocated
    unfold allocate at allocated
    split at allocated
    · cases allocated
    · rename_i plan dims checked
      split at allocated
      · cases allocated
      · rename_i later staged each
        cases allocated
        exact ⟨plan, checked, each⟩
  · rintro ⟨plan, checked, each⟩
    simp only [allocate, checked, each]

/-- Allocation stages every constant that the cell enables, behind what is there. -/
theorem allocate_eq_ok {weights : LstmWeights}
    (allocated : allocate cell params staging = (after, .ok weights)) :
    weights.Staged cell params staging.slots.size ∧
      (cell.projection = true ∨ weights.dims.outputSize = weights.dims.units) ∧
      (∀ entry ∈ weights.staged, entry.2.tensor.index < after.slots.size) ∧
      Keeps staging.slots.size staging after := by
  obtain ⟨plan, checked, each⟩ := allocate_eq_ok_iff.mp allocated
  obtain ⟨_, known, shapes, width, rfl⟩ := stagingPlan_eq_ok.mp checked
  obtain ⟨sources, indices, size, occupied, keeps⟩ := allocateEach_eq_ok each
  have range : ∀ entry ∈ weights.staged, staging.slots.size ≤ entry.2.tensor.index ∧
      entry.2.tensor.index < after.slots.size := by
    intro entry member
    have index : entry.2.tensor.index ∈ weights.staged.map (·.2.tensor.index) :=
      List.mem_map_of_mem member
    rw [indices] at index
    exact size ▸ List.mem_range'_1.mp index
  refine ⟨⟨known, shapes, sources, occupied, fun entry member => (range entry member).1, ?_⟩,
    width, fun entry member => (range entry member).2, keeps⟩
  have distinct : (weights.staged.map (·.2.tensor.index)).Nodup := by
    rw [indices]
    exact List.nodup_range'
  exact fun entry member other memberOther same =>
    List.inj_on_of_nodup_map distinct member memberOther same

variable {weights : LstmWeights}

theorem mem_of_find? {role : Role} {constant : StagedConstant}
    (found : weights.find? role = some constant) : (role, constant) ∈ weights.staged := by
  obtain ⟨dims, staged⟩ := weights
  induction staged with
  | nil => cases found
  | cons entry staged ih =>
    obtain ⟨head, held⟩ := entry
    simp only [find?, List.lookup_cons] at found ih
    split at found
    · rename_i same
      cases found
      rw [eq_of_beq same]
      exact List.mem_cons_self
    · exact List.mem_cons_of_mem _ (ih found)

/-- A role is staged exactly when the cell enables it and has a constant for it. -/
theorem Staged.find? (staged : weights.Staged cell params first) (role : Role) :
    (weights.find? role).map (·.source) =
      if role ∈ enabledRoles cell then params.get? role else none := by
  rw [← lookup_planned, ← staged.sources, LstmWeights.find?]
  generalize weights.staged = entries
  induction entries with
  | nil => rfl
  | cons entry entries ih =>
    obtain ⟨head, held⟩ := entry
    rw [List.map_cons, List.lookup_cons, List.lookup_cons]
    cases role == head with
    | true => rfl
    | false => exact ih

theorem Staged.require (staged : weights.Staged cell params first) {role : Role}
    {constant : StagedConstant} (required : weights.require role = .ok constant) :
    params.get? role = some constant.source ∧ (role, constant) ∈ weights.staged := by
  unfold LstmWeights.require at required
  split at required
  · rename_i held found
    cases required
    have source := staged.find? role
    rw [found] at source
    split at source
    · exact ⟨source.symm, mem_of_find? found⟩
    · cases source
  · cases required

theorem require_eq_ok {role : Role} {constant : StagedConstant} :
    weights.require role = .ok constant ↔ weights.find? role = some constant := by
  unfold require
  split <;> simp [*]

/-- The constants that several roles find. -/
def Found (weights : LstmWeights) (roles : List Role) (constants : List StagedConstant) : Prop :=
  List.Forall₂ (fun role constant => weights.find? role = some constant) roles constants

namespace Found

variable {roles otherRoles : List Role} {constants others : List StagedConstant}

theorem append (left : weights.Found roles constants) (right : weights.Found otherRoles others) :
    weights.Found (roles ++ otherRoles) (constants ++ others) :=
  List.rel_append left right

theorem exists_role (found : weights.Found roles constants) {constant : StagedConstant}
    (member : constant ∈ constants) : ∃ role ∈ roles, weights.find? role = some constant := by
  induction found with
  | nil => cases member
  | cons head _ ih =>
    rcases List.mem_cons.mp member with rfl | later
    · exact ⟨_, List.mem_cons_self, head⟩
    · obtain ⟨role, inside, found⟩ := ih later
      exact ⟨role, List.mem_cons_of_mem _ inside, found⟩

theorem exists_constant (found : weights.Found roles constants) {role : Role}
    (member : role ∈ roles) : ∃ constant ∈ constants, weights.find? role = some constant := by
  induction found with
  | nil => cases member
  | cons head _ ih =>
    rcases List.mem_cons.mp member with rfl | later
    · exact ⟨_, List.mem_cons_self, head⟩
    · obtain ⟨constant, inside, found⟩ := ih later
      exact ⟨constant, List.mem_cons_of_mem _ inside, found⟩

/-- What is found is staged. -/
theorem staged (found : weights.Found roles constants) :
    ∀ constant ∈ constants, ∃ role, (role, constant) ∈ weights.staged := by
  intro constant member
  obtain ⟨role, _, there⟩ := found.exists_role member
  exact ⟨role, mem_of_find? there⟩

end Found

/-- A role that may be empty, where something is staged for it. -/
def optional (weights : LstmWeights) (role : Role) : List Role :=
  if (weights.find? role).isSome then [role] else []

theorem found_optional (weights : LstmWeights) (role : Role) :
    weights.Found (weights.optional role) (weights.find? role).toList := by
  unfold optional
  cases found : weights.find? role with
  | none => exact .nil
  | some constant => exact .cons found .nil

/-- The roles that an input gate takes, in a cell that has one. -/
def inputRoles (weights : LstmWeights) (cell : Lstm.Cell) : List Role :=
  if cell.coupled then []
  else [.inputToInputWeights, .recurrentToInputWeights, .inputGateBias] ++
    if cell.peephole then weights.optional .cellToInputWeights else []

/-- The roles that a projection takes, in a cell that has one. -/
def projectionRoles (weights : LstmWeights) (cell : Lstm.Cell) : List Role :=
  if cell.projection then .projectionWeights :: weights.optional .projectionBias else []

/-- The roles that a function of the cell takes, gate by gate. -/
def readRoles (weights : LstmWeights) (cell : Lstm.Cell) : List Role :=
  let forget : List Role := [.inputToForgetWeights, .recurrentToForgetWeights, .forgetGateBias]
  let candidate : List Role := [.inputToCellWeights, .recurrentToCellWeights, .cellBias]
  let output : List Role := [.inputToOutputWeights, .recurrentToOutputWeights, .outputGateBias]
  let peephole (role : Role) : List Role := if cell.peephole then [role] else []
  forget ++ peephole .cellToForgetWeights ++ candidate ++
    (output ++ peephole .cellToOutputWeights) ++
    weights.inputRoles cell ++ weights.projectionRoles cell

end LstmWeights

/-- A staged tensor holds the constant that it was staged for. -/
def StagedConstant.Holds (constant : StagedConstant) (staging : Staging) : Prop :=
  staging.read constant.tensor = constant.source.data

theorem ofStaging_eq_ok {α : Type} {result : Except StagingFault α} {value : α} :
    ofStaging result = .ok value ↔ result = .ok value := by
  cases result <;> simp [ofStaging]

/-- Uploads fill the tensors of their constants, as long as no two constants share one. -/
theorem uploadEach_eq_ok {constants : List StagedConstant}
    (uploaded : LstmFunction.uploadEach constants staging = .ok after)
    (fresh : ∀ constant ∈ constants, first ≤ constant.tensor.index)
    (apart : ∀ constant ∈ constants, ∀ other ∈ constants,
      constant.tensor.index = other.tensor.index → constant.source = other.source) :
    Keeps first staging after ∧ (∀ constant ∈ constants, constant.Holds after) ∧
      ∀ tensor : StagedRef, (∀ constant ∈ constants, tensor.index ≠ constant.tensor.index) →
        after.read tensor = staging.read tensor := by
  induction constants generalizing staging with
  | nil =>
    cases uploaded
    exact ⟨.refl _ _, by simp, fun _ _ => rfl⟩
  | cons constant constants ih =>
    obtain ⟨middle, stored, later⟩ := bind_eq_ok.mp uploaded
    obtain ⟨holds, others, keeps⟩ : middle.read constant.tensor = constant.source.data ∧
        (∀ other : StagedRef, other.index ≠ constant.tensor.index →
          middle.read other = staging.read other) ∧
        (first ≤ constant.tensor.index → Keeps first staging middle) :=
      Staging.upload_eq_ok (ofStaging_eq_ok.mp stored)
    obtain ⟨keepsLater, holdsLater, othersLater⟩ := ih later
      (fun other member => fresh other (List.mem_cons_of_mem _ member))
      (fun other member twin memberTwin => apart other (List.mem_cons_of_mem _ member) twin
        (List.mem_cons_of_mem _ memberTwin))
    refine ⟨(keeps (fresh _ List.mem_cons_self)).trans keepsLater, ?_, ?_⟩
    · intro other member
      rcases List.mem_cons.mp member with rfl | tail
      · by_cases shared : ∃ twin ∈ constants, other.tensor.index = twin.tensor.index
        · obtain ⟨twin, memberTwin, same⟩ := shared
          rw [StagedConstant.Holds, Staging.read_of_index same, holdsLater twin memberTwin,
            apart other List.mem_cons_self twin (List.mem_cons_of_mem _ memberTwin) same]
        · rw [StagedConstant.Holds, othersLater _ fun twin memberTwin same =>
            shared ⟨twin, memberTwin, same⟩, holds]
      · exact holdsLater other tail
    · intro tensor outside
      rw [othersLater tensor fun other member => outside other (List.mem_cons_of_mem _ member),
        others tensor (outside constant List.mem_cons_self)]

/-- The constants of a staged gate are those of a gate of the cell. -/
structure StagedGate.Plays (staged : StagedGate) (gate : Lstm.Gate) (peephole : Option Constant) :
    Prop where
  inputWeights : staged.inputWeights.source = gate.inputWeights
  recurrentWeights : staged.recurrentWeights.source = gate.recurrentWeights
  bias : staged.bias.source = gate.bias
  peephole : staged.peephole.map (·.source) = peephole

namespace LstmFunction

variable {weights : LstmWeights} {function : LstmFunction}

/-- Taking a gate finds a constant for each of its roles. -/
theorem takeGate_eq_ok {input recurrent bias : Role} {peephole : Option Role} {staged : StagedGate}
    (held : weights.Staged cell params first)
    (taken : takeGate weights input recurrent bias peephole = .ok staged) :
    ∃ gate : Lstm.Gate, params.get? input = some gate.inputWeights ∧
      params.get? recurrent = some gate.recurrentWeights ∧ params.get? bias = some gate.bias ∧
      staged.Plays gate (peephole.bind params.get?) ∧
      weights.Found ([input, recurrent, bias] ++ peephole.toList) staged.constants := by
  unfold takeGate at taken
  obtain ⟨inputWeights, inputFound, taken⟩ := bind_eq_ok.mp taken
  obtain ⟨recurrentWeights, recurrentFound, taken⟩ := bind_eq_ok.mp taken
  obtain ⟨biases, biasFound, taken⟩ := bind_eq_ok.mp taken
  obtain ⟨peepholes, rfl, plays, found⟩ : ∃ peepholes : Option StagedConstant,
      staged = ⟨inputWeights, recurrentWeights, biases, peepholes⟩ ∧
      peepholes.map (·.source) = peephole.bind params.get? ∧
      weights.Found peephole.toList peepholes.toList := by
    cases peephole with
    | none =>
      obtain rfl := pure_eq_ok.mp taken
      exact ⟨none, rfl, rfl, .nil⟩
    | some role =>
      obtain ⟨constant, required, same⟩ := bind_eq_ok.mp taken
      obtain rfl := pure_eq_ok.mp same
      exact ⟨some constant, rfl, by simp [(held.require required).1],
        .cons (LstmWeights.require_eq_ok.mp required) .nil⟩
  refine ⟨⟨inputWeights.source, recurrentWeights.source, biases.source⟩,
    (held.require inputFound).1, (held.require recurrentFound).1, (held.require biasFound).1,
    ⟨rfl, rfl, rfl, plays⟩, LstmWeights.Found.append ?_ found⟩
  exact .cons (LstmWeights.require_eq_ok.mp inputFound)
    (.cons (LstmWeights.require_eq_ok.mp recurrentFound)
      (.cons (LstmWeights.require_eq_ok.mp biasFound) .nil))

/-- A configured function reads the constants that its cell enables. -/
structure Reads (function : LstmFunction) (params : Params) : Prop where
  dims : params.dims = .ok function.dims
  shapes : params.checkShapes function.dims = .ok ()
  forget : function.forgetGate.Plays params.forget
    (if function.cell.peephole then params.cellToForgetWeights else none)
  candidate : function.cellGate.Plays params.cell none
  output : function.outputGate.Plays params.output
    (if function.cell.peephole then params.cellToOutputWeights else none)
  coupled : function.cell.coupled = true → function.inputGate = none
  input : function.cell.coupled = false → ∃ (staged : StagedGate) (gate : Lstm.Gate),
    function.inputGate = some staged ∧ params.inputToInputWeights = some gate.inputWeights ∧
    params.recurrentToInputWeights = some gate.recurrentWeights ∧
    params.inputGateBias = some gate.bias ∧
    staged.Plays gate (if function.cell.peephole then params.cellToInputWeights else none)
  unprojected : function.cell.projection = false → function.projection = none
  projection : function.cell.projection = true → ∃ staged : StagedProjection,
    function.projection = some staged ∧ params.projectionWeights = some staged.weights.source ∧
    staged.bias.map (·.source) = params.projectionBias

private theorem takeInputGate_eq_ok {gate : StagedGate} (held : weights.Staged cell params first)
    (own : cell.coupled = false)
    (taken : takeGate weights .inputToInputWeights .recurrentToInputWeights .inputGateBias none =
      .ok gate) {peephole : Option StagedConstant}
    (peeps : peephole = if cell.peephole then weights.find? .cellToInputWeights else none) :
    (∃ plain : Lstm.Gate, params.inputToInputWeights = some plain.inputWeights ∧
      params.recurrentToInputWeights = some plain.recurrentWeights ∧
      params.inputGateBias = some plain.bias ∧
      StagedGate.Plays { gate with peephole } plain
        (if cell.peephole then params.cellToInputWeights else none)) ∧
      weights.Found (weights.inputRoles cell) ({ gate with peephole } : StagedGate).constants := by
  obtain ⟨plain, input, recurrent, bias, plays, found⟩ := takeGate_eq_ok held taken
  refine ⟨⟨plain, input, recurrent, bias, plays.inputWeights, plays.recurrentWeights, plays.bias,
    ?_⟩, ?_⟩
  · have enabled : Role.cellToInputWeights ∈ enabledRoles cell := by
      simp [enabledRoles, own]
    have source := held.find? .cellToInputWeights
    rw [if_pos enabled] at source
    rw [peeps]
    split
    · exact source
    · rfl
  · unfold LstmWeights.inputRoles
    rw [if_neg (by simp [own])]
    refine LstmWeights.Found.append ?_ ?_
    · obtain ⟨inputFound, found⟩ := List.forall₂_cons.mp found
      obtain ⟨recurrentFound, found⟩ := List.forall₂_cons.mp found
      obtain ⟨biasFound, _⟩ := List.forall₂_cons.mp found
      exact .cons inputFound (.cons recurrentFound (.cons biasFound .nil))
    · rw [peeps]
      split
      · exact weights.found_optional _
      · exact .nil

theorem checkEach_eq_ok {shapes wanted : List Shape} (lengths : shapes.length = wanted.length) :
    checkEach shapes wanted = .ok () ↔ shapes = wanted := by
  induction shapes generalizing wanted with
  | nil => cases wanted <;> simp_all [checkEach]
  | cons actual shapes ih =>
    cases wanted with
    | nil => simp at lengths
    | cons expected wanted =>
      by_cases same : actual = expected
      · simp [checkEach, same, ih (by simpa using lengths)]
      · simp [checkEach, same]

/-- Tensors fit a cell exactly when they are matrices of one batch. -/
theorem checkTensors_eq_ok {dims : Dims} {gates : Nat} {first : Shape} {inputs outputs : List Shape}
    (counts : inputs.length = 2 ∧ outputs.length = 4) :
    checkTensors dims gates (first :: inputs) outputs = .ok () ↔
      ∃ batch, first :: inputs = (tensorShapes dims gates batch).1 ∧
        outputs = (tensorShapes dims gates batch).2 := by
  unfold checkTensors
  dsimp only
  constructor
  · intro fits
    split at fits
    · rename_i batch _ _
      have same := (checkEach_eq_ok (by simp [tensorShapes, counts])).mp fits
      exact ⟨batch, List.append_inj same (by simp [tensorShapes, counts])⟩
    · cases fits
  · rintro ⟨batch, sameInputs, rfl⟩
    obtain ⟨rfl, rfl⟩ := List.cons.inj sameInputs
    exact (checkEach_eq_ok rfl).mpr rfl

/-- Takes the projection that a cell asks for, and builds the function with it. -/
private def buildProjected (cell : Lstm.Cell) (weights : LstmWeights)
    (build : Option StagedProjection → LstmFunction) : Except Fault LstmFunction :=
  if cell.projection then do
    let matrix ← weights.require .projectionWeights
    return build (some { weights := matrix, bias := weights.find? .projectionBias })
  else return build none

private theorem buildProjected_eq_ok (held : weights.Staged cell params first)
    {build : Option StagedProjection → LstmFunction}
    (built : buildProjected cell weights build = .ok function) :
    ∃ projection : Option StagedProjection, function = build projection ∧
      (cell.projection = false → projection = none) ∧
      (cell.projection = true → ∃ staged : StagedProjection, projection = some staged ∧
        params.projectionWeights = some staged.weights.source ∧
        staged.bias.map (·.source) = params.projectionBias) ∧
      weights.Found (weights.projectionRoles cell)
        (projection.toList.flatMap StagedProjection.constants) := by
  unfold buildProjected at built
  unfold LstmWeights.projectionRoles
  cases projected : cell.projection with
  | false =>
    rw [if_neg (by simp [projected])] at built
    exact ⟨none, (pure_eq_ok.mp built).symm, by simp, by simp, .nil⟩
  | true =>
    rw [if_pos projected] at built
    obtain ⟨matrix, required, same⟩ := bind_eq_ok.mp built
    have enabled : Role.projectionBias ∈ enabledRoles cell := by
      simp [enabledRoles, projected]
    have source := held.find? .projectionBias
    rw [if_pos enabled] at source
    refine ⟨_, (pure_eq_ok.mp same).symm, by simp,
      fun _ => ⟨_, rfl, (held.require required).1, source⟩, ?_⟩
    simp only [if_true, Option.toList_some, List.flatMap_cons, List.flatMap_nil, List.append_nil,
      StagedProjection.constants]
    exact .cons (LstmWeights.require_eq_ok.mp required) (weights.found_optional _)

/-- Takes an input gate unless the cell is coupled, then the projection, and builds the function
with both. -/
private def buildExtras (cell : Lstm.Cell) (weights : LstmWeights)
    (build : Option StagedGate → Option StagedProjection → LstmFunction) :
    Except Fault LstmFunction :=
  if cell.coupled then buildProjected cell weights (build none)
  else do
    let peephole := if cell.peephole then weights.find? .cellToInputWeights else none
    let gate ← takeGate weights .inputToInputWeights .recurrentToInputWeights .inputGateBias none
    buildProjected cell weights (build (some { gate with peephole }))

private theorem buildExtras_eq_ok (held : weights.Staged cell params first)
    {build : Option StagedGate → Option StagedProjection → LstmFunction}
    (built : buildExtras cell weights build = .ok function) :
    ∃ inputGate : Option StagedGate,
      (cell.coupled = true → inputGate = none) ∧
      (cell.coupled = false → ∃ (staged : StagedGate) (gate : Lstm.Gate),
        inputGate = some staged ∧ params.inputToInputWeights = some gate.inputWeights ∧
        params.recurrentToInputWeights = some gate.recurrentWeights ∧
        params.inputGateBias = some gate.bias ∧
        staged.Plays gate (if cell.peephole then params.cellToInputWeights else none)) ∧
      weights.Found (weights.inputRoles cell) (inputGate.toList.flatMap StagedGate.constants) ∧
      ∃ projection : Option StagedProjection, function = build inputGate projection ∧
        (cell.projection = false → projection = none) ∧
        (cell.projection = true → ∃ staged : StagedProjection, projection = some staged ∧
          params.projectionWeights = some staged.weights.source ∧
          staged.bias.map (·.source) = params.projectionBias) ∧
        weights.Found (weights.projectionRoles cell)
          (projection.toList.flatMap StagedProjection.constants) := by
  unfold buildExtras at built
  cases coupled : cell.coupled with
  | true =>
    rw [if_pos coupled] at built
    refine ⟨none, by simp, by simp, ?_, buildProjected_eq_ok held built⟩
    rw [LstmWeights.inputRoles, if_pos coupled]
    exact .nil
  | false =>
    rw [if_neg (by simp [coupled])] at built
    obtain ⟨gate, taken, built⟩ := bind_eq_ok.mp built
    obtain ⟨⟨plain, plays⟩, found⟩ := takeInputGate_eq_ok held coupled taken rfl
    exact ⟨some _, by simp, fun _ => ⟨_, plain, rfl, plays⟩, by simpa using found,
      buildProjected_eq_ok held built⟩

/-- A configured function reads what its cell enables, each constant once. -/
theorem configure_eq_ok {activation : Lstm.Activation} {operands : LstmOperands}
    (held : weights.Staged cell params first)
    (configured : configure cell activation weights operands = .ok function) :
    function.Reads params ∧ function.cell = cell ∧ function.activation = activation ∧
      function.dims = weights.dims ∧ function.operands = operands ∧
      checkTensors weights.dims cell.gates (operands.inputs.map (·.shape))
        (operands.outputs.map (·.shape)) = .ok () ∧
      weights.Found (weights.readRoles cell) function.constants := by
  unfold configure at configured
  dsimp only at configured
  split at configured
  · cases configured
  · rename_i fits
    obtain ⟨forget, forgetTaken, configured⟩ := bind_eq_ok.mp configured
    obtain ⟨candidate, candidateTaken, configured⟩ := bind_eq_ok.mp configured
    obtain ⟨output, outputTaken, configured⟩ := bind_eq_ok.mp configured
    obtain ⟨⟨_, _, _⟩, forgetInput, forgetRecurrent, forgetBias, forgetPlays, forgetFound⟩ :=
      takeGate_eq_ok held forgetTaken
    obtain ⟨⟨_, _, _⟩, cellInput, cellRecurrent, cellBias, cellPlays, cellFound⟩ :=
      takeGate_eq_ok held candidateTaken
    obtain ⟨⟨_, _, _⟩, outputInput, outputRecurrent, outputBias, outputPlays, outputFound⟩ :=
      takeGate_eq_ok held outputTaken
    cases forgetInput
    cases forgetRecurrent
    cases forgetBias
    cases cellInput
    cases cellRecurrent
    cases cellBias
    cases outputInput
    cases outputRecurrent
    cases outputBias
    have built : buildExtras cell weights (fun inputGate projection =>
        { cell, activation, dims := weights.dims, operands, inputGate, forgetGate := forget,
          cellGate := candidate, outputGate := output, projection }) = .ok function := configured
    obtain ⟨inputGate, coupled, input, inputFound, projection, rfl, unprojected, projected,
      projectionFound⟩ := buildExtras_eq_ok held built
    refine ⟨⟨held.dims, held.shapes, ?_, cellPlays, ?_, coupled, input, unprojected, projected⟩,
      rfl, rfl, rfl, rfl, fits, ?_⟩
    · convert forgetPlays using 1
      split <;> rfl
    · convert outputPlays using 1
      split <;> rfl
    · have peep : ∀ role : Role, (if cell.peephole then some role else none).toList =
          if cell.peephole then [role] else [] := fun role => by split <;> rfl
      rw [peep] at forgetFound outputFound
      exact (((forgetFound.append (by simpa using cellFound)).append outputFound).append
        inputFound).append projectionFound

end LstmFunction

end NeuralGraph.Accelerator
