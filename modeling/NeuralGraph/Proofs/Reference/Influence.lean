import NeuralGraph.Proofs.Layer.Influence
import NeuralGraph.Proofs.Reference.Lstm

/-! The reference step and the constants that a cell has no use for. Whatever operands it is given,
full or not, it gives the same result for constants that are alike for its cell. -/

namespace NeuralGraph.Reference

open Lstm (Alike Gate Params data_of_value none_or_some_of_value)

section Congruence

variable {gate twin : Gate} {x h state : List Float32}

theorem addProduct_congr {matrix other : Constant} (same : matrix.value = other.value)
    (values : List Float32) : addProduct values matrix x = addProduct values other x := by
  rw [addProduct, addProduct, data_of_value same]

theorem preActivation_congr (same : gate.values = twin.values) :
    preActivation gate x h = preActivation twin x h := by
  obtain ⟨weights, recurrent, bias⟩ := Gate.values_eq_iff.mp same
  rw [preActivation, preActivation, data_of_value bias, addProduct_congr weights,
    addProduct_congr recurrent]

/-- A gate sums what a program sees of its constants. -/
theorem peepedSum_congr {peephole other : Option Constant} (same : gate.values = twin.values)
    (peeps : peephole.map Constant.value = other.map Constant.value) :
    peepedSum gate peephole x h state = peepedSum twin other x h state := by
  unfold peepedSum
  rw [preActivation_congr same]
  rcases none_or_some_of_value peeps with ⟨rfl, rfl⟩ | ⟨weights, otherWeights, rfl, rfl, seen⟩
  · rfl
  · simp only [addPeephole, data_of_value seen]

end Congruence

section Alike

variable {cell : Lstm.Cell} {params other : Params} {extras twin : LstmExtras}
  (alike : Alike cell params other) (found : lstmExtras cell params = .ok extras)
  (twinFound : lstmExtras cell other = .ok twin)
include alike found twinFound

theorem inputGateValues_alike (forget x h state : List Float32) :
    inputGateValues cell params extras.inputGate forget x h state =
      inputGateValues cell other twin.inputGate forget x h state := by
  rcases ownGate_eq_ok.mp (lstmExtras_eq_ok.mp found).1 with
    ⟨coupled, none⟩ | ⟨own, gate, some, weights, recurrent, bias⟩
  · rcases ownGate_eq_ok.mp (lstmExtras_eq_ok.mp twinFound).1 with ⟨_, twinNone⟩ | ⟨own, _⟩
    · rw [none, twinNone]
      rfl
    · exact absurd (coupled.symm.trans own) (by simp)
  · rcases ownGate_eq_ok.mp (lstmExtras_eq_ok.mp twinFound).1 with
      ⟨coupled, _⟩ | ⟨_, twinGate, twinSome, twinWeights, twinRecurrent, twinBias⟩
    · exact absurd (coupled.symm.trans own) (by simp)
    · rw [some, twinSome, inputGateValues_some, inputGateValues_some, peepedSum_congr
        (alike.input own weights recurrent bias twinWeights twinRecurrent twinBias)
        (alike.toInput own)]

/-- A step projects with the same weights, or not at all. -/
theorem projection_alike :
    extras.projection.map Constant.value = twin.projection.map Constant.value := by
  rcases ownProjection_eq_ok.mp (lstmExtras_eq_ok.mp found).2.2 with
    ⟨unprojected, none⟩ | ⟨projected, weights, some, plays⟩
  · rcases ownProjection_eq_ok.mp (lstmExtras_eq_ok.mp twinFound).2.2 with
      ⟨_, twinNone⟩ | ⟨projected, _⟩
    · rw [none, twinNone]
    · exact absurd (unprojected.symm.trans projected) (by simp)
  · rcases ownProjection_eq_ok.mp (lstmExtras_eq_ok.mp twinFound).2.2 with
      ⟨unprojected, _⟩ | ⟨_, twinWeights, twinSome, twinPlays⟩
    · exact absurd (unprojected.symm.trans projected) (by simp)
    · rw [some, twinSome, Option.map_some, Option.map_some, alike.constant .projectionWeights
        (by simp [Lstm.Cell.activeRoles, projected]) plays twinPlays]

theorem projectRow_alike (outputSize : Nat) (hidden : List Float32) :
    projectRow cell params extras.projection outputSize hidden =
      projectRow cell other twin.projection outputSize hidden := by
  rcases none_or_some_of_value (projection_alike alike found twinFound) with
    ⟨none, twinNone⟩ | ⟨weights, twinWeights, some, twinSome, seen⟩
  · rw [none, twinNone]
    rfl
  · have projected : cell.projection = true := by
      rcases ownProjection_eq_ok.mp (lstmExtras_eq_ok.mp found).2.2 with
        ⟨_, none⟩ | ⟨projected, _⟩
      · exact absurd (none.symm.trans some) (by simp)
      · exact projected
    have start : params.projectionBias.map Constant.value =
        other.projectionBias.map Constant.value :=
      alike.agree .projectionBias (by simp [Lstm.Cell.activeRoles, projected])
    rw [some, twinSome]
    dsimp only [projectRow]
    rw [addProduct_congr seen]
    rcases none_or_some_of_value start with ⟨bias, twinBias⟩ | ⟨_, _, bias, twinBias, same⟩
    · rw [bias, twinBias]
    · simp only [bias, twinBias, data_of_value same]

theorem lstmRow_alike (activation : Lstm.Activation) (outputSize : Nat)
    (x h state : List Float32) :
    lstmRow cell params extras activation outputSize x h state =
      lstmRow cell other twin activation outputSize x h state := by
  obtain ⟨toForget, toOutput⟩ := peepholes_of_lstmExtras found
  obtain ⟨twinToForget, twinToOutput⟩ := peepholes_of_lstmExtras twinFound
  have forget := fun state => @peepedSum_congr _ _ x h state _ _ alike.forget alike.toForget
  have output := fun state => @peepedSum_congr _ _ x h state _ _ alike.output alike.toOutput
  rw [lstmRow_eq, lstmRow_eq, toForget, toOutput, twinToForget, twinToOutput]
  simp only [forget, output, preActivation_congr alike.candidate,
    inputGateValues_alike alike found twinFound, projectRow_alike alike found twinFound]

end Alike

/-- A step does not see what its cell has no use for. -/
theorem lstm_alike {cell : Lstm.Cell} {params other : Params} (alike : Alike cell params other)
    (activation : Lstm.Activation) (input outputState cellState : View) :
    lstm cell params activation input outputState cellState =
      lstm cell other activation input outputState cellState := by
  obtain ⟨dims, known, otherKnown, shapes, otherShapes⟩ := alike.exists_dims
  obtain ⟨extras, found⟩ := lstmExtras_total alike.passes.1
  obtain ⟨twin, twinFound⟩ := lstmExtras_total alike.otherPasses.1
  have projects : extras.projection.isNone = twin.projection.isNone := by
    simpa using congrArg Option.isNone (projection_alike alike found twinFound)
  unfold lstm
  simp only [known, otherKnown, shapes, otherShapes, liftFault, bind_ok, found, twinFound,
    projects, lstmRow_alike alike found twinFound]

end NeuralGraph.Reference
