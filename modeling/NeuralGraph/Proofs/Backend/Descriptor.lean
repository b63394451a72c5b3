import NeuralGraph.Backend.Basic
import NeuralGraph.Proofs.Outcome

/-! Descriptors that fit. The checks of a descriptor pass exactly when both sides have the slots of
the kind and every handle has the resolved shape. -/

namespace NeuralGraph.QueueDescriptor

theorem checkShapes_eq_ok {operation : Operation} {side : Side} {index : Nat}
    {handles : List Handle} {infos : List TensorInfo} (lengths : handles.length = infos.length) :
    checkShapes operation side index handles infos = .ok () ↔
      handles.map (·.shape) = infos.map (·.shape) := by
  induction handles generalizing index infos with
  | nil => cases infos <;> simp_all [checkShapes]
  | cons handle handles ih =>
    cases infos with
    | nil => simp at lengths
    | cons info infos =>
      have rest : handles.length = infos.length := by simpa using lengths
      by_cases same : handle.shape = info.shape
      · simp [checkShapes, same, ih rest]
      · simp [checkShapes, same]

theorem checkSide_eq_ok {operation : Operation} {side : Side} {expected : Nat}
    {handles : List Handle} {infos : List TensorInfo} :
    checkSide operation side expected handles infos = .ok () ↔
      handles.length = expected ∧ handles.map (·.shape) = infos.map (·.shape) := by
  unfold checkSide
  by_cases counts : handles.length = expected ∧ infos.length = expected
  · rw [if_pos counts, checkShapes_eq_ok (counts.1.trans counts.2.symm)]
    simp [counts.1]
  · rw [if_neg counts]
    simp only [reduceCtorEq, false_iff, not_and]
    intro count shapes
    have lengths := congrArg List.length shapes
    simp only [List.length_map] at lengths
    exact counts ⟨count, lengths ▸ count⟩

/-- The slots of a descriptor are those of its kind, with the resolved shapes. -/
theorem validate_eq_ok {descriptor : QueueDescriptor} {info : WorkloadInfo} :
    descriptor.validate info = .ok () ↔
      (descriptor.inputs.length = descriptor.kind.inputCount ∧
        descriptor.inputs.map (·.shape) = info.inputs.map (·.shape)) ∧
      descriptor.outputs.length = descriptor.kind.outputCount ∧
        descriptor.outputs.map (·.shape) = info.outputs.map (·.shape) := by
  unfold validate
  rw [seq_eq_ok, checkSide_eq_ok, checkSide_eq_ok]

end NeuralGraph.QueueDescriptor
