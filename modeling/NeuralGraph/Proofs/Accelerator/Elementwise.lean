import NeuralGraph.Accelerator.Elementwise
import NeuralGraph.Proofs.Accelerator.Operand
import NeuralGraph.Proofs.Reference.Elementwise

/-! The native activation and softmax against their reference kernels. Activations are the same
map. Softmax scales the distance to the largest value from the other side, and it is only bound to
matrices with columns, where both cut the values into the same rows. -/

namespace NeuralGraph

namespace Scalar

open Float.Model (UnpackedFloat Format)

private theorem sign_mul_comm (a b : UnpackedFloat.Sign) : a * b = b * a := by
  cases a <;> cases b <;> rfl

private theorem unpacked_mul_comm (format : Format) (a b : UnpackedFloat) :
    a.mul format b = b.mul format a := by
  cases a <;> cases b <;> dsimp only [UnpackedFloat.mul] <;>
    simp only [sign_mul_comm, Nat.mul_comm, Int.add_comm]

theorem mul_comm (a b : Float32) : a * b = b * a := by
  change Float32.ofModel (Float32.Model.pack _) = Float32.ofModel (Float32.Model.pack _)
  rw [unpacked_mul_comm]

end Scalar

namespace Accelerator

variable {device after : Device} {descriptor : QueueDescriptor} {input output : Handle}

theorem ElementwiseFunction.configure_eq_ok {activation : Activation} {source target : Operand}
    {function : ElementwiseFunction}
    (configured : configure activation source target = .ok function) :
    function = { activation, input := source, output := target } := by
  unfold configure at configured
  split at configured
  · cases configured
  · split at configured
    · cases configured
    · exact (Except.ok.inj configured).symm

theorem ElementwiseFunction.run_follows {activation : Activation}
    (kind : descriptor.kind = .activation activation) (inputs : descriptor.inputs = [input])
    (outputs : descriptor.outputs = [output])
    (success : Reference.execute descriptor device = (after, .ok ())) :
    run { activation, input := .imported input, output := .imported output } device =
      (after, .ok ()) := by
  refine Operand.store_follows inputs outputs (by rw [kind]; rfl) success ?_
  intro data result _ evaluated
  rw [kind] at evaluated
  cases evaluated
  rfl

namespace SoftmaxFunction

theorem configure_eq_ok {beta : Float32} {source target : Operand} {function : SoftmaxFunction}
    (configured : configure beta source target = .ok function) :
    ∃ rows columns, source.shape.extents = [rows, columns] ∧ columns ≠ 0 ∧
      function = { beta, columns := columns.toNat, input := source, output := target } := by
  unfold configure at configured
  split at configured
  · rename_i rows columns matrix
    split at configured
    · cases configured
    · split at configured
      · cases configured
      · rename_i wide
        exact ⟨rows, columns, matrix, wide, (Except.ok.inj configured).symm⟩
  · cases configured

theorem normalize_eq_softmaxRow (beta : Float32) (row : List Float32) :
    normalize beta row = Reference.softmaxRow beta row := by
  simp only [normalize, Reference.softmaxRow, Scalar.mul_comm]

theorem normalizeRows_eq {beta : Float32} {columns rows : Nat} {values : List Float32}
    (size : values.length = rows * columns) :
    normalizeRows beta columns rows values = (List.range rows).flatMap fun index =>
      Reference.softmaxRow beta ((values.drop (index * columns)).take columns) := by
  induction rows generalizing values with
  | zero => simpa [normalizeRows] using size
  | succ rows ih =>
    have rest : (values.drop columns).length = rows * columns := by
      rw [List.length_drop, size, Nat.succ_mul, Nat.add_sub_cancel]
    rw [normalizeRows, ih rest, List.range_succ_eq_map, List.flatMap_cons, List.flatMap_map,
      normalize_eq_softmaxRow]
    simp [Nat.succ_mul, Nat.add_comm]

/-- Softmax over a matrix. -/
theorem softmax_matrix {beta : Float32} {rows columns : Extent} {data : Array Float32}
    (size : data.size = rows.toNat * columns.toNat) :
    Reference.softmax beta ⟨⟨[rows, columns]⟩, data⟩ =
      .ok (normalizeRows beta columns.toNat rows.toNat data.toList).toArray := by
  rw [@Reference.softmax_rows _ ⟨⟨[rows, columns]⟩, data⟩ [rows.toNat] _ _ rfl size,
    normalizeRows_eq (by simpa using size)]
  simp only [Reference.row, Array.toList_extract]
  simp [List.extract_eq_take_drop, Nat.succ_mul]

theorem run_follows {beta : Float32} {rows columns : Extent}
    (kind : descriptor.kind = .softmax beta)
    (inputs : descriptor.inputs = [input]) (outputs : descriptor.outputs = [output])
    (matrix : input.shape.extents = [rows, columns]) (wide : columns ≠ 0)
    (ready : descriptor.Ready device.host)
    (success : Reference.execute descriptor device = (after, .ok ())) :
    run { beta, columns := columns.toNat, input := .imported input, output := .imported output }
      device = (after, .ok ()) := by
  refine Operand.store_follows inputs outputs (by rw [kind]; rfl) success ?_
  intro data result held evaluated
  obtain ⟨stored, same, size⟩ := ready.inputs input (by simp [inputs])
  obtain rfl := Option.some.inj (held.symm.trans same)
  have shape : input.shape = ⟨[rows, columns]⟩ := congrArg Shape.mk matrix
  have count := HostMemory.size_of_matrix size shape
  have positive : 0 < columns.toNat := by
    simpa [UInt32.ext_iff, Nat.pos_iff_ne_zero] using wide
  rw [kind, shape] at evaluated
  obtain ⟨normalized, computed, rowwise⟩ := Reference.evaluate_softmax_eq_ok.mp evaluated
  rw [softmax_matrix count] at computed
  cases computed
  cases rowwise
  simp only [count, Nat.mul_div_cancel _ positive]

end SoftmaxFunction

end Accelerator

end NeuralGraph
