import NeuralGraph.Proofs.Reference.Failure

/-! Addition over a broadcast. The axes of both operands are aligned with the last axes of the
result, and an axis of one element gives this element to every coordinate. The sum is computed
wherever memory can hold it, which the broadcast alone does not tell. -/

namespace NeuralGraph.Reference

open RowMajor (position operandCoordinates)

/-- The sum of two operands in the shape of their broadcast. Every flat position is taken apart into
its coordinates, which divides by no extent of zero, and each coordinate list has the sum of the two
elements that the operands have for it. -/
structure Sums (a b : View) (out : Shape) (result : Array Float32) : Prop where
  size : result.size = out.elementCount
  decoded : ∀ flat < out.elementCount, ∃ coordinates,
    RowMajor.decode? out.sizes flat = some coordinates ∧
      List.Forall₂ (· < ·) coordinates out.sizes ∧ position out.sizes coordinates = flat
  value : ∀ coordinates, List.Forall₂ (· < ·) coordinates out.sizes → ∃ x y,
    a.data[position a.shape.sizes (operandCoordinates a.shape.sizes coordinates)]? = some x ∧
      b.data[position b.shape.sizes (operandCoordinates b.shape.sizes coordinates)]? = some y ∧
      result[position out.sizes coordinates]? = some (x + y)

/-- Addition gives the sum over the broadcast exactly where memory can hold the result. -/
theorem addition_broadcasts {a b : View} {out : Shape}
    (joined : Shape.broadcast a.shape b.shape = some out)
    (fullA : a.data.size = a.shape.elementCount) (fullB : b.data.size = b.shape.elementCount) :
    (out.isStorable = true → ∃ result, addition a b out = .ok result ∧ Sums a b out result) ∧
      (out.isStorable = false → addition a b out = .error .outOfBounds) := by
  refine ⟨fun storable => ?_, addition_of_large⟩
  obtain ⟨result, computed, size⟩ := addition_total joined storable fullA fullB
  obtain ⟨stretchesA, stretchesB⟩ := Shape.broadcast_eq_some joined
  refine ⟨result, computed, size, fun flat inside => ?_, fun coordinates within => ?_⟩
  · obtain ⟨coordinates, within, rfl⟩ := RowMajor.exists_position inside
    exact ⟨coordinates, RowMajor.decode?_position within, within, rfl⟩
  · have positive := RowMajor.pos_of_within within
    unfold addition at computed
    rw [Shape.count, if_pos (Shape.isStorable_iff.mp storable).1, bind_ok] at computed
    obtain ⟨value, added, held⟩ :=
      getElem?_of_tabulate computed (RowMajor.position_lt_volume within)
    obtain ⟨x, readsA, added⟩ := bind_eq_ok.mp added
    obtain ⟨y, readsB, added⟩ := bind_eq_ok.mp added
    obtain rfl := pure_eq_ok.mp added
    rw [readBroadcast_position stretchesA (stretchesA.isCountable positive storable) within,
      fetch_eq_ok] at readsA
    rw [readBroadcast_position stretchesB (stretchesB.isCountable positive storable) within,
      fetch_eq_ok] at readsB
    exact ⟨x, y, readsA, readsB, held⟩

/-- A column and a row: the second value of each meets in the middle of the second row. -/
theorem columnAndRow_sum :
    ∃ result, addition ⟨⟨[2, 1]⟩, #[1, 2]⟩ ⟨⟨[3]⟩, #[10, 20, 30]⟩ ⟨[2, 3]⟩ = .ok result ∧
      result.size = 6 ∧ result[4]? = some (2 + 20) := by
  obtain ⟨result, computed, sums⟩ :=
    (@addition_broadcasts ⟨⟨[2, 1]⟩, #[1, 2]⟩ ⟨⟨[3]⟩, #[10, 20, 30]⟩ ⟨[2, 3]⟩ rfl rfl rfl).1
      (by decide)
  obtain ⟨x, y, first, second, held⟩ :=
    sums.value [1, 1] (.cons (by decide) (.cons (by decide) .nil))
  cases first
  cases second
  exact ⟨result, computed, sums.size, held⟩

/-- Empty operands have an empty broadcast, but its extents in front of the zero cannot be
multiplied any more. -/
theorem emptyOperands_uncountable :
    ¬∀ (a b : View) (out : Shape), Shape.broadcast a.shape b.shape = some out →
      a.data.size = a.shape.elementCount → b.data.size = b.shape.elementCount →
      ∃ result, addition a b out = .ok result ∧ result.size = out.elementCount := by
  intro claim
  obtain ⟨_, computed, _⟩ := claim ⟨⟨[4294967295, 1, 1, 0]⟩, #[]⟩
    ⟨⟨[1, 4294967295, 4294967295, 0]⟩, #[]⟩ ⟨[4294967295, 4294967295, 4294967295, 0]⟩ rfl rfl rfl
  cases computed

end NeuralGraph.Reference
