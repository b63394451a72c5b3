import NeuralGraph.Proofs.Reference.View
import NeuralGraph.Reference.Elementwise

/-! What the reference kernels for activation, softmax and addition take. On full operands, softmax
takes every shape that has an axis, and addition every pair that has a broadcast. -/

namespace NeuralGraph.Reference

@[simp]
theorem size_activation (curve : Activation) (input : View) :
    (activation curve input).size = input.data.size := by
  simp [activation]

@[simp]
theorem length_softmaxRow (beta : Float32) (row : List Float32) :
    (softmaxRow beta row).length = row.length := by
  simp [softmaxRow]

theorem length_row {data : Array Float32} {width rows index : Nat}
    (size : data.size = rows * width) (inside : index < rows) :
    (row data width index).length = width := by
  have stop : (index + 1) * width ≤ rows * width := Nat.mul_le_mul_right width inside
  rw [row, Array.length_toList, Array.size_extract, size, Nat.min_eq_left stop, Nat.succ_mul,
    Nat.add_sub_cancel_left]

theorem rows_of_size {rows columns : Nat} (wide : columns ≠ 0) :
    (rows * columns + columns - 1) / columns = rows := by
  have positive : 0 < columns := Nat.pos_of_ne_zero wide
  rw [Nat.add_sub_assoc positive, Nat.mul_comm, Nat.mul_add_div positive,
    Nat.div_eq_of_lt (Nat.sub_lt positive Nat.one_pos), Nat.add_zero]

/-- Softmax over full rows, which may be empty. -/
theorem softmax_rows {beta : Float32} {input : View} {front : List Nat} {width rows : Nat}
    (sizes : input.shape.sizes = front ++ [width]) (full : input.data.size = rows * width) :
    softmax beta input = .ok ((List.range rows).flatMap fun index =>
      softmaxRow beta (row input.data width index)).toArray := by
  unfold softmax
  rw [sizes, List.getLast?_concat]
  split
  · rename_i none
    cases none
  · rename_i zero
    obtain rfl := Option.some.inj zero
    simp [row, softmaxRow]
  · rename_i wide same
    obtain rfl := Option.some.inj same
    rw [full, rows_of_size wide]

/-- Softmax has a value for each element, unless the input is a scalar. -/
theorem softmax_total {beta : Float32} {input : View} (axis : input.shape.extents ≠ [])
    (full : input.data.size = input.shape.elementCount) :
    ∃ result, softmax beta input = .ok result ∧ result.size = input.shape.elementCount := by
  obtain ⟨front, width, sizes⟩ : ∃ front width, input.shape.sizes = front ++ [width] :=
    (List.eq_nil_or_concat' input.shape.sizes).resolve_left (by simpa [Shape.sizes] using axis)
  have count : input.shape.elementCount = Shape.volume front * width := by
    simp [Shape.elementCount, sizes]
  refine ⟨_, softmax_rows sizes (full.trans count), ?_⟩
  rw [count, List.size_toArray]
  apply length_flatMap_range
  intro index inside
  rw [length_softmaxRow, length_row (full.trans count) inside]

/-- What is read from an operand for coordinates of the broadcast stands at the coordinates that the
operand has for them. -/
theorem readBroadcast_position {operand : View} {out : Shape}
    (stretches : operand.shape.StretchesTo out) (countable : operand.shape.isCountable = true)
    {coordinates : List Nat} (within : List.Forall₂ (· < ·) coordinates out.sizes) :
    readBroadcast out operand (RowMajor.position out.sizes coordinates) =
      fetch operand.data (RowMajor.position operand.shape.sizes
        (RowMajor.operandCoordinates operand.shape.sizes coordinates)) := by
  have axes : out.sizes.length - operand.shape.sizes.length =
      coordinates.length - operand.shape.sizes.length := by
    rw [within.length_eq]
  have moved := RowMajor.operandCoordinates_lt stretches within
  have found := RowMajor.encode?_eq_position moved countable
  unfold readBroadcast operandIndex?
  rw [if_neg (Nat.not_lt.mpr stretches.1), RowMajor.decode?_position within, Option.bind_eq_bind,
    Option.bind_some, axes]
  rw [RowMajor.operandCoordinates] at found
  rw [found]
  rfl

/-- Each element of the broadcast reads an element of the operand. -/
theorem readBroadcast_total {operand : View} {out : Shape}
    (stretches : operand.shape.StretchesTo out) (storable : out.isStorable = true)
    (full : operand.data.size = operand.shape.elementCount) {flat : Nat}
    (inside : flat < out.elementCount) : ∃ value, readBroadcast out operand flat = .ok value := by
  obtain ⟨coordinates, within, rfl⟩ := RowMajor.exists_position inside
  have countable := stretches.isCountable (RowMajor.pos_of_within within) storable
  have moved := RowMajor.operandCoordinates_lt stretches within
  rw [readBroadcast_position stretches countable within]
  exact fetch_total (full ▸ RowMajor.position_lt_volume moved)

/-- Addition has a value for each element of the broadcast. -/
theorem addition_total {a b : View} {out : Shape}
    (joined : Shape.broadcast a.shape b.shape = some out)
    (storable : out.isStorable = true) (fullA : a.data.size = a.shape.elementCount)
    (fullB : b.data.size = b.shape.elementCount) :
    ∃ result, addition a b out = .ok result ∧ result.size = out.elementCount := by
  obtain ⟨countable, fits⟩ := Shape.isStorable_iff.mp storable
  obtain ⟨stretchesA, stretchesB⟩ := Shape.broadcast_eq_some joined
  unfold addition
  rw [Shape.count, if_pos countable, bind_ok]
  apply tabulate_total fits
  intro flat inside
  obtain ⟨x, readsA⟩ := readBroadcast_total stretchesA storable fullA inside
  obtain ⟨y, readsB⟩ := readBroadcast_total stretchesB storable fullB inside
  exact ⟨x + y, by rw [readsA, readsB]; rfl⟩

end NeuralGraph.Reference
