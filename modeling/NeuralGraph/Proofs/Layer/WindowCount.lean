import Mathlib.Algebra.Order.Floor.Div
import Mathlib.Data.Nat.PSub
import Mathlib.Order.Interval.Set.Nat
import NeuralGraph.Proofs.Layer.Window
import NeuralGraph.Tensor.Capacity

/-! How many windows pooling finds along an axis. Where no window fits into the padding behind the
axis, the extent of the result is the number of windows that start in front of it; with any padding,
the extent grows with the axis and shrinks with the window and its stride. Machine words are wide
enough for everything that is computed on the way. -/

namespace NeuralGraph

/-- The value, if it is a machine word. -/
def Capacity.word? (value : Nat) : Option Nat :=
  if value < Capacity.wordLimit then some value else none

theorem Capacity.word?_of_lt {value : Nat} (small : value < Capacity.wordLimit) :
    Capacity.word? value = some value := if_pos small

namespace Rounding

variable {amount divisor bound more finer : Nat}

theorem ceiling_divide_le (positive : 0 < divisor) :
    ceiling.divide amount divisor ≤ bound ↔ amount ≤ bound * divisor := by
  rw [Nat.mul_comm bound]
  exact ceilDiv_le_iff_le_mul positive

theorem lt_ceiling_divide (positive : 0 < divisor) :
    bound < ceiling.divide amount divisor ↔ bound * divisor < amount := by
  rw [← Nat.not_le, ceiling_divide_le positive, Nat.not_le]

/-- More that is divided by less gives no less, however the quotient is rounded. -/
theorem divide_le_divide (rounding : Rounding) (less : amount ≤ more) (positive : 0 < finer)
    (closer : finer ≤ divisor) : rounding.divide amount divisor ≤ rounding.divide more finer := by
  cases rounding with
  | floor => exact Nat.div_le_div less closer (Nat.ne_of_gt positive)
  | ceiling =>
    apply (ceiling_divide_le (Nat.lt_of_lt_of_le positive closer)).mpr
    calc
      amount ≤ more := less
      _ ≤ ceiling.divide more finer * finer := (ceiling_divide_le positive).mp (Nat.le_refl _)
      _ ≤ ceiling.divide more finer * divisor := Nat.mul_le_mul_left _ closer

/-- Rounding up gives what rounding down gives, and one more where there is a remainder. -/
theorem ceiling_divide_eq (positive : 0 < divisor) :
    ceiling.divide amount divisor =
      floor.divide amount divisor + if 0 < amount % divisor then 1 else 0 := by
  have parts : amount / divisor * divisor + amount % divisor = amount := Nat.div_add_mod' _ _
  have small := Nat.mod_lt amount positive
  apply Nat.le_antisymm
  · apply (ceiling_divide_le positive).mpr
    rw [Nat.add_mul, divide]
    split <;> omega
  · split
    · apply (lt_ceiling_divide positive).mpr
      rw [divide]
      omega
    · exact Nat.div_le_div_right (by omega)

/-- The quotient in machine words; rounding up adds one to it where there is a remainder. -/
def divideWords : Rounding → Nat → Nat → Option Nat
  | floor, amount, divisor => some (amount / divisor)
  | ceiling, amount, divisor =>
    if 0 < amount % divisor then Capacity.word? (amount / divisor + 1) else some (amount / divisor)

theorem divideWords_eq {amount divisor : Nat} (positive : 0 < divisor)
    (small : amount + 1 < Capacity.wordLimit) (rounding : Rounding) :
    rounding.divideWords amount divisor = some (rounding.divide amount divisor) := by
  cases rounding with
  | floor => rfl
  | ceiling =>
    have less : amount / divisor ≤ amount := Nat.div_le_self _ _
    rw [divideWords, ceiling_divide_eq positive]
    split
    · exact Capacity.word?_of_lt (by omega)
    · rfl

theorem divide_mul_lt (amount : Nat) {divisor : Nat} (positive : 0 < divisor)
    (rounding : Rounding) :
    rounding.divide amount divisor * divisor < amount + divisor := by
  cases rounding with
  | floor => exact Nat.lt_of_le_of_lt (Nat.div_mul_le_self _ _) (by omega)
  | ceiling => exact Nat.lt_of_le_of_lt (Nat.div_mul_le_self _ _) (by omega)

end Rounding

namespace WindowAxis

variable {axis roomier : WindowAxis} {rounding : Rounding} {position : Nat}

/-- The windows that pooling is after. Rounded down, these are the windows that stay inside the
padded axis; rounded up, those that start in front of the padding behind the axis, as long as the
window before them has not come to its end. -/
def windows (axis : WindowAxis) : Rounding → Set Nat
  | .floor => {position | position * axis.stride.toNat + axis.window.toNat ≤ axis.padded}
  | .ceiling => {position | position * axis.stride.toNat < axis.input.toNat + axis.low.toNat ∧
      (position = 0 ∨ (position - 1) * axis.stride.toNat + axis.window.toNat < axis.padded)}

theorem zero_mem_windows (reaches : axis.high < axis.window)
    (fits : axis.window.toNat ≤ axis.padded) : 0 ∈ axis.windows rounding := by
  have far := UInt32.lt_iff_toNat_lt.mp reaches
  cases rounding with
  | floor =>
    have inside : 0 * axis.stride.toNat + axis.window.toNat ≤ axis.padded := by omega
    exact inside
  | ceiling =>
    have starts : 0 * axis.stride.toNat < axis.input.toNat + axis.low.toNat := by
      rw [padded] at fits
      omega
    exact ⟨starts, .inl rfl⟩

/-- Windows that do not fit into the padding behind the axis start in front of it. -/
theorem start_lt_of_mem_windows (reaches : axis.high < axis.window)
    (member : position ∈ axis.windows rounding) :
    position * axis.stride.toNat < axis.input.toNat + axis.low.toNat := by
  cases rounding with
  | floor =>
    have inside : position * axis.stride.toNat + axis.window.toNat ≤ axis.padded := member
    have far := UInt32.lt_iff_toNat_lt.mp reaches
    rw [padded] at inside
    omega
  | ceiling => exact member.1

theorem mem_windows_floor (moves : axis.stride ≠ 0) (reaches : axis.high < axis.window)
    (fits : axis.window.toNat ≤ axis.padded) :
    position ∈ axis.windows .floor ↔ position < axis.pooledCount .floor := by
  rw [pooledCount_floor reaches fits, Nat.lt_succ_iff,
    Nat.le_div_iff_mul_le (stride_pos moves), Nat.le_sub_iff_add_le fits]
  rfl

theorem mem_windows_ceiling (moves : axis.stride ≠ 0) (reaches : axis.high < axis.window)
    (fits : axis.window.toNat ≤ axis.padded) :
    position ∈ axis.windows .ceiling ↔ position < axis.pooledCount .ceiling := by
  have far := UInt32.lt_iff_toNat_lt.mp reaches
  have whole : axis.padded = axis.input.toNat + axis.low.toNat + axis.high.toNat := rfl
  -- all steps but the last one are there because the window before them has more to cover
  have covered : ∀ before, before * axis.stride.toNat + axis.window.toNat < axis.padded ↔
      before < Rounding.ceiling.divide (axis.padded - axis.window.toNat) axis.stride.toNat := by
    intro before
    rw [Rounding.lt_ceiling_divide (stride_pos moves), Nat.lt_sub_iff_add_lt]
  rw [pooledCount, windows, Set.mem_ofPred_eq]
  generalize Rounding.ceiling.divide (axis.padded - axis.window.toNat) axis.stride.toNat = steps
    at covered
  cases position with
  | zero =>
    have moved : steps * axis.stride.toNat ≠ 0 → 0 < steps := by
      intro moved
      exact Nat.pos_of_ne_zero fun none => moved (by rw [none, Nat.zero_mul])
    simp only [Nat.zero_mul, true_or, and_true]
    split <;> omega
  | succ before =>
    simp only [Nat.succ_ne_zero, Nat.add_sub_cancel, false_or, covered]
    split
    · rename_i dropped
      constructor
      · intro member
        obtain ⟨starts, inside⟩ := member
        apply Nat.lt_of_le_of_ne inside
        intro last
        rw [← last] at dropped
        exact Nat.not_lt.mpr dropped starts
      · intro inside
        have reaches := (covered (before + 1)).mpr inside
        exact ⟨by omega, Nat.lt_of_succ_lt inside⟩
    · rename_i kept
      constructor
      · intro member
        exact Nat.succ_lt_succ member.2
      · intro inside
        have start := Nat.mul_le_mul_right axis.stride.toNat (Nat.le_of_lt_succ inside)
        exact ⟨by omega, Nat.lt_of_succ_lt_succ inside⟩

/-- Windows that do not fit into the padding behind the axis are counted from the first one, without
a gap. -/
theorem windows_eq (moves : axis.stride ≠ 0) (reaches : axis.high < axis.window)
    (fits : axis.window.toNat ≤ axis.padded) (rounding : Rounding) :
    axis.windows rounding = Set.Iio (axis.pooledCount rounding) := by
  apply Set.ext
  intro position
  rw [Set.mem_Iio]
  cases rounding with
  | floor => exact mem_windows_floor moves reaches fits
  | ceiling => exact mem_windows_ceiling moves reaches fits

/-- The number of pooling windows, computed step by step in machine words. There is no result where a
sum or a product is not a word, or a difference is not a number. -/
def pooledWords (axis : WindowAxis) (rounding : Rounding) : Option (Except ShapeError Extent) :=
  if axis.stride = 0 then
    some (.error (.invalidConfiguration .zeroPoolingStride))
  else do
    let front ← Capacity.word? (axis.input.toNat + axis.low.toNat)
    let padded ← Capacity.word? (front + axis.high.toNat)
    if padded < axis.window.toNat then
      return .error (.invalidConfiguration (.windowExceedsInput axis.window padded))
    let steps ← rounding.divideWords (← padded.psub' axis.window.toNat) axis.stride.toNat
    let size ← Capacity.word? (steps + 1)
    let start ← Capacity.word? ((← size.psub' 1) * axis.stride.toNat)
    let extent ← if front ≤ start then size.psub' 1 else some size
    return extentOf extent .pooledOverflow

/-- No step leaves the machine words, whatever the extents are. -/
theorem pooledWords_eq (axis : WindowAxis) (rounding : Rounding) :
    axis.pooledWords rounding = some (axis.pooled rounding) := by
  have wide : Capacity.wordLimit = 2 ^ 64 := rfl
  have input := axis.input.toNat_lt
  have low := axis.low.toNat_lt
  have high := axis.high.toNat_lt
  have stride := axis.stride.toNat_lt
  have whole : axis.padded = axis.input.toNat + axis.low.toNat + axis.high.toNat := rfl
  have front : Capacity.word? (axis.input.toNat + axis.low.toNat) =
      some (axis.input.toNat + axis.low.toNat) := Capacity.word?_of_lt (by omega)
  have padding : Capacity.word? (axis.input.toNat + axis.low.toNat + axis.high.toNat) =
      some axis.padded := Capacity.word?_of_lt (by omega)
  by_cases still : axis.stride = 0
  · rw [pooledWords, pooled, if_pos still, if_pos still]
  rw [pooledWords, if_neg still, front, Option.bind_eq_bind, Option.bind_some, padding,
    Option.bind_some]
  by_cases beyond : axis.padded < axis.window.toNat
  · rw [pooled, if_neg still, if_pos beyond, if_pos beyond]
    rfl
  · have fits := Nat.le_of_not_lt beyond
    have positive := stride_pos still
    have left : axis.padded.psub' axis.window.toNat = some (axis.padded - axis.window.toNat) :=
      if_pos fits
    have reach := Rounding.divide_mul_lt (axis.padded - axis.window.toNat) positive rounding
    rw [if_neg beyond, pooled_eq still fits, pooledCount, left]
    simp only [Option.bind_some]
    rw [Rounding.divideWords_eq positive (by omega)]
    generalize rounding.divide (axis.padded - axis.window.toNat) axis.stride.toNat = steps at reach
    have few : steps ≤ steps * axis.stride.toNat := Nat.le_mul_of_pos_right _ positive
    have size : Capacity.word? (steps + 1) = some (steps + 1) :=
      Capacity.word?_of_lt (by omega)
    have last : (steps + 1).psub' 1 = some steps := if_pos (Nat.le_add_left 1 steps)
    have start : Capacity.word? (steps * axis.stride.toNat) = some (steps * axis.stride.toNat) :=
      Capacity.word?_of_lt (by omega)
    simp only [Option.bind_some, size, last, start]
    split <;> rfl

/-- Where no window fits into the padding behind the axis, pooling finds as many windows as there are,
if an extent can hold their number. There is at least one, and each of them starts in front of that
padding; rounded down, they are also the positions of a kernel of the same size. Computing the number
in machine words gives the same. -/
theorem pooled_counts_windows (moves : axis.stride ≠ 0) (reaches : axis.high < axis.window)
    (fits : axis.window.toNat ≤ axis.padded) (rounding : Rounding) :
    axis.pooled rounding = extentOf (axis.windows rounding).ncard .pooledOverflow ∧
    0 < (axis.windows rounding).ncard ∧
    (∀ position < (axis.windows rounding).ncard, position ∈ axis.windows rounding ∧
      position * axis.stride.toNat < axis.input.toNat + axis.low.toNat) ∧
    axis.convolved = extentOf (axis.windows .floor).ncard .convolvedOverflow ∧
    axis.pooledWords rounding = some (axis.pooled rounding) := by
  have same := windows_eq moves reaches fits
  have counted : ∀ rounding, (axis.windows rounding).ncard = axis.pooledCount rounding := by
    intro rounding
    rw [same, Set.ncard_Iio_nat]
  refine ⟨?_, ?_, ?_, ?_, pooledWords_eq axis rounding⟩
  · rw [counted, pooled_eq moves fits]
  · rw [counted]
    apply Set.mem_Iio.mp
    rw [← same]
    exact zero_mem_windows reaches fits
  · intro position below
    have member : position ∈ axis.windows rounding := by
      rw [same, Set.mem_Iio, ← counted]
      exact below
    exact ⟨member, start_lt_of_mem_windows reaches member⟩
  · rw [counted, convolved_eq fits, pooledCount_floor reaches fits]

/-- Rounded up, the last window would start in the padding, and one window is left. -/
theorem lastWindow_dropped :
    (WindowAxis.mk 4 0 1 2 4).pooled .ceiling = .ok 1 ∧
      ((WindowAxis.mk 4 0 1 2 4).windows .ceiling).ncard = 1 := by
  have pooled : (WindowAxis.mk 4 0 1 2 4).pooled .ceiling = .ok 1 := rfl
  obtain ⟨counted, _⟩ :=
    @pooled_counts_windows ⟨4, 0, 1, 2, 4⟩ (by decide) (by decide) (by decide) .ceiling
  exact ⟨pooled, (extentOf_eq_ok.mp (counted.symm.trans pooled)).symm⟩

/-- An axis that is nowhere shorter, under windows that are no larger and move by no more. -/
structure Roomier (axis roomier : WindowAxis) : Prop where
  input : axis.input ≤ roomier.input
  low : axis.low ≤ roomier.low
  high : axis.high ≤ roomier.high
  window : roomier.window ≤ axis.window
  stride : roomier.stride ≤ axis.stride

theorem Roomier.pooledCount_le (room : axis.Roomier roomier) (moves : roomier.stride ≠ 0)
    (rounding : Rounding) : axis.pooledCount rounding ≤ roomier.pooledCount rounding := by
  have input := UInt32.le_iff_toNat_le.mp room.input
  have low := UInt32.le_iff_toNat_le.mp room.low
  have high := UInt32.le_iff_toNat_le.mp room.high
  have window := UInt32.le_iff_toNat_le.mp room.window
  have stride := UInt32.le_iff_toNat_le.mp room.stride
  have more : axis.padded - axis.window.toNat ≤ roomier.padded - roomier.window.toNat := by
    simp only [padded]
    omega
  have steps := rounding.divide_le_divide more (stride_pos moves) stride
  rw [pooledCount, pooledCount]
  generalize rounding.divide (axis.padded - axis.window.toNat) axis.stride.toNat = few at steps
  generalize rounding.divide (roomier.padded - roomier.window.toNat) roomier.stride.toNat = many
    at steps
  rcases Nat.lt_or_eq_of_le steps with fewer | same
  · -- a window that is dropped does not outweigh a step that is gained
    split <;> split <;> omega
  · -- a window that the longer axis drops starts in the padding of the shorter one as well
    have starts : many * roomier.stride.toNat ≤ few * axis.stride.toNat := by
      rw [same]
      exact Nat.mul_le_mul_left _ stride
    split <;> split <;> omega

theorem pooledCount_ceiling (moves : axis.stride ≠ 0) :
    axis.pooledCount .ceiling = axis.pooledCount .floor ∨
      axis.pooledCount .ceiling = axis.pooledCount .floor + 1 := by
  rw [pooledCount, pooledCount, Rounding.ceiling_divide_eq (stride_pos moves)]
  generalize Rounding.floor.divide (axis.padded - axis.window.toNat) axis.stride.toNat = steps
  by_cases rest : 0 < (axis.padded - axis.window.toNat) % axis.stride.toNat
  · have starts : steps * axis.stride.toNat ≤ (steps + 1) * axis.stride.toNat :=
      Nat.mul_le_mul_right _ (Nat.le_succ steps)
    simp only [if_pos rest]
    split <;> split <;> omega
  · exact .inl (by simp only [if_neg rest, Nat.add_zero])

/-- With any padding, pooling finds no fewer windows on an axis that grows anywhere, and no more where
the window or its stride grows. Rounded up, it finds as many as rounded down or one more. -/
theorem pooled_monotone :
    (∀ (axis roomier : WindowAxis) (rounding : Rounding) (fewer more : Extent),
      axis.Roomier roomier → axis.pooled rounding = .ok fewer →
        roomier.pooled rounding = .ok more → fewer ≤ more) ∧
    ∀ (axis : WindowAxis) (down up : Extent), axis.pooled .floor = .ok down →
      axis.pooled .ceiling = .ok up → up = down ∨ up.toNat = down.toNat + 1 := by
  constructor
  · intro axis roomier rounding fewer more room found foundMore
    obtain ⟨_, _, count⟩ := pooled_eq_ok.mp found
    obtain ⟨moves, _, countMore⟩ := pooled_eq_ok.mp foundMore
    rw [UInt32.le_iff_toNat_le, count, countMore]
    exact room.pooledCount_le moves rounding
  · intro axis down up foundDown foundUp
    obtain ⟨moves, _, countDown⟩ := pooled_eq_ok.mp foundDown
    obtain ⟨_, _, countUp⟩ := pooled_eq_ok.mp foundUp
    rw [← UInt32.toNat_inj, countDown, countUp]
    exact pooledCount_ceiling moves

/-- One more element of padding in front lets the window in that the shorter axis drops; rounding up
lets one in that reaches over the end. -/
theorem longerAxis_pooled :
    ((WindowAxis.mk 4 0 2 2 2).pooled .ceiling = .ok 2 ∧
      (WindowAxis.mk 4 1 2 2 2).pooled .ceiling = .ok 3 ∧ (2 : Extent) ≤ 3) ∧
    (WindowAxis.mk 4 0 0 3 2).pooled .floor = .ok 1 ∧
      (WindowAxis.mk 4 0 0 3 2).pooled .ceiling = .ok 2 ∧
        ((2 : Extent) = 1 ∨ (2 : Extent).toNat = (1 : Extent).toNat + 1) :=
  ⟨⟨rfl, rfl, pooled_monotone.1 ⟨4, 0, 2, 2, 2⟩ ⟨4, 1, 2, 2, 2⟩ .ceiling 2 3
    ⟨by decide, by decide, by decide, by decide, by decide⟩ rfl rfl⟩,
    rfl, rfl, pooled_monotone.2 ⟨4, 0, 0, 3, 2⟩ 1 2 rfl rfl⟩

end WindowAxis

end NeuralGraph
