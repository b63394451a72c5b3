import Mathlib.Data.List.Forall2
import Mathlib.Data.List.Perm.Basic
import NeuralGraph.Tensor.Constant

/-! Counting elements. Vectors, matrices and batches of planes have as many elements as the product
of their extents, and a constant holds one value for each. What memory can hold of a shape, it can
hold of a smaller one. -/

namespace NeuralGraph

theorem Extent.ofNat?_eq_some {value : Nat} {extent : Extent} :
    Extent.ofNat? value = some extent ↔ extent.toNat = value := by
  unfold Extent.ofNat?
  constructor
  · intro fits
    split at fits
    · rename_i small
      cases fits
      exact Nat.mod_eq_of_lt small
    · cases fits
  · rintro rfl
    rw [if_pos extent.toNat_lt]
    exact congrArg some UInt32.ofNat_toNat

theorem Extent.ofNat?_eq_none {value : Nat} :
    Extent.ofNat? value = none ↔ UInt32.size ≤ value := by
  simp [Extent.ofNat?]

namespace Shape

@[simp] theorem volume_nil : volume [] = 1 := rfl

@[simp] theorem volume_cons (extent : Nat) (rest : List Nat) :
    volume (extent :: rest) = extent * volume rest := rfl

@[simp] theorem volume_append (front back : List Nat) :
    volume (front ++ back) = volume front * volume back := by
  induction front with
  | nil => simp
  | cons extent front ih => rw [List.cons_append, volume_cons, volume_cons, ih, Nat.mul_assoc]

theorem volume_pos {sizes : List Nat} (positive : ∀ size ∈ sizes, 0 < size) : 0 < volume sizes := by
  induction sizes with
  | nil => exact Nat.zero_lt_one
  | cons size sizes ih =>
    obtain ⟨first, rest⟩ := List.forall_mem_cons.mp positive
    exact Nat.mul_pos first (ih rest)

theorem volume_perm {sizes others : List Nat} (same : sizes.Perm others) :
    volume sizes = volume others :=
  same.foldr_op_eq

@[simp] theorem elementCount_vector (length : Extent) :
    elementCount ⟨[length]⟩ = length.toNat := by
  simp [elementCount, sizes]

@[simp] theorem elementCount_matrix (rows columns : Extent) :
    elementCount ⟨[rows, columns]⟩ = rows.toNat * columns.toNat := by
  simp [elementCount, sizes]

@[simp] theorem elementCount_planes (batch channels height width : Extent) :
    elementCount ⟨[batch, channels, height, width]⟩ =
      batch.toNat * channels.toNat * (height.toNat * width.toNat) := by
  simp [elementCount, sizes, Nat.mul_assoc]

theorem isStorable_iff {shape : Shape} : shape.isStorable = true ↔
    shape.isCountable = true ∧ Capacity.fitsBuffer shape.elementCount = true := by
  simp [isStorable]

/-- The extents of a matrix are small enough to be counted where the whole fits a buffer. -/
theorem isStorable_matrix {rows columns : Extent} : (Shape.mk [rows, columns]).isStorable = true ↔
    Capacity.fitsBuffer (rows.toNat * columns.toNat) = true := by
  rw [isStorable_iff, elementCount_matrix]
  refine ⟨And.right, fun fits => ⟨?_, fits⟩⟩
  have height := rows.toNat_lt
  have small := of_decide_eq_true fits
  simp only [Capacity.scalarBytes, Capacity.signedLimit, UInt64.size] at small
  simp [isCountable, Capacity.staysWord, sizes, Capacity.wordLimit, UInt64.size]
  omega

theorem volume_le {small large : List Nat} (smaller : List.Forall₂ (· ≤ ·) small large) :
    volume small ≤ volume large := by
  induction smaller with
  | nil => exact Nat.le_refl _
  | cons first _ ih => exact Nat.mul_le_mul first ih

theorem staysWord_of_le {small large : List Nat} (smaller : List.Forall₂ (· ≤ ·) small large)
    {product bound : Nat} (below : product ≤ bound)
    (stays : Capacity.staysWord bound large = true) : Capacity.staysWord product small = true := by
  induction smaller generalizing product bound with
  | nil => rfl
  | cons first _ ih =>
    simp only [Capacity.staysWord, Bool.and_eq_true, decide_eq_true_eq] at stays ⊢
    have next := Nat.mul_le_mul below first
    exact ⟨Nat.lt_of_le_of_lt next stays.1, ih next stays.2⟩

/-- Memory that can hold a shape can hold every shape of smaller extents. -/
theorem isStorable_of_le {small large : Shape}
    (smaller : List.Forall₂ (· ≤ ·) small.sizes large.sizes) (storable : large.isStorable = true) :
    small.isStorable = true := by
  obtain ⟨countable, fits⟩ := isStorable_iff.mp storable
  refine isStorable_iff.mpr ⟨staysWord_of_le smaller (Nat.le_refl 1) countable, ?_⟩
  simp only [Capacity.fitsBuffer, decide_eq_true_eq] at fits ⊢
  exact Nat.lt_of_le_of_lt (Nat.mul_le_mul_left _ (volume_le smaller)) fits

end Shape

theorem Constant.size_of_shape {constant : Constant} {shape : Shape}
    (same : constant.shape = shape) : constant.data.size = shape.elementCount := by
  rw [← same]
  exact constant.size_eq

end NeuralGraph
