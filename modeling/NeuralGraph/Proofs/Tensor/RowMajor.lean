import Mathlib.Data.List.Forall2
import NeuralGraph.Proofs.Tensor.Shape
import NeuralGraph.Tensor.RowMajor

/-! Positions in a buffer. Coordinates on the axes of a shape and the flat positions inside it
determine each other, and the operands of a broadcast stretch to its last axes. -/

namespace NeuralGraph

/-- An extent that covers a whole axis, or one element for all positions on it. -/
def Extent.StretchesTo (extent whole : Extent) : Prop := extent = whole ∨ extent = 1

namespace Shape

/-- The axes of the operand, aligned with the last ones of the broadcast, stretch to these. -/
def StretchesTo (operand out : Shape) : Prop :=
  operand.rank ≤ out.rank ∧
    List.Forall₂ Extent.StretchesTo operand.extents
      (out.extents.drop (out.rank - operand.rank))

theorem stretch_eq_some {a b extent : Extent} (joined : stretch a b = some extent) :
    Extent.StretchesTo a extent ∧ Extent.StretchesTo b extent := by
  unfold stretch at joined
  split at joined
  · rename_i same
    cases joined
    exact ⟨.inl rfl, same.imp_left Eq.symm⟩
  · split at joined
    · rename_i one
      cases joined
      exact ⟨.inr one, .inl rfl⟩
    · cases joined

theorem broadcastReversed_eq_some {a b out : List Extent}
    (joined : broadcastReversed a b = some out) :
    (a.length ≤ out.length ∧ List.Forall₂ Extent.StretchesTo a (out.take a.length)) ∧
      b.length ≤ out.length ∧ List.Forall₂ Extent.StretchesTo b (out.take b.length) := by
  have whole : ∀ extents, List.Forall₂ Extent.StretchesTo extents extents :=
    fun _ => List.forall₂_same.mpr fun _ _ => .inl rfl
  induction a generalizing b out with
  | nil =>
    cases joined
    exact ⟨⟨Nat.zero_le _, .nil⟩, Nat.le_refl _, by simpa using whole b⟩
  | cons first a ih =>
    cases b with
    | nil =>
      cases joined
      exact ⟨⟨Nat.le_refl _, by simpa using whole (first :: a)⟩, Nat.zero_le _, .nil⟩
    | cons second b =>
      simp only [broadcastReversed, Option.bind_eq_bind, Option.bind_eq_some_iff] at joined
      obtain ⟨extent, stretched, rest, later, same⟩ := joined
      cases same
      obtain ⟨left, right⟩ := stretch_eq_some stretched
      obtain ⟨⟨lengthA, restA⟩, lengthB, restB⟩ := ih later
      exact ⟨⟨Nat.succ_le_succ lengthA, .cons left restA⟩, Nat.succ_le_succ lengthB,
        .cons right restB⟩

/-- Both operands take part in their broadcast. -/
theorem broadcast_eq_some {a b out : Shape} (joined : broadcast a b = some out) :
    a.StretchesTo out ∧ b.StretchesTo out := by
  obtain ⟨reversed, found, rfl⟩ := Option.map_eq_some_iff.mp joined
  obtain ⟨⟨lengthA, alignedA⟩, lengthB, alignedB⟩ := broadcastReversed_eq_some found
  have restore : ∀ {operand : Shape}, operand.extents.reverse.length ≤ reversed.length →
      List.Forall₂ Extent.StretchesTo operand.extents.reverse
        (reversed.take operand.extents.reverse.length) →
      operand.StretchesTo ⟨reversed.reverse⟩ := by
    intro operand length aligned
    rw [List.length_reverse] at length aligned
    refine ⟨by simpa [rank] using length, List.forall₂_reverse_iff.mp ?_⟩
    simpa [rank, ← List.reverse_take] using aligned
  exact ⟨restore lengthA alignedA, restore lengthB alignedB⟩

/-- Without extents of zero, what the extents come to bounds every product on the way. -/
theorem staysWord_of_pos {product : Nat} {sizes : List Nat} (positive : ∀ size ∈ sizes, 0 < size)
    (small : product * volume sizes < Capacity.wordLimit) :
    Capacity.staysWord product sizes = true := by
  induction sizes generalizing product with
  | nil => rfl
  | cons size sizes ih =>
    obtain ⟨_, rest⟩ := List.forall_mem_cons.mp positive
    rw [volume_cons, ← Nat.mul_assoc] at small
    have next : product * size < Capacity.wordLimit :=
      Nat.lt_of_le_of_lt (Nat.le_mul_of_pos_right _ (volume_pos rest)) small
    simp only [Capacity.staysWord, Bool.and_eq_true, decide_eq_true_eq]
    exact ⟨next, ih rest small⟩

private theorem bounds_of_aligned {extents wholes : List Extent}
    (aligned : List.Forall₂ Extent.StretchesTo extents wholes)
    (positive : ∀ size ∈ wholes.map UInt32.toNat, 0 < size) :
    (∀ size ∈ extents.map UInt32.toNat, 0 < size) ∧
      volume (extents.map UInt32.toNat) ≤ volume (wholes.map UInt32.toNat) := by
  induction aligned with
  | nil => exact ⟨positive, Nat.le_refl _⟩
  | @cons extent whole extents wholes stretches _ ih =>
    rw [List.map_cons] at positive
    obtain ⟨first, rest⟩ := List.forall_mem_cons.mp positive
    obtain ⟨later, bound⟩ := ih rest
    have stretched : 0 < extent.toNat ∧ extent.toNat ≤ whole.toNat := by
      rcases stretches with rfl | rfl
      · exact ⟨first, Nat.le_refl _⟩
      · exact ⟨Nat.zero_lt_one, first⟩
    exact ⟨List.forall_mem_cons.mpr ⟨stretched.1, later⟩, Nat.mul_le_mul stretched.2 bound⟩

/-- The operands of a broadcast that is not empty are no larger than it is. -/
theorem StretchesTo.isCountable {operand out : Shape} (stretches : operand.StretchesTo out)
    (positive : ∀ size ∈ out.sizes, 0 < size) (storable : out.isStorable = true) :
    operand.isCountable = true := by
  have split : out.sizes = out.sizes.take (out.rank - operand.rank) ++
      (out.extents.drop (out.rank - operand.rank)).map UInt32.toNat := by
    rw [List.map_drop]
    exact (List.take_append_drop _ _).symm
  rw [split] at positive
  obtain ⟨front, back⟩ := List.forall_mem_append.mp positive
  obtain ⟨inside, bound⟩ := bounds_of_aligned stretches.2 back
  have whole : volume operand.sizes ≤ out.elementCount := by
    rw [elementCount, split, volume_append]
    exact Nat.le_trans bound (Nat.le_mul_of_pos_left _ (volume_pos front))
  have fits := of_decide_eq_true (isStorable_iff.mp storable).2
  refine staysWord_of_pos inside ?_
  simp only [Capacity.scalarBytes, Capacity.signedLimit, Capacity.wordLimit, UInt64.size] at fits ⊢
  omega

end Shape

/-- A position in row-major order lies inside the rows. -/
theorem position_lt {row column rows columns : Nat} (below : row < rows)
    (inside : column < columns) : row * columns + column < rows * columns :=
  calc row * columns + column < row * columns + columns := Nat.add_lt_add_left inside _
    _ = (row + 1) * columns := (Nat.succ_mul row columns).symm
    _ ≤ rows * columns := Nat.mul_le_mul_right columns below

/-- A position in row-major order, taken apart. -/
theorem divMod_position {row column columns : Nat} (inside : column < columns) :
    (row * columns + column) / columns = row ∧ (row * columns + column) % columns = column := by
  have positive : 0 < columns := Nat.zero_lt_of_lt inside
  rw [Nat.mul_comm, Nat.mul_add_div positive, Nat.mul_add_mod, Nat.div_eq_of_lt inside,
    Nat.mod_eq_of_lt inside]
  exact ⟨rfl, rfl⟩

namespace RowMajor

/-- The flat position of coordinates in row-major order. -/
def position : List Nat → List Nat → Nat
  | _ :: rest, coordinate :: coordinates =>
    coordinate * Shape.volume rest + position rest coordinates
  | _, _ => 0

variable {extents coordinates : List Nat}

theorem position_lt_volume (within : List.Forall₂ (· < ·) coordinates extents) :
    position extents coordinates < Shape.volume extents := by
  induction within with
  | nil => exact Nat.zero_lt_one
  | cons inside _ ih => exact position_lt inside ih

theorem position_planes (batch channels height width entry channel row column : Nat) :
    position [batch, channels, height, width] [entry, channel, row, column] =
      (entry * channels + channel) * (height * width) + (row * width + column) := by
  simp [position, Nat.add_mul, Nat.mul_assoc, Nat.add_assoc]

theorem position_nested (batch channels height width entry channel row column : Nat) :
    position [batch, channels, height, width] [entry, channel, row, column] =
      ((entry * channels + channel) * height + row) * width + column := by
  simp [position, Nat.add_mul, Nat.mul_assoc, Nat.add_assoc]

/-- Each position inside a shape is that of coordinates on its axes. -/
theorem exists_position {flat : Nat} (inside : flat < Shape.volume extents) :
    ∃ coordinates, List.Forall₂ (· < ·) coordinates extents ∧
      position extents coordinates = flat := by
  induction extents generalizing flat with
  | nil => exact ⟨[], .nil, (Nat.lt_one_iff.mp inside).symm⟩
  | cons extent rest ih =>
    rw [Shape.volume_cons] at inside
    have positive : 0 < Shape.volume rest := Nat.pos_of_ne_zero fun zero => by simp [zero] at inside
    obtain ⟨coordinates, within, same⟩ := ih (Nat.mod_lt flat positive)
    refine ⟨flat / Shape.volume rest :: coordinates, .cons ?_ within, ?_⟩
    · exact Nat.div_lt_of_lt_mul (Nat.mul_comm _ _ ▸ inside)
    · rw [position, same, Nat.mul_comm, Nat.div_add_mod]

/-- Dividing by one extent after the other gives the coordinates back; no extent on the way is
zero. -/
theorem split?_position (within : List.Forall₂ (· < ·) coordinates extents) (front : Nat) :
    split? extents (front * Shape.volume extents + position extents coordinates) =
      some (front, coordinates) := by
  induction within generalizing front with
  | nil => simp [split?, position]
  | @cons coordinate extent coordinates rest inside _ ih =>
    have flat : front * Shape.volume (extent :: rest) +
        position (extent :: rest) (coordinate :: coordinates) =
        (front * extent + coordinate) * Shape.volume rest + position rest coordinates := by
      rw [Shape.volume_cons, position, Nat.add_mul, Nat.mul_assoc, Nat.add_assoc]
    obtain ⟨before, here⟩ := @divMod_position front coordinate extent inside
    rw [flat, split?, ih]
    simp [Nat.ne_zero_of_lt inside, before, here]

theorem decode?_position (within : List.Forall₂ (· < ·) coordinates extents) :
    decode? extents (position extents coordinates) = some coordinates := by
  have taken := split?_position within 0
  rw [Nat.zero_mul, Nat.zero_add] at taken
  rw [decode?, taken]
  rfl

/-- Coordinates on the axes of a countable shape encode to their position; `front` and `product`
are what the axes in front have come to. -/
private theorem foldlM_encode {front product : Nat}
    (within : List.Forall₂ (· < ·) coordinates extents) (below : front < product)
    (countable : Capacity.staysWord product extents = true) :
    (extents.zip coordinates).foldlM (fun position (extent, coordinate) =>
        let next := position * extent + coordinate
        if next < Capacity.wordLimit then some next else none) front =
      some (front * Shape.volume extents + position extents coordinates) := by
  induction within generalizing front product with
  | nil => simp [position]
  | @cons coordinate extent coordinates rest inside _ ih =>
    simp only [Capacity.staysWord, Bool.and_eq_true, decide_eq_true_eq] at countable
    obtain ⟨fits, later⟩ := countable
    have next := position_lt below inside
    rw [List.zip_cons_cons, List.foldlM_cons]
    simp only [Nat.lt_trans next fits, if_true, Option.bind_eq_bind, Option.bind_some]
    rw [ih next later, Shape.volume_cons, position, Nat.add_mul, Nat.mul_assoc, Nat.add_assoc]

theorem encode?_eq_position (within : List.Forall₂ (· < ·) coordinates extents)
    (countable : Capacity.staysWord 1 extents = true) :
    encode? extents coordinates = some (position extents coordinates) := by
  simpa [encode?] using foldlM_encode within Nat.zero_lt_one countable

/-- The coordinates that an operand has for coordinates of a broadcast: those on its own axes, which
are the last ones, and zero on every axis of one element. -/
def operandCoordinates (operand coordinates : List Nat) : List Nat :=
  List.zipWith (fun extent coordinate => if extent = 1 then 0 else coordinate) operand
    (coordinates.drop (coordinates.length - operand.length))

theorem pos_of_within (within : List.Forall₂ (· < ·) coordinates extents) :
    ∀ extent ∈ extents, 0 < extent := by
  induction within with
  | nil => simp
  | cons inside _ ih => exact List.forall_mem_cons.mpr ⟨Nat.zero_lt_of_lt inside, ih⟩

private theorem moved_lt {operand whole : List Extent}
    (aligned : List.Forall₂ Extent.StretchesTo operand whole)
    (within : List.Forall₂ (· < ·) coordinates (whole.map UInt32.toNat)) :
    List.Forall₂ (· < ·)
      (List.zipWith (fun extent coordinate => if extent = 1 then 0 else coordinate)
        (operand.map UInt32.toNat) coordinates) (operand.map UInt32.toNat) := by
  induction aligned generalizing coordinates with
  | nil => exact .nil
  | cons stretches _ ih =>
    cases within with
    | cons inside rest =>
      refine .cons ?_ (ih rest)
      rcases stretches with rfl | rfl
      · dsimp only
        split
        · omega
        · exact inside
      · exact Nat.zero_lt_one

theorem operandCoordinates_lt {operand out : Shape} (stretches : operand.StretchesTo out)
    (within : List.Forall₂ (· < ·) coordinates out.sizes) :
    List.Forall₂ (· < ·) (operandCoordinates operand.sizes coordinates) operand.sizes := by
  have axes : coordinates.length - operand.sizes.length = out.rank - operand.rank := by
    rw [within.length_eq]
    simp [Shape.sizes, Shape.rank]
  have dropped := List.forall₂_drop (out.rank - operand.rank) within
  rw [operandCoordinates, axes]
  exact moved_lt stretches.2 (by simpa [Shape.sizes, List.map_drop] using dropped)

end RowMajor

end NeuralGraph
