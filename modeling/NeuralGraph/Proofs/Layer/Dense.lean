import NeuralGraph.Proofs.Layer.Inference

/-! Flattening in the inference of dense layers. The extents behind the batch are multiplied out from
the left, and the product is refused as soon as it is no extent. Where no extent is zero this is the
exact product, in any order; an extent of zero counts only if what stands in front of it fits. -/

namespace NeuralGraph

namespace Dense

section Flattening

variable {extents others front back : List Extent}

/-- Multiplies one more extent into a product. -/
def multiply? (product extent : Extent) : Option Extent :=
  Extent.ofNat? (product.toNat * extent.toNat)

theorem flatten?_eq_foldlM (extents : List Extent) :
    flatten? extents = extents.foldlM multiply? 1 := rfl

theorem multiply?_zero (product : Extent) : multiply? product 0 = some 0 := rfl

theorem foldlM_multiply?_zero (extents : List Extent) :
    extents.foldlM multiply? 0 = some 0 := by
  induction extents with
  | nil => rfl
  | cons extent rest ih =>
    have stays : multiply? 0 extent = some 0 := Extent.ofNat?_eq_some.mpr (by simp)
    rw [List.foldlM_cons, stays]
    exact ih

theorem positive_of_nonzero (nonzero : 0 ∉ extents) :
    ∀ size ∈ extents.map UInt32.toNat, 0 < size := by
  intro size member
  obtain ⟨extent, inside, rfl⟩ := List.mem_map.mp member
  refine Nat.pos_of_ne_zero fun none => ?_
  obtain rfl : extent = 0 := UInt32.toNat_inj.mp none
  exact nonzero inside

/-- Extents other than zero never make a product smaller, so that it fits on the way if it does at
the end. -/
theorem foldlM_multiply? (nonzero : 0 ∉ extents) (start : Extent) :
    extents.foldlM multiply? start =
      Extent.ofNat? (start.toNat * Shape.volume (extents.map UInt32.toNat)) := by
  induction extents generalizing start with
  | nil =>
    rw [List.map_nil, Shape.volume_nil, Nat.mul_one]
    exact (Extent.ofNat?_eq_some.mpr rfl).symm
  | cons extent rest ih =>
    have later : 0 ∉ rest := fun member => nonzero (List.mem_cons_of_mem _ member)
    rw [List.foldlM_cons, List.map_cons, Shape.volume_cons, ← Nat.mul_assoc]
    cases grown : multiply? start extent with
    | none =>
      have large := Extent.ofNat?_eq_none.mp grown
      refine (Extent.ofNat?_eq_none.mpr (Nat.le_trans large ?_)).symm
      exact Nat.le_mul_of_pos_right _ (Shape.volume_pos (positive_of_nonzero later))
    | some next =>
      rw [← Extent.ofNat?_eq_some.mp grown]
      exact ih later next

theorem flatten?_of_nonzero (nonzero : 0 ∉ extents) :
    flatten? extents = Extent.ofNat? (Shape.volume (extents.map UInt32.toNat)) := by
  rw [flatten?_eq_foldlM, foldlM_multiply? nonzero]
  simp

theorem flatten?_append_zero (front back : List Extent) :
    flatten? (front ++ 0 :: back) = (flatten? front).map fun _ => 0 := by
  rw [flatten?_eq_foldlM, List.foldlM_append, ← flatten?_eq_foldlM]
  cases flatten? front with
  | none => rfl
  | some product =>
    change (0 :: back).foldlM multiply? product = some 0
    rw [List.foldlM_cons, multiply?_zero]
    exact foldlM_multiply?_zero back

/-- Extents that come to nothing, but only behind a product that is no extent. -/
def VanishesLate (extents : List Extent) : Prop :=
  0 ∈ extents ∧
    UInt32.size ≤ Shape.volume ((extents.takeWhile (· ≠ 0)).map UInt32.toNat)

instance (extents : List Extent) : Decidable (VanishesLate extents) :=
  inferInstanceAs (Decidable (_ ∧ _))

theorem takeWhile_append_zero (nonzero : 0 ∉ front) :
    (front ++ 0 :: back).takeWhile (· ≠ 0) = front := by
  rw [List.takeWhile_append_of_pos, List.takeWhile_cons_of_neg (by simp), List.append_nil]
  intro extent member
  exact decide_eq_true fun zero => nonzero (zero ▸ member)

theorem vanishesLate_append_zero (nonzero : 0 ∉ front) :
    VanishesLate (front ++ 0 :: back) ↔
      UInt32.size ≤ Shape.volume (front.map UInt32.toNat) := by
  unfold VanishesLate
  rw [takeWhile_append_zero nonzero]
  simp

theorem flatten?_eq_none_iff (vanishes : 0 ∈ extents) :
    flatten? extents = none ↔ VanishesLate extents := by
  obtain ⟨front, back, rfl, nonzero⟩ := List.eq_append_cons_of_mem vanishes
  rw [flatten?_append_zero, flatten?_of_nonzero nonzero, vanishesLate_append_zero nonzero,
    Option.map_eq_none_iff, Extent.ofNat?_eq_none]

/-- Multiplying from the left gives the exact product, except where a zero comes too late. -/
theorem flatten?_eq_ite (extents : List Extent) :
    flatten? extents =
      if VanishesLate extents then none
      else Extent.ofNat? (Shape.volume (extents.map UInt32.toNat)) := by
  by_cases vanishes : 0 ∈ extents
  · split
    · rename_i late
      exact (flatten?_eq_none_iff vanishes).mpr late
    · rename_i early
      obtain ⟨product, given⟩ :=
        Option.ne_none_iff_exists'.mp (mt (flatten?_eq_none_iff vanishes).mp early)
      rw [given]
      exact (Extent.ofNat?_eq_some.mpr (flatten?_eq_some given)).symm
  · rw [if_neg fun late => vanishes late.1, flatten?_of_nonzero vanishes]

theorem flatten?_perm (same : extents.Perm others)
    (alike : VanishesLate extents ↔ VanishesLate others) :
    flatten? extents = flatten? others := by
  rw [flatten?_eq_ite, flatten?_eq_ite, Shape.volume_perm (same.map _)]
  simp only [alike]

end Flattening

section Inference

variable {dense : Dense} {weights : Constant} {bias : Option Constant} {input out : Shape}
  {batch inputs outputs rows columns flattened : Extent} {entry other : List Extent}

/-- Operands that go together: each entry of the batch has as many elements as the weights have
inputs, and a bias has one value for each output. -/
structure Fits (dense : Dense) (weights : Constant) (bias : Option Constant) (input : Shape)
    (batch inputs outputs : Extent) : Prop where
  ranked : 2 ≤ input.rank
  batch_eq : input.dim? 0 = some batch
  matrix : weights.shape = ⟨if dense.transposed then [outputs, inputs] else [inputs, outputs]⟩
  volume_eq : Shape.volume input.sizes.tail = inputs.toNat
  biased : ∀ constant ∈ bias, constant.shape = ⟨[outputs]⟩

theorem Fits.sides (fits : dense.Fits weights bias input batch inputs outputs) :
    ∃ rows columns, weights.shape.extents = [rows, columns] ∧
      dense.sides rows columns = (inputs, outputs) := by
  rw [fits.matrix]
  cases transposed : dense.transposed with
  | true => exact ⟨outputs, inputs, rfl, if_pos transposed⟩
  | false => exact ⟨inputs, outputs, rfl, if_neg (by simp [transposed])⟩

/-- The product is refused behind the checks of the ranks. -/
theorem inferShape_of_unflattened (matrix : weights.shape.extents = [rows, columns])
    (large : flatten? entry = none) :
    dense.inferShape weights bias ⟨batch :: entry⟩ =
      .error (.invalidConfiguration (.flattenedOverflow ⟨batch :: entry⟩)) := by
  cases entry with
  | nil => cases large
  | cons first rest => simp [inferShape, matrix, large]

theorem inferShape_of_flattened (ranked : entry ≠ [])
    (matrix : weights.shape.extents = [rows, columns])
    (product : flatten? entry = some flattened) :
    dense.inferShape weights bias ⟨batch :: entry⟩ =
      if (dense.sides rows columns).1 ≠ flattened then
        .error (.mismatch (.denseInputs weights.shape (dense.sides rows columns).1
          ⟨batch :: entry⟩ flattened))
      else do
        checkBias bias (dense.sides rows columns).2
        return ⟨[batch, (dense.sides rows columns).2]⟩ := by
  cases entry with
  | nil => exact absurd rfl ranked
  | cons first rest => simp [inferShape, matrix, product]

/-- Operands that go together are refused only if the entries vanish late. -/
theorem Fits.inferShape_eq (fits : dense.Fits weights bias input batch inputs outputs) :
    dense.inferShape weights bias input =
      if VanishesLate input.extents.tail then
        .error (.invalidConfiguration (.flattenedOverflow input))
      else .ok ⟨[batch, outputs]⟩ := by
  obtain ⟨rows, columns, matrix, sides⟩ := fits.sides
  obtain ⟨ranked, first, _, volume, biased⟩ := fits
  obtain ⟨extents⟩ := input
  cases extents with
  | nil => cases first
  | cons head entry =>
    obtain rfl : head = batch := Option.some.inj first
    have product := flatten?_eq_ite entry
    rw [List.tail_cons]
    split
    · rename_i late
      rw [if_pos late] at product
      exact inferShape_of_unflattened matrix product
    · rename_i early
      have given : flatten? entry = some inputs := by
        rw [product, if_neg early, Extent.ofNat?_eq_some]
        exact volume.symm
      have several : entry ≠ [] := by
        rintro rfl
        simp [Shape.rank] at ranked
      rw [inferShape_of_flattened several matrix given, sides, if_neg (not_not.mpr rfl),
        checkBias_eq_ok.mpr biased]
      rfl

theorem exists_fits (inferred : dense.inferShape weights bias input = .ok out) :
    ∃ batch inputs outputs, dense.Fits weights bias input batch inputs outputs ∧
      out = ⟨[batch, outputs]⟩ := by
  obtain ⟨batch, entry, rows, columns, extents, matrix, volume, biased, rfl⟩ :=
    inferShape_eq_ok inferred
  refine ⟨batch, (dense.sides rows columns).1, (dense.sides rows columns).2, ?_, rfl⟩
  refine ⟨?_, by simp [Shape.dim?, extents], ?_, by simp [Shape.sizes, extents, volume], biased⟩
  · cases entry with
    | nil => simp [inferShape, extents] at inferred
    | cons first rest => simp [Shape.rank, extents]
  · refine (congrArg Shape.mk matrix).trans ?_
    cases transposed : dense.transposed <;> simp [sides, transposed]

theorem inferShape_eq_ok_iff :
    dense.inferShape weights bias input = .ok out ↔
      (∃ batch inputs outputs, dense.Fits weights bias input batch inputs outputs ∧
        out = ⟨[batch, outputs]⟩) ∧ ¬VanishesLate input.extents.tail := by
  constructor
  · intro inferred
    obtain ⟨batch, inputs, outputs, fits, rfl⟩ := exists_fits inferred
    refine ⟨⟨batch, inputs, outputs, fits, rfl⟩, fun late => ?_⟩
    rw [fits.inferShape_eq, if_pos late] at inferred
    cases inferred
  · rintro ⟨⟨batch, inputs, outputs, fits, rfl⟩, early⟩
    rw [fits.inferShape_eq, if_neg early]

/-- What inference answers, apart from the texts of its refusals. -/
def answer (dense : Dense) (weights : Constant) (bias : Option Constant) (input : Shape) :
    Except String Shape :=
  (dense.inferShape weights bias input).mapError ShapeError.kind

/-- Of the extents behind the batch, inference sees how many there are and what they flatten to. -/
theorem answer_congr (length : entry.length = other.length)
    (same : weights.shape.rank = 2 → flatten? entry = flatten? other) :
    dense.answer weights bias ⟨batch :: entry⟩ = dense.answer weights bias ⟨batch :: other⟩ := by
  cases entry with
  | nil => rw [List.length_eq_zero_iff.mp length.symm]
  | cons first rest =>
    cases other with
    | nil => cases length
    | cons head tail =>
      unfold answer inferShape
      dsimp only
      split
      · rename_i rows columns matrix
        rw [same (congrArg List.length matrix)]
        cases flatten? (head :: tail) with
        | none => rfl
        | some flattened =>
          dsimp only
          split <;> rfl
      · rfl

theorem avoids_checkBias :
    Avoids (·.kind = "InvalidConfiguration") (checkBias bias outputs) := by
  unfold checkBias
  split
  · exact .ok ()
  · split
    · exact .ok ()
    · exact .error (by simp [ShapeError.kind])

/-- Configurations are refused for a product that is no extent, and for nothing else. -/
theorem avoids_invalid (fits : weights.shape.rank = 2 → flatten? entry ≠ none) :
    Avoids (·.kind = "InvalidConfiguration")
      (dense.inferShape weights bias ⟨batch :: entry⟩) := by
  cases entry with
  | nil => exact .error (by simp [ShapeError.kind])
  | cons first rest =>
    unfold inferShape
    dsimp only
    split
    · rename_i rows columns matrix
      cases product : flatten? (first :: rest) with
      | none => exact absurd product (fits (congrArg List.length matrix))
      | some flattened =>
        dsimp only
        split
        · exact .error (by simp [ShapeError.kind])
        · exact avoids_checkBias.bind fun _ => .ok _
    · exact .error (by simp [ShapeError.kind])

theorem answer_eq_invalid_iff :
    dense.answer weights bias ⟨batch :: entry⟩ = .error "InvalidConfiguration" ↔
      weights.shape.rank = 2 ∧ flatten? entry = none := by
  constructor
  · intro refused
    by_contra fits
    have avoids : Avoids _ (dense.inferShape weights bias ⟨batch :: entry⟩) :=
      avoids_invalid fun matrix large => fits ⟨matrix, large⟩
    cases inferred : dense.inferShape weights bias ⟨batch :: entry⟩ with
    | ok out => simp [answer, inferred, Except.mapError] at refused
    | error error =>
      rw [answer, inferred] at refused
      exact avoids.spares error inferred (Except.error.inj refused)
  · rintro ⟨matrix, large⟩
    obtain ⟨rows, columns, matrix⟩ := List.length_eq_two.mp matrix
    rw [answer, inferShape_of_unflattened matrix large]
    rfl

/-- The order of the extents behind the batch matters only where it lets a zero come too late. -/
theorem answer_eq_iff_of_perm (same : entry.Perm other) :
    dense.answer weights bias ⟨batch :: entry⟩ = dense.answer weights bias ⟨batch :: other⟩ ↔
      (weights.shape.rank = 2 → (VanishesLate entry ↔ VanishesLate other)) := by
  constructor
  · intro equal matrix
    by_cases vanishes : 0 ∈ entry
    · have refusals := congrArg (· = Except.error "InvalidConfiguration") equal
      simp only [answer_eq_invalid_iff, matrix, true_and] at refusals
      rw [← flatten?_eq_none_iff vanishes, ← flatten?_eq_none_iff (same.mem_iff.mp vanishes)]
      exact iff_of_eq refusals
    · have stays : 0 ∉ other := fun member => vanishes (same.mem_iff.mpr member)
      exact iff_of_false (fun late => vanishes late.1) fun late => stays late.1
  · intro alike
    exact answer_congr same.length_eq fun matrix => flatten?_perm same (alike matrix)

/-- Dense inference refuses what does not fit and, beyond that, exactly the entries that come to
nothing behind a product that is no extent; with the zero in front of that product they are
accepted. -/
theorem fitting_inferred_iff (dense : Dense) (weights : Constant) (bias : Option Constant) :
    (∀ input out, dense.inferShape weights bias input = .ok out ↔
      (∃ batch inputs outputs, dense.Fits weights bias input batch inputs outputs ∧
        out = ⟨[batch, outputs]⟩) ∧ ¬VanishesLate input.extents.tail) ∧
    (∀ input batch inputs outputs, dense.Fits weights bias input batch inputs outputs →
      VanishesLate input.extents.tail →
        dense.inferShape weights bias input =
          .error (.invalidConfiguration (.flattenedOverflow input))) ∧
    ∀ batch entry other, entry.Perm other →
      (dense.answer weights bias ⟨batch :: entry⟩ = dense.answer weights bias ⟨batch :: other⟩ ↔
        (weights.shape.rank = 2 → (VanishesLate entry ↔ VanishesLate other))) := by
  refine ⟨fun _ _ => inferShape_eq_ok_iff, ?_, fun _ _ _ => answer_eq_iff_of_perm⟩
  intro input batch inputs outputs fits late
  rw [fits.inferShape_eq, if_pos late]

/-- Weights that map entries of no elements to three outputs. -/
def hollowWeights : Constant where
  info := { shape := ⟨[0, 3]⟩ }
  data := #[]
  storage := 0
  size_eq := rfl
  storable := by decide

/-- Entries of no elements are refused or accepted, depending on where their zero stands. -/
theorem lateZero_refused :
    let late : Shape := ⟨[1, 4294967295, 4294967295, 0]⟩
    let early : Shape := ⟨[1, 0, 4294967295, 4294967295]⟩
    Fits {} hollowWeights none late 1 0 3 ∧
      inferShape {} hollowWeights none late =
        .error (.invalidConfiguration (.flattenedOverflow late)) ∧
      inferShape {} hollowWeights none early = .ok ⟨[1, 3]⟩ ∧
      answer {} hollowWeights none late ≠ answer {} hollowWeights none early := by
  intro late early
  have fits : Fits {} hollowWeights none late 1 0 3 :=
    { ranked := by decide, batch_eq := rfl, matrix := rfl, volume_eq := rfl, biased := by simp }
  have earlyFits : Fits {} hollowWeights none early 1 0 3 :=
    { ranked := by decide, batch_eq := rfl, matrix := rfl, volume_eq := rfl, biased := by simp }
  obtain ⟨accepts, refuses, ordered⟩ := fitting_inferred_iff {} hollowWeights none
  refine ⟨fits, refuses _ _ _ _ fits (by decide), ?_, ?_⟩
  · exact (accepts early _).mpr ⟨⟨1, 0, 3, earlyFits, rfl⟩, by decide⟩
  · rw [Ne, ordered 1 [4294967295, 4294967295, 0] [0, 4294967295, 4294967295] (by decide)]
    exact fun alike => absurd ((alike rfl).mp (by decide)) (by decide)

end Inference

end Dense

end NeuralGraph
