import NeuralGraph.Proofs.Layer.Dense

/-! The batch in inference. Where a layer treats the entries of a batch apart, its outputs have the
batch of its inputs in front, and the rest of their shapes does not depend on it. -/

namespace NeuralGraph

/-- Shapes with the same batch in front. -/
def batched (batch : Extent) (rests : List (List Extent)) : List Shape :=
  rests.map fun rest => ⟨batch :: rest⟩

/-- Layers that treat the entries of a batch apart, on inputs with these extents behind the batch:
softmax only where its axis is another one than the batch. -/
inductive LayerKind.IsRowwise (rests : List (List Extent)) : LayerKind → Prop where
  | activation {curve : Activation} : IsRowwise rests (.activation curve)
  | softmax {beta : Float32} (deep : [] ∉ rests) : IsRowwise rests (.softmax beta)
  | fullyConnected {dense : Dense} {weights : Constant} {bias : Option Constant} :
      IsRowwise rests (.fullyConnected dense weights bias)
  | convolution2d {convolution : Convolution} {weights : Constant} {bias : Option Constant} :
      IsRowwise rests (.convolution2d convolution weights bias)
  | pooling2d {pooling : Pooling} : IsRowwise rests (.pooling2d pooling)
  | lstm {cell : Lstm.Cell} {params : Lstm.Params} : IsRowwise rests (.lstm cell params)

variable {batch : Extent} {rest : List Extent} {out : Shape} {weights : Constant}
  {bias : Option Constant}

theorem Dense.inferShape_batch {dense : Dense}
    (inferred : dense.inferShape weights bias ⟨batch :: rest⟩ = .ok out) :
    ∃ tail, ∀ other, dense.inferShape weights bias ⟨other :: rest⟩ = .ok ⟨other :: tail⟩ := by
  obtain ⟨⟨_, inputs, outputs, fits, _⟩, early⟩ := inferShape_eq_ok_iff.mp inferred
  refine ⟨[outputs], fun other => ?_⟩
  have again : dense.Fits weights bias ⟨other :: rest⟩ other inputs outputs :=
    { ranked := fits.ranked, batch_eq := rfl, matrix := fits.matrix
      volume_eq := fits.volume_eq, biased := fits.biased }
  exact inferShape_eq_ok_iff.mpr ⟨⟨other, inputs, outputs, again, rfl⟩, early⟩

theorem Convolution.inferShape_batch {convolution : Convolution}
    (inferred : convolution.inferShape weights bias ⟨batch :: rest⟩ = .ok out) :
    ∃ tail, ∀ other, convolution.inferShape weights bias ⟨other :: rest⟩ =
      .ok ⟨other :: tail⟩ := by
  unfold inferShape at inferred ⊢
  split at inferred
  · rename_i _ channels height width extents
    obtain ⟨rfl, rfl⟩ := List.cons_eq_cons.mp extents
    dsimp only at inferred ⊢
    split at inferred
    · rename_i outputs expected kernelHeight kernelWidth filters
      split at inferred
      · cases inferred
      · rename_i moves
        split at inferred
        · cases inferred
        · rename_i same
          obtain ⟨checked, given⟩ := seq_eq_ok.mp inferred
          obtain ⟨rows, tall, given⟩ := bind_eq_ok.mp given
          obtain ⟨columns, wide, _⟩ := bind_eq_ok.mp given
          exact ⟨[outputs, rows, columns], fun other => by
            simp only [if_neg moves, if_neg same, checked, tall, wide, bind_ok]
            rfl⟩
    · cases inferred
  · cases inferred

theorem Pooling.inferShape_batch {pooling : Pooling}
    (inferred : pooling.inferShape ⟨batch :: rest⟩ = .ok out) :
    ∃ tail, ∀ other, pooling.inferShape ⟨other :: rest⟩ = .ok ⟨other :: tail⟩ := by
  unfold inferShape at inferred ⊢
  split at inferred
  · rename_i _ channels height width extents
    obtain ⟨rfl, rfl⟩ := List.cons_eq_cons.mp extents
    dsimp only at inferred ⊢
    split at inferred
    · rename_i whole
      exact ⟨[channels, 1, 1], fun other => by rw [if_pos whole]⟩
    · rename_i moves
      obtain ⟨columns, wide, given⟩ := bind_eq_ok.mp inferred
      obtain ⟨rows, tall, _⟩ := bind_eq_ok.mp given
      exact ⟨[channels, rows, columns], fun other => by
        simp only [if_neg moves, wide, tall, bind_ok]
        rfl⟩
  · cases inferred

/-- The operands of a cell are matrices of one batch. -/
theorem Lstm.inferMatrices_of_batched {cell : Lstm.Cell} {params : Lstm.Params}
    {rests : List (List Extent)} {shapes : List Shape}
    (inferred : Lstm.inferShapes cell params (batched batch rests) = .ok shapes) :
    ∃ inputSize outputSize units, rests = [[inputSize], [outputSize], [units]] ∧
      inferMatrices cell params batch inputSize batch outputSize batch units = .ok shapes := by
  obtain ⟨_, inputSize, _, outputSize, _, units, inputs, matrices⟩ := inferShapes_eq_ok.mp inferred
  have tails := congrArg (List.map fun shape => shape.extents.tail) inputs
  obtain rfl : rests = [[inputSize], [outputSize], [units]] := by
    simpa [batched, Function.comp_def] using tails
  cases inputs
  exact ⟨inputSize, outputSize, units, rfl, matrices⟩

theorem Lstm.inferShapes_batch {cell : Lstm.Cell} {params : Lstm.Params}
    {rests : List (List Extent)} {shapes : List Shape}
    (inferred : Lstm.inferShapes cell params (batched batch rests) = .ok shapes) :
    ∃ tails, ∀ other,
      Lstm.inferShapes cell params (batched other rests) = .ok (batched other tails) := by
  obtain ⟨inputSize, outputSize, units, rfl, matrices⟩ := inferMatrices_of_batched inferred
  obtain ⟨_, known, checked, width, scratch, fits, _⟩ := inferMatrices_eq_ok.mp matrices
  refine ⟨[[scratch], [outputSize], [units], [outputSize]], fun other => ?_⟩
  rw [inferShapes_eq_ok]
  refine ⟨other, inputSize, other, outputSize, other, units, rfl, ?_⟩
  exact inferMatrices_eq_ok.mpr ⟨⟨rfl, rfl⟩, known, checked, width, scratch, fits, rfl⟩

@[simp] theorem length_batched (batch : Extent) (rests : List (List Extent)) :
    (batched batch rests).length = rests.length :=
  List.length_map _

/-- Shapes inferred for one batch tell those for every other. -/
theorem LayerKind.inferShapes_batch {kind : LayerKind} {rests : List (List Extent)}
    {shapes : List Shape} (rowwise : kind.IsRowwise rests)
    (inferred : kind.inferShapes (batched batch rests) = .ok shapes) :
    ∃ tails, ∀ other, kind.inferShapes (batched other rests) = .ok (batched other tails) := by
  obtain ⟨count, checked⟩ := inferShapes_eq_ok.mp inferred
  rw [length_batched] at count
  simp only [inferShapes_eq_ok, length_batched, count, true_and]
  have single : kind.inputCount = 1 → ∃ rest, rests = [rest] := fun one =>
    List.length_eq_one_iff.mp (count.trans one)
  have one : ∀ {rest tail : List Extent} {infer : Shape → Except ShapeError Shape},
      (∀ other, infer ⟨other :: rest⟩ = .ok ⟨other :: tail⟩) →
      ∀ other, (do return [← infer ⟨other :: rest⟩]) = Except.ok (batched other [tail]) :=
    fun infers other => by rw [infers other]; rfl
  cases rowwise with
  | activation | softmax =>
    obtain ⟨rest, rfl⟩ := single rfl
    exact ⟨[rest], fun _ => rfl⟩
  | fullyConnected =>
    obtain ⟨rest, rfl⟩ := single rfl
    obtain ⟨_, given, _⟩ := bind_eq_ok.mp checked
    obtain ⟨tail, infers⟩ := Dense.inferShape_batch given
    exact ⟨[tail], one infers⟩
  | convolution2d =>
    obtain ⟨rest, rfl⟩ := single rfl
    obtain ⟨_, given, _⟩ := bind_eq_ok.mp checked
    obtain ⟨tail, infers⟩ := Convolution.inferShape_batch given
    exact ⟨[tail], one infers⟩
  | pooling2d =>
    obtain ⟨rest, rfl⟩ := single rfl
    obtain ⟨_, given, _⟩ := bind_eq_ok.mp checked
    obtain ⟨tail, infers⟩ := Pooling.inferShape_batch given
    exact ⟨[tail], one infers⟩
  | lstm => exact Lstm.inferShapes_batch checked

end NeuralGraph
