import NeuralGraph.Proofs.Layer.Window
import NeuralGraph.Proofs.Reference.Failure

/-! What a convolution computes. Each output value is the correlation of a kernel with the padded
input: one product for each tap that falls on an element, added up from left to right. -/

namespace NeuralGraph

/-- A loop over a rectangle is a loop over its rows, and in each over its columns. -/
theorem foldlM_product {m : Type → Type} [Monad m] [LawfulMonad m] {α β γ : Type}
    (step : γ → α × β → m γ) (rows : List α) (columns : List β) (value : γ) :
    (rows ×ˢ columns).foldlM step value =
      rows.foldlM (fun value row =>
        columns.foldlM (fun value column => step value (row, column)) value) value := by
  induction rows generalizing value with
  | nil => rfl
  | cons row rows ih =>
    rw [List.product_cons, List.foldlM_append, List.foldlM_map, List.foldlM_cons]
    exact congrArg _ (funext ih)

namespace Reference

open RowMajor (position)

variable {convolution : Convolution} {weights : Constant} {bias : Option Constant}
  {input : View} {out : Shape} {axes : WindowAxis × WindowAxis}

/-- The taps of a kernel at an output position, channel by channel and row by row: a channel with a
row and a column of the kernel that falls on an element. -/
def taps (axes : WindowAxis × WindowAxis) (channels row column : Nat) : List (Nat × Nat × Nat) :=
  (List.range channels ×ˢ List.range axes.1.window.toNat ×ˢ List.range axes.2.window.toNat).filter
    fun (_, down, across) =>
      axes.1.IsElement (axes.1.coordinate row down) &&
        axes.2.IsElement (axes.2.coordinate column across)

theorem tap?_eq_ite (axis : WindowAxis) (position offset : Nat) :
    tap? axis.stride.toNat axis.low.toNat axis.input.toNat position offset =
      if axis.IsElement (axis.coordinate position offset) then
        some (axis.coordinate position offset).toNat
      else none := by
  have element : axis.IsElement (axis.coordinate position offset) ↔
      axis.low.toNat ≤ position * axis.stride.toNat + offset ∧
        position * axis.stride.toNat + offset - axis.low.toNat < axis.input.toNat := by
    simp only [WindowAxis.IsElement, WindowAxis.coordinate]
    rw [← Int.natCast_mul]
    omega
  have number : (axis.coordinate position offset).toNat =
      position * axis.stride.toNat + offset - axis.low.toNat := by
    simp only [WindowAxis.coordinate]
    rw [← Int.natCast_mul]
    omega
  unfold tap?
  simp only [element, number]

/-- The kernel skips the padding tap by tap, so its loops go over the taps on elements. -/
theorem convolutionOutput_eq_foldlM {data : Array Float32}
    {batch channels height width kernelHeight kernelWidth : Extent} (outputs : Extent)
    (start : Float32) (entry output row column : Nat) :
    convolutionOutput convolution data ⟨batch.toNat, channels.toNat, height.toNat, width.toNat⟩
        weights kernelHeight.toNat kernelWidth.toNat start entry output row column =
      (taps (convolution.axes height width kernelHeight kernelWidth) channels.toNat row
        column).foldlM (fun sum tap => do
          let value ← fetch data (position [batch.toNat, channels.toNat, height.toNat, width.toNat]
            [entry, tap.1, ((convolution.rowAxis height kernelHeight).coordinate row tap.2.1).toNat,
              ((convolution.columnAxis width kernelWidth).coordinate column tap.2.2).toNat])
          let weight ← fetch weights.data (position
            [outputs.toNat, channels.toNat, kernelHeight.toNat, kernelWidth.toNat]
            [output, tap.1, tap.2.1, tap.2.2])
          return sum + value * weight) start := by
  have vertical : ∀ offset, tap? convolution.strideY.toNat convolution.padTop.toNat height.toNat row
      offset = _ := tap?_eq_ite (convolution.rowAxis height kernelHeight) row
  have horizontal : ∀ offset, tap? convolution.strideX.toNat convolution.padLeft.toNat width.toNat
      column offset = _ := tap?_eq_ite (convolution.columnAxis width kernelWidth) column
  -- The tests become propositions first: once the axes are opened, `decide` has other instances.
  simp only [taps, List.foldlM_filter, foldlM_product, Bool.and_eq_true, decide_eq_true_eq]
  simp only [convolutionOutput, foldPositions_eq_foldlM, ← List.range_eq_range', vertical,
    horizontal, Planes.index, RowMajor.position_nested, Convolution.axes,
    Convolution.window_rowAxis, Convolution.window_columnAxis]
  refine congrArg (List.foldlM · start _) (funext fun sum => funext fun channel => ?_)
  refine congrArg (List.foldlM · sum _) (funext fun sum => funext fun down => ?_)
  by_cases below : (convolution.rowAxis height kernelHeight).IsElement
      ((convolution.rowAxis height kernelHeight).coordinate row down)
  · simp only [if_pos below, and_iff_right below]
    refine congrArg (List.foldlM · sum _) (funext fun sum => funext fun across => ?_)
    by_cases inside : (convolution.columnAxis width kernelWidth).IsElement
        ((convolution.columnAxis width kernelWidth).coordinate column across)
    · simp only [if_pos inside]
    · simp only [if_neg inside]
      rfl
  · simp only [below, false_and, if_false, List.foldlM_pure, List.foldl_fixed]
    rfl

/-- A sum of products that can all be read. -/
theorem foldlM_products_eq_ok {α : Type} {data weights : Array Float32} {valueAt weightAt : α → Nat}
    {taps : List α} {start result : Float32} :
    taps.foldlM (fun sum tap => do
        let value ← fetch data (valueAt tap)
        let weight ← fetch weights (weightAt tap)
        return sum + value * weight) start = .ok result ↔
      ∃ terms : List (Float32 × Float32),
        List.Forall₂ (fun tap term => data[valueAt tap]? = some term.1 ∧
          weights[weightAt tap]? = some term.2) taps terms ∧
        terms.foldl (fun sum term => sum + term.1 * term.2) start = result := by
  induction taps generalizing start with
  | nil => simp [pure, Except.pure]
  | cons tap taps ih =>
    rw [List.foldlM_cons, bind_eq_ok]
    simp only [bind_eq_ok, pure_eq_ok, fetch_eq_ok, ih, List.forall₂_cons_left_iff]
    constructor
    · rintro ⟨_, ⟨value, read, weight, weighed, rfl⟩, terms, later, rfl⟩
      exact ⟨(value, weight) :: terms, ⟨_, _, ⟨read, weighed⟩, later, rfl⟩, rfl⟩
    · rintro ⟨_, ⟨term, terms, ⟨read, weighed⟩, later, rfl⟩, rfl⟩
      exact ⟨_, ⟨term.1, read, term.2, weighed, rfl⟩, terms, later, rfl⟩

/-- A sum starts with the bias of its output, or with zero where there is no bias. -/
def StartsAt (bias : Option Constant) (output : Nat) (start : Float32) : Prop :=
  (bias = none → start = 0) ∧ ∀ constant ∈ bias, constant.data[output]? = some start

/-- The value that a kernel gives at an output position: the bias, plus the products of elements
and weights under its taps, from left to right. -/
def IsCorrelation (axes : WindowAxis × WindowAxis) (input : View) (weights : Constant)
    (bias : Option Constant) (channels entry output row column : Nat) (value : Float32) : Prop :=
  ∃ (start : Float32) (terms : List (Float32 × Float32)), StartsAt bias output start ∧
    List.Forall₂ (fun tap term =>
      input.data[position input.shape.sizes [entry, tap.1, (axes.1.coordinate row tap.2.1).toNat,
        (axes.2.coordinate column tap.2.2).toNat]]? = some term.1 ∧
      weights.data[position weights.shape.sizes [output, tap.1, tap.2.1, tap.2.2]]? = some term.2)
      (taps axes channels row column) terms ∧
    value = terms.foldl (fun sum term => sum + term.1 * term.2) start

theorem startsAt_of_biasAt {output : Nat} {start : Float32} (found : biasAt bias output = .ok start) :
    StartsAt bias output start := by
  cases bias with
  | none =>
    cases found
    exact ⟨fun _ => rfl, by simp⟩
  | some constant =>
    exact ⟨by simp, by simpa using fetch_eq_ok.mp found⟩

/-- Where memory can hold it, a convolution is the correlation of its kernel with the padded input,
and it runs out of bounds otherwise. Its positions fill both padded axes. -/
theorem convolution2d_correlates
    (inferred : (LayerKind.convolution2d convolution weights bias).inferShapes [input.shape] =
      .ok [out])
    (full : input.data.size = input.shape.elementCount) :
    ∃ batch channels height width outputs kernelHeight kernelWidth rows columns : Extent,
      input.shape = ⟨[batch, channels, height, width]⟩ ∧
      weights.shape = ⟨[outputs, channels, kernelHeight, kernelWidth]⟩ ∧
      out = ⟨[batch, outputs, rows, columns]⟩ ∧
      (out.isStorable = true → ∃ result,
        convolution2d convolution input weights bias out = .ok result ∧
        result.size = out.elementCount ∧
        ∀ entry < batch.toNat, ∀ output < outputs.toNat, ∀ row < rows.toNat,
          ∀ column < columns.toNat, ∃ value,
            IsCorrelation (convolution.axes height width kernelHeight kernelWidth) input weights
              bias channels.toNat entry output row column value ∧
            result[position out.sizes [entry, output, row, column]]? = some value) ∧
      (out.isStorable = false →
        convolution2d convolution input weights bias out = .error .outOfBounds) ∧
      (convolution.rowAxis height kernelHeight).Fills rows ∧
      (convolution.columnAxis width kernelWidth).Fills columns := by
  have shape := LayerKind.inferShapes_convolution2d_eq_ok.mp inferred
  obtain ⟨batch, channels, height, width, outputs, kernelHeight, kernelWidth, rows, columns, images,
    filters, shapes, rfl⟩ := Convolution.inferShape_eq_ok shape
  obtain ⟨⟨movesDown, tall⟩, movesAcross, wide⟩ :=
    Convolution.convolved_of_inferShape filters (images ▸ shape)
  refine ⟨batch, channels, height, width, outputs, kernelHeight, kernelWidth, rows, columns, images,
    filters, rfl, fun storable => ?_, convolution2d_of_large shape,
    (WindowAxis.counts_of_convolved movesDown tall).fills,
    (WindowAxis.counts_of_convolved movesAcross wide).fills⟩
  obtain ⟨result, computed, size⟩ := convolution2d_total shape storable full
  refine ⟨result, computed, size, ?_⟩
  intro entry within output inPlane row below column inside
  obtain ⟨_, outcomes⟩ := (convolution2d_eq_ok images filters shapes).mp computed
  obtain ⟨value, product, held⟩ := getElem?_of_outcomes outcomes
    (getElem?_planes _ (position_lt within inPlane) below inside)
  obtain ⟨atEntry, atOutput⟩ := @divMod_position entry output outputs.toNat inPlane
  rw [atEntry, atOutput] at product
  obtain ⟨start, biased, summed⟩ := bind_eq_ok.mp product
  rw [convolutionOutput_eq_foldlM outputs] at summed
  obtain ⟨terms, reads, rfl⟩ := foldlM_products_eq_ok.mp summed
  refine ⟨_, ⟨start, terms, startsAt_of_biasAt biased, ?_, rfl⟩, ?_⟩
  · rw [images, filters]
    exact reads
  · simpa only [Shape.sizes, List.map_cons, List.map_nil, RowMajor.position_planes] using held

/-- A kernel of one row and two columns, moved one element into the padding: its first output reads
the first element under the second column. -/
theorem pairKernel_correlation :
    ∃ result, convolution2d { strideX := 1, strideY := 1, padLeft := 1 }
        ⟨⟨[1, 1, 1, 2]⟩, #[3, 4]⟩ ⟨{ shape := ⟨[1, 1, 1, 2]⟩ }, #[5, 6], 0, rfl, rfl⟩ none
        ⟨[1, 1, 1, 2]⟩ = .ok result ∧ result.size = 2 ∧ result[0]? = some (0 + 3 * 6) := by
  obtain ⟨_, _, _, _, _, _, _, _, _, images, filters, outs, correlates, _⟩ :=
    @convolution2d_correlates { strideX := 1, strideY := 1, padLeft := 1 }
      ⟨{ shape := ⟨[1, 1, 1, 2]⟩ }, #[5, 6], 0, rfl, rfl⟩ none ⟨⟨[1, 1, 1, 2]⟩, #[3, 4]⟩
      ⟨[1, 1, 1, 2]⟩ rfl rfl
  cases images
  cases filters
  cases outs
  obtain ⟨result, computed, size, values⟩ := correlates (by decide)
  obtain ⟨_, ⟨start, terms, starts, reads, rfl⟩, held⟩ :=
    values 0 (by decide) 0 (by decide) 0 (by decide) 0 (by decide)
  obtain rfl := starts.1 rfl
  change List.Forall₂ _ [(0, 0, 1)] terms at reads
  obtain ⟨⟨value, weight⟩, _, ⟨read, weighed⟩, done, rfl⟩ := List.forall₂_cons_left_iff.mp reads
  cases done
  cases read
  cases weighed
  exact ⟨result, computed, size, held⟩

/-- Two limits of the correlation. Images without channels have no elements, but their outputs can
be more than memory holds; and a kernel without rows has no tap that one more position could move
out of the padded input. -/
theorem emptyKernels_exceptions :
    (¬∀ (convolution : Convolution) (weights : Constant) (bias : Option Constant) (input : View)
        (out : Shape),
        (LayerKind.convolution2d convolution weights bias).checkParameters = .ok () →
        (LayerKind.convolution2d convolution weights bias).inferShapes [input.shape] = .ok [out] →
        input.data.size = input.shape.elementCount →
        ∃ result, convolution2d convolution input weights bias out = .ok result) ∧
      ¬∀ (convolution : Convolution) (weights : Constant) (bias : Option Constant)
        (batch channels height width outputs kernelHeight kernelWidth rows columns : Extent),
        (LayerKind.convolution2d convolution weights bias).checkParameters = .ok () →
        weights.shape = ⟨[outputs, channels, kernelHeight, kernelWidth]⟩ →
        (LayerKind.convolution2d convolution weights bias).inferShapes
          [⟨[batch, channels, height, width]⟩] = .ok [⟨[batch, outputs, rows, columns]⟩] →
        ∃ coordinate ∈ (convolution.rowAxis height kernelHeight).coordinates rows.toNat,
          ¬(convolution.rowAxis height kernelHeight).IsPadded coordinate := by
  constructor
  · intro claim
    obtain ⟨_, computed⟩ := claim { strideX := 1, strideY := 1 }
      ⟨{ shape := ⟨[4294967295, 0, 1, 1]⟩ }, #[], 0, rfl, rfl⟩ none ⟨⟨[4294967295, 0, 1, 1]⟩, #[]⟩
      ⟨[4294967295, 4294967295, 1, 1]⟩ rfl rfl rfl
    cases computed
  · intro claim
    obtain ⟨_, member, _⟩ := claim { strideX := 1, strideY := 1 }
      ⟨{ shape := ⟨[1, 1, 0, 1]⟩ }, #[], 0, rfl, rfl⟩ none 1 1 1 1 1 0 1 2 1 rfl rfl rfl
    cases member

end Reference

end NeuralGraph
