import Mathlib.Data.Option.Basic
import NeuralGraph.Accelerator.Pooling
import NeuralGraph.Proofs.Accelerator.Operand
import NeuralGraph.Proofs.Reference.Pooling

/-! The native pooling against its reference kernel. Its spans are the reaches of the reference
windows, moved onto the plane. Both cover the same elements, and where there are any, both count
the same padded positions. -/

namespace NeuralGraph.Accelerator

open Reference (Sweep Reach sweeps)

/-- The part of an axis that a window covers. -/
def spanOf (extent : Nat) (reach : Reach) : Span where
  start := clampTo extent reach.start
  stop := clampTo extent reach.stop
  padded := reach.padded.toNat

section Span

variable {extent : Nat} {reach : Reach}

theorem stop_spanOf_le (extent : Nat) (reach : Reach) : (spanOf extent reach).stop ≤ extent := by
  simp only [spanOf, clampTo]
  omega

/-- A window has the elements of its span. -/
theorem length_spanOf (extent : Nat) (reach : Reach) :
    (spanOf extent reach).stop - (spanOf extent reach).start =
      reach.last extent - reach.first := by
  simp only [spanOf, clampTo, Reach.last, Reach.first]
  omega

/-- A window with elements starts where its span does. -/
theorem start_spanOf (covers : reach.first < reach.last extent) :
    (spanOf extent reach).start = reach.first := by
  simp only [spanOf, clampTo, Reach.last, Reach.first] at covers ⊢
  omega

theorem padded_nonneg (covers : reach.first < reach.last extent) : 0 ≤ reach.padded := by
  simp only [Reach.padded, Reach.last, Reach.first] at covers ⊢
  omega

end Span

namespace PoolingFunction

variable {pooling : Pooling} {function : PoolingFunction} {data : Array Float32}

/-- The elements of a plane, read from the whole buffer. -/
theorem map_some_window {height width plane : Nat} {row column : Span}
    (below : row.stop ≤ height) (inside : column.stop ≤ width)
    (full : (plane + 1) * (height * width) ≤ data.size) :
    (window width (data.extract (plane * (height * width)) ((plane + 1) * (height * width))) row
        column).map some =
      (List.range (row.stop - row.start)).flatMap fun y =>
        (List.range (column.stop - column.start)).map fun x =>
          data[plane * (height * width) + (row.start + y) * width + (column.start + x)]? := by
  unfold window
  rw [List.map_flatMap, List.range'_eq_map_range, List.flatMap_map]
  apply List.flatMap_congr
  intro y member
  have rowBelow : row.start + y + 1 ≤ height := by
    have within := List.mem_range.mp member
    omega
  have rowEnd : (row.start + y) * width + width ≤ height * width := by
    rw [← Nat.succ_mul]
    exact Nat.mul_le_mul_right width rowBelow
  have planeEnd : plane * (height * width) + height * width = (plane + 1) * (height * width) :=
    (Nat.succ_mul _ _).symm
  have stop : (row.start + y) * width + column.stop ≤ height * width := by omega
  rw [Array.extract_extract, Nat.min_eq_left (by omega), map_some_extract (by omega)]
  have length : plane * (height * width) + ((row.start + y) * width + column.stop) -
      (plane * (height * width) + ((row.start + y) * width + column.start)) =
      column.stop - column.start := by omega
  rw [length]
  simp only [Nat.add_assoc]

/-- Where the reference kernel reads a window, the native function reduces the same elements. -/
theorem reduce_eq {rows columns : Sweep} {plane padded : Nat} {vertical horizontal : Reach}
    {values : List Float32} (algorithm : function.algorithm = pooling.algorithm)
    (native : pooling.algorithm ≠ .l2)
    (counts : function.countPadding = (pooling.padding = .ignoreValue && !pooling.isGlobal))
    (width : function.width = columns.extent)
    (full : (plane + 1) * (rows.extent * columns.extent) ≤ data.size)
    (counted : Reference.paddedCount vertical horizontal = .ok padded)
    (read : Reference.windowValues data (plane * (rows.extent * columns.extent)) rows columns
      vertical horizontal = .ok values) :
    function.reduce (data.extract (plane * (rows.extent * columns.extent))
        ((plane + 1) * (rows.extent * columns.extent)))
        (spanOf rows.extent vertical) (spanOf columns.extent horizontal) =
      Reference.reduce pooling.algorithm (Reference.divisor pooling padded values.length)
        values := by
  obtain ⟨_, elements⟩ := Reference.windowValues_eq_ok.mp read
  have length := congrArg List.length elements
  simp only [List.length_map, List.length_flatMap, List.length_range, List.map_const',
    List.sum_replicate_nat] at length
  unfold reduce
  simp only [length_spanOf, ← length]
  by_cases empty : values.length = 0
  · simp [Reference.reduce, List.length_eq_zero_iff.mp empty]
  · have covered : vertical.first < vertical.last rows.extent ∧
        horizontal.first < horizontal.last columns.extent := by
      rw [length, Nat.mul_eq_zero, not_or] at empty
      omega
    have same : window function.width (data.extract (plane * (rows.extent * columns.extent))
        ((plane + 1) * (rows.extent * columns.extent)))
        (spanOf rows.extent vertical) (spanOf columns.extent horizontal) = values := by
      refine List.map_injective_iff.mpr (Option.some_injective _) ?_
      rw [width, map_some_window (stop_spanOf_le _ _) (stop_spanOf_le _ _) full, elements,
        length_spanOf, length_spanOf, start_spanOf covered.1, start_spanOf covered.2]
    have positions : (spanOf rows.extent vertical).padded *
        (spanOf columns.extent horizontal).padded = padded := by
      rw [← (Reference.paddedCount_eq_ok.mp counted).2]
      exact (Int.toNat_mul (padded_nonneg covered.1) (padded_nonneg covered.2)).symm
    have divisors : (if function.countPadding then (spanOf rows.extent vertical).padded *
        (spanOf columns.extent horizontal).padded else values.length) =
        Reference.divisor pooling padded values.length := by
      rw [counts, positions, Reference.divisor]
      simp
    have occupied : values.isEmpty = false := by simpa using fun none => empty (by simp [none])
    rw [if_neg empty, same, divisors, algorithm]
    unfold Reference.reduce
    rw [occupied]
    cases kind : pooling.algorithm with
    | max => rfl
    | average => rfl
    | l2 => exact absurd kind native

/-- The spans of a configured function are the reaches of the reference windows. -/
theorem configure_eq_ok {input output : Operand}
    (configured : configure pooling input output = .ok function) :
    ∃ batch channels height width outBatch outChannels rows columns,
      input.shape.sizes = [batch, channels, height, width] ∧
      output.shape.sizes = [outBatch, outChannels, rows, columns] ∧
      pooling.algorithm ≠ .l2 ∧ height ≠ 0 ∧ width ≠ 0 ∧
      function = {
        algorithm := pooling.algorithm
        countPadding := pooling.padding = .ignoreValue && !pooling.isGlobal
        planes := batch * channels
        height, width
        rows := (List.range rows).map fun row =>
          spanOf height ((sweeps pooling height width).1.reach row)
        columns := (List.range columns).map fun column =>
          spanOf width ((sweeps pooling height width).2.reach column)
        input, output } := by
  unfold configure at configured
  split at configured
  · rename_i batch channels height width outBatch outChannels rows columns inputSizes outputSizes
    by_cases l2 : pooling.algorithm = .l2
    · simp [l2] at configured
    · by_cases empty : height = 0 ∨ width = 0
      · simp [l2, empty] at configured
      · rw [if_neg l2, if_neg empty] at configured
        refine ⟨batch, channels, height, width, outBatch, outChannels, rows, columns, inputSizes,
          outputSizes, l2, fun zero => empty (.inl zero), fun zero => empty (.inr zero), ?_⟩
        unfold sweeps
        by_cases whole : pooling.isGlobal = true
        · rw [if_pos whole] at configured ⊢
          exact (Except.ok.inj configured).symm
        · rw [if_neg whole] at configured ⊢
          exact (Except.ok.inj configured).symm
  · cases configured

theorem operands_of_configure {input output : Operand}
    (configured : configure pooling input output = .ok function) :
    function.input = input ∧ function.output = output := by
  obtain ⟨_, _, _, _, _, _, _, _, _, _, _, _, _, rfl⟩ := configure_eq_ok configured
  exact ⟨rfl, rfl⟩

/-- What a function stores: every plane that it reads, pooled. -/
def poolAll (function : PoolingFunction) (data : Array Float32) : Array Float32 :=
  let area := function.height * function.width
  ((List.range (min function.planes (data.size / area))).flatMap fun plane =>
    function.pool (data.extract (plane * area) ((plane + 1) * area))).toArray

theorem run_eq_store (function : PoolingFunction) (device : Device) :
    function.run device =
      function.output.store device (do return function.poolAll (← function.input.read device)) :=
  rfl

/-- A native function gives what the reference kernel gives. -/
theorem poolAll_eq {input output : Operand} {result : Array Float32}
    {batch channels height width rows columns : Extent}
    (configured : configure pooling input output = .ok function)
    (inputShape : input.shape = ⟨[batch, channels, height, width]⟩)
    (outputShape : output.shape = ⟨[batch, channels, rows, columns]⟩)
    (full : data.size = input.shape.elementCount)
    (pooled : Reference.pooling2d pooling ⟨input.shape, data⟩ output.shape = .ok result) :
    function.poolAll data = result := by
  obtain ⟨_, _, tall, wide, _, _, _, _, inputSizes, outputSizes, native, notFlat, notThin, rfl⟩ :=
    configure_eq_ok configured
  rw [inputShape] at inputSizes full
  rw [outputShape] at outputSizes
  obtain ⟨rfl, rfl, rfl, rfl⟩ : _ = batch.toNat ∧ _ = channels.toNat ∧ tall = height.toNat ∧
      wide = width.toNat := by simpa [Shape.sizes, eq_comm] using inputSizes
  obtain ⟨rfl, rfl, rfl, rfl⟩ : _ = batch.toNat ∧ _ = channels.toNat ∧ _ = rows.toNat ∧
      _ = columns.toNat := by simpa [Shape.sizes, eq_comm] using outputSizes
  have area : 0 < height.toNat * width.toNat :=
    Nat.mul_pos (Nat.pos_of_ne_zero notFlat) (Nat.pos_of_ne_zero notThin)
  have size : data.size = batch.toNat * channels.toNat * (height.toNat * width.toNat) := by
    simpa using full
  obtain ⟨_, values⟩ := (Reference.pooling2d_eq_ok (by rw [inputShape]; rfl)
    (by rw [outputShape]; rfl) size).mp pooled
  -- The two axes only matter by how their windows reach.
  obtain ⟨tall, wide⟩ := Reference.extents_sweeps pooling height.toNat width.toNat
  generalize sweeps pooling height.toNat width.toNat = swept at values tall wide ⊢
  obtain ⟨vertical, horizontal⟩ := swept
  dsimp only at values tall wide ⊢
  refine Array.ext' (List.map_injective_iff.mpr (fun _ _ => Except.ok.inj) (values.trans ?_).symm)
  simp only [poolAll, pool, size, Nat.mul_div_cancel _ area, Nat.min_self, List.map_flatMap,
    List.map_map, List.flatMap_map]
  refine List.flatMap_congr fun plane member => List.flatMap_congr fun row memberRow =>
    List.map_congr_left fun column memberColumn => ?_
  obtain ⟨value, output⟩ : ∃ value,
      Reference.poolingOutput pooling data vertical horizontal plane row column = .ok value := by
    have computed : Reference.poolingOutput pooling data vertical horizontal plane row column ∈
        result.toList.map Except.ok := by
      rw [values]
      exact List.mem_flatMap.mpr ⟨plane, member, List.mem_flatMap.mpr ⟨row, memberRow,
        List.mem_map.mpr ⟨column, memberColumn, rfl⟩⟩⟩
    obtain ⟨value, _, same⟩ := List.mem_map.mp computed
    exact ⟨value, same.symm⟩
  obtain ⟨padded, elements, counted, read, rfl⟩ := Reference.poolingOutput_eq_ok.mp output
  have inside : (plane + 1) * (height.toNat * width.toNat) ≤ data.size :=
    size ▸ Nat.mul_le_mul_right _ (List.mem_range.mp member)
  rw [output, Function.comp_apply]
  rw [← tall, ← wide] at inside ⊢
  exact congrArg Except.ok (reduce_eq rfl native rfl rfl inside counted read).symm

theorem run_follows {descriptor : QueueDescriptor} {input output : Handle} {device after : Device}
    {batch channels height width rows columns : Extent}
    (kind : descriptor.kind = .pooling2d pooling)
    (inputs : descriptor.inputs = [input]) (outputs : descriptor.outputs = [output])
    (configured : configure pooling (.imported input) (.imported output) = .ok function)
    (inputShape : input.shape = ⟨[batch, channels, height, width]⟩)
    (outputShape : output.shape = ⟨[batch, channels, rows, columns]⟩)
    (ready : descriptor.Ready device.host)
    (success : Reference.execute descriptor device = (after, .ok ())) :
    function.run device = (after, .ok ()) := by
  have operands : function.input = .imported input ∧ function.output = .imported output := by
    obtain ⟨_, _, _, _, _, _, _, _, _, _, _, _, _, rfl⟩ := configure_eq_ok configured
    exact ⟨rfl, rfl⟩
  rw [run_eq_store, operands.1, operands.2]
  refine Operand.store_follows inputs outputs (by rw [kind]; rfl) success ?_
  intro data result held evaluated
  obtain ⟨stored, same, size⟩ := ready.inputs input (by simp [inputs])
  obtain rfl := Option.some.inj (held.symm.trans same)
  rw [kind] at evaluated
  obtain ⟨pooled, computed, same⟩ := Reference.evaluate_pooling2d_eq_ok.mp evaluated
  obtain rfl : pooled = result := List.singleton_inj.mp same
  exact poolAll_eq configured inputShape outputShape size computed

end PoolingFunction

end NeuralGraph.Accelerator
