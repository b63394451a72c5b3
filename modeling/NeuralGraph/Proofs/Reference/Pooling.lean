import Mathlib.Data.List.Forall2
import NeuralGraph.Proofs.Reference.View
import NeuralGraph.Reference.Pooling

/-! The reference kernel for pooling, plane by plane. It succeeds exactly when each window can be
counted and read; a window that has rows and starts right of the plane cannot be read. -/

namespace NeuralGraph.Reference

/-- Fetching is reading, position by position. -/
theorem mapM_fetch_eq_ok {data : Array Float32} {indices : List Nat} {values : List Float32} :
    indices.mapM (fetch data) = .ok values ↔ values.map some = indices.map (data[·]?) := by
  have read : ∀ value index, Except.ok value = fetch data index ↔ some value = data[index]? :=
    fun value index => by rw [eq_comm, fetch_eq_ok, eq_comm]
  rw [mapM_eq_ok]
  simp only [← List.forall₂_eq_eq_eq, List.forall₂_map_left_iff, List.forall₂_map_right_iff, read]

/-- The elements under a window, where there are none or it starts left of the far edge. -/
theorem windowValues_eq_ok {data : Array Float32} {offset : Nat} {rows columns : Sweep}
    {vertical horizontal : Reach} {values : List Float32} :
    windowValues data offset rows columns vertical horizontal = .ok values ↔
      ¬(vertical.first < vertical.last rows.extent ∧
        horizontal.last columns.extent < horizontal.first) ∧
      values.map some =
        (List.range (vertical.last rows.extent - vertical.first)).flatMap fun y =>
          (List.range (horizontal.last columns.extent - horizontal.first)).map fun x =>
            data[offset + (vertical.first + y) * columns.extent + (horizontal.first + x)]? := by
  unfold windowValues
  simp only [Nat.sub_pos_iff_lt]
  split
  · rename_i beyond
    simp [beyond]
  · rename_i reachable
    rw [mapM_fetch_eq_ok, List.map_flatMap]
    simp [reachable, Function.comp_def]

theorem paddedCount_eq_ok {vertical horizontal : Reach} {count : Nat} :
    paddedCount vertical horizontal = .ok count ↔
      (-Capacity.signedLimit ≤ vertical.padded * horizontal.padded ∧
        vertical.padded * horizontal.padded < Capacity.signedLimit) ∧
      (vertical.padded * horizontal.padded).toNat = count := by
  unfold paddedCount
  dsimp only
  split <;> simp [*]

theorem poolingOutput_eq_ok {pooling : Pooling} {data : Array Float32} {rows columns : Sweep}
    {plane row column : Nat} {value : Float32} :
    poolingOutput pooling data rows columns plane row column = .ok value ↔
      ∃ padded values, paddedCount (rows.reach row) (columns.reach column) = .ok padded ∧
        windowValues data (plane * (rows.extent * columns.extent)) rows columns (rows.reach row)
          (columns.reach column) = .ok values ∧
        reduce pooling.algorithm (divisor pooling padded values.length) values = value := by
  simp only [poolingOutput, bind_eq_ok, pure_eq_ok, exists_and_left]

/-- Pooling a whole batch into a shape of the same planes. -/
theorem pooling2d_eq_ok {pooling : Pooling} {input : View} {out : Shape} {result : Array Float32}
    {batch channels height width rows columns : Nat}
    (inputSizes : input.shape.sizes = [batch, channels, height, width])
    (outSizes : out.sizes = [batch, channels, rows, columns])
    (full : input.data.size = batch * channels * (height * width)) :
    pooling2d pooling input out = .ok result ↔ out.isStorable = true ∧
      result.toList.map Except.ok = (List.range (batch * channels)).flatMap fun plane =>
        (List.range rows).flatMap fun row => (List.range columns).map fun column =>
          poolingOutput pooling input.data (sweeps pooling height width).1
            (sweeps pooling height width).2 plane row column := by
  have count : out.elementCount = batch * channels * (rows * columns) := by
    simp [Shape.elementCount, outSizes, Nat.mul_assoc]
  unfold pooling2d Planes.ofShape?
  simp only [inputSizes, outSizes, Shape.count, Shape.isStorable]
  by_cases countable : out.isCountable = true
  · simp only [countable, if_true, bind_ok, count, full, Nat.lt_irrefl, or_self, if_false,
      tabulate_eq_ok, Bool.true_and]
    refine and_congr_right fun _ => ?_
    rw [map_range_mul]
    refine iff_of_eq (congrArg _ (List.flatMap_congr fun plane member => ?_))
    rw [map_range_mul]
    refine List.flatMap_congr fun row memberRow => List.map_congr_left fun column memberColumn => ?_
    obtain ⟨atPlane, atRow, atColumn⟩ :=
      @divMod_planes plane _ _ _ _ (List.mem_range.mp memberRow) (List.mem_range.mp memberColumn)
    rw [atPlane, atRow, atColumn, if_pos (List.mem_range.mp member)]
  · simp [countable, bind, Except.bind]

/-- A pair of windows that the kernel cannot take: it covers rows but starts right of the plane, or
the number of its padded positions is no signed word. -/
def WindowStuck (rows columns : Sweep) (vertical horizontal : Reach) : Prop :=
  (vertical.first < vertical.last rows.extent ∧ (columns.extent : Int) < horizontal.start) ∨
    ¬(-Capacity.signedLimit ≤ vertical.padded * horizontal.padded ∧
      vertical.padded * horizontal.padded < Capacity.signedLimit)

theorem last_le (reach : Reach) (extent : Nat) : reach.last extent ≤ extent := by
  simp only [Reach.last]
  omega

/-- A window ends left of its start only where it starts right of the plane. -/
theorem last_lt_first_iff {sweep : Sweep} {position : Nat} :
    (sweep.reach position).last sweep.extent < (sweep.reach position).first ↔
      (sweep.extent : Int) < (sweep.reach position).start := by
  simp only [Sweep.reach, Reach.last, Reach.first]
  omega

theorem windowValues_total {data : Array Float32} {rows columns : Sweep}
    {vertical horizontal : Reach} {plane : Nat}
    (full : (plane + 1) * (rows.extent * columns.extent) ≤ data.size)
    (reachable : ¬(vertical.first < vertical.last rows.extent ∧
      horizontal.last columns.extent < horizontal.first)) :
    ∃ values, windowValues data (plane * (rows.extent * columns.extent)) rows columns vertical
      horizontal = .ok values := by
  unfold windowValues
  simp only [Nat.sub_pos_iff_lt, reachable, if_false, mapM_eq_ok]
  apply exists_map_ok.mpr
  intro outcome member
  obtain ⟨index, taken, rfl⟩ := List.mem_map.mp member
  obtain ⟨y, rowMember, taken⟩ := List.mem_flatMap.mp taken
  obtain ⟨x, columnMember, rfl⟩ := List.mem_map.mp taken
  have below : vertical.first + y < rows.extent := by
    have inside := List.mem_range.mp rowMember
    have last := last_le vertical rows.extent
    omega
  have inside : horizontal.first + x < columns.extent := by
    have inside := List.mem_range.mp columnMember
    have last := last_le horizontal columns.extent
    omega
  have within := position_lt below inside
  have next : (plane + 1) * (rows.extent * columns.extent) =
      plane * (rows.extent * columns.extent) + rows.extent * columns.extent := Nat.succ_mul _ _
  exact fetch_total (by omega)

theorem poolingOutput_total_iff {pooling : Pooling} {data : Array Float32} {rows columns : Sweep}
    {plane row column : Nat} (full : (plane + 1) * (rows.extent * columns.extent) ≤ data.size) :
    (∃ value, poolingOutput pooling data rows columns plane row column = .ok value) ↔
      ¬WindowStuck rows columns (rows.reach row) (columns.reach column) := by
  unfold WindowStuck
  rw [not_or, not_not, ← last_lt_first_iff]
  constructor
  · rintro ⟨value, computed⟩
    obtain ⟨padded, values, counted, read, _⟩ := poolingOutput_eq_ok.mp computed
    exact ⟨(windowValues_eq_ok.mp read).1, (paddedCount_eq_ok.mp counted).1⟩
  · rintro ⟨reachable, word⟩
    obtain ⟨values, read⟩ := windowValues_total full reachable
    exact ⟨_, poolingOutput_eq_ok.mpr ⟨_, values, paddedCount_eq_ok.mpr ⟨word, rfl⟩, read, rfl⟩⟩

/-- The output values of a plane need a pair of windows that the kernel cannot take. -/
def PoolingStuck (pooling : Pooling) (height width rows columns : Nat) : Prop :=
  ∃ row < rows, ∃ column < columns,
    WindowStuck (sweeps pooling height width).1 (sweeps pooling height width).2
      ((sweeps pooling height width).1.reach row) ((sweeps pooling height width).2.reach column)

theorem extents_sweeps (pooling : Pooling) (height width : Nat) :
    (sweeps pooling height width).1.extent = height ∧
      (sweeps pooling height width).2.extent = width := by
  unfold sweeps
  split <;> exact ⟨rfl, rfl⟩

variable {pooling : Pooling} {input : View} {out : Shape}
  {batch channels height width rows columns : Nat}

theorem size_pooling2d {result : Array Float32}
    (inputSizes : input.shape.sizes = [batch, channels, height, width])
    (outSizes : out.sizes = [batch, channels, rows, columns])
    (full : input.data.size = batch * channels * (height * width))
    (pooled : pooling2d pooling input out = .ok result) : result.size = out.elementCount := by
  obtain ⟨_, same⟩ := (pooling2d_eq_ok inputSizes outSizes full).mp pooled
  have lengths := congrArg List.length same
  rw [List.length_map, Array.length_toList, length_flatMap_range fun _ _ =>
    length_flatMap_range fun _ _ => List.length_map ..] at lengths
  simpa [Shape.elementCount, outSizes, Nat.mul_assoc] using lengths

/-- Pooling gets stuck where a plane needs windows that it cannot take, and nowhere else. -/
theorem pooling2d_total_iff (inputSizes : input.shape.sizes = [batch, channels, height, width])
    (outSizes : out.sizes = [batch, channels, rows, columns])
    (full : input.data.size = batch * channels * (height * width))
    (storable : out.isStorable = true) :
    (∃ result, pooling2d pooling input out = .ok result) ↔
      ¬(batch * channels ≠ 0 ∧ PoolingStuck pooling height width rows columns) := by
  obtain ⟨tall, wide⟩ := extents_sweeps pooling height width
  have outputs : ∀ plane < batch * channels, ∀ row column,
      (∃ value, poolingOutput pooling input.data (sweeps pooling height width).1
        (sweeps pooling height width).2 plane row column = .ok value) ↔
      ¬WindowStuck (sweeps pooling height width).1 (sweeps pooling height width).2
        ((sweeps pooling height width).1.reach row)
        ((sweeps pooling height width).2.reach column) := by
    intro plane inside row column
    refine poolingOutput_total_iff ?_
    rw [tall, wide, full]
    exact Nat.mul_le_mul_right _ inside
  have each : (∃ result, pooling2d pooling input out = .ok result) ↔
      ∀ plane < batch * channels, ∀ row < rows, ∀ column < columns, ∃ value,
        poolingOutput pooling input.data (sweeps pooling height width).1
          (sweeps pooling height width).2 plane row column = .ok value := by
    rw [exists_congr fun _ => pooling2d_eq_ok inputSizes outSizes full, exists_and_left,
      exists_toList_map_ok]
    simp only [storable, true_and, List.forall_mem_flatMap, List.forall_mem_map, List.mem_range]
  rw [each]
  constructor
  · rintro all ⟨occupied, row, below, column, inside, stuck⟩
    have plane := Nat.pos_of_ne_zero occupied
    exact (outputs 0 plane row column).mp (all 0 plane row below column inside) stuck
  · intro free plane within row below column inside
    apply (outputs plane within row column).mpr
    intro stuck
    exact free ⟨Nat.ne_zero_of_lt within, row, below, column, inside, stuck⟩

end NeuralGraph.Reference
