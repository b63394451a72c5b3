import Mathlib.Data.List.Basic
import NeuralGraph.Proofs.Outcome
import NeuralGraph.Proofs.Tensor.RowMajor
import NeuralGraph.Reference.View

/-! Buffers by position. A buffer that is computed value by value succeeds as a whole, and cutting
a buffer into rows keeps the order of its positions. -/

namespace NeuralGraph

/-- Positions of a matrix, row by row. -/
theorem map_range_mul {α : Type} (rows columns : Nat) (value : Nat → α) :
    (List.range (rows * columns)).map value =
      (List.range rows).flatMap fun row =>
        (List.range columns).map fun column => value (row * columns + column) := by
  induction rows with
  | zero => simp
  | succ rows ih =>
    rw [Nat.succ_mul, List.range_add, List.map_append, ih, List.range_succ, List.flatMap_append]
    simp [Function.comp_def]

/-- Rows of one width. -/
theorem length_flatMap_range {α : Type} {rows width : Nat} {row : Nat → List α}
    (each : ∀ index < rows, (row index).length = width) :
    ((List.range rows).flatMap row).length = rows * width := by
  have lengths : (List.range rows).map (fun index => (row index).length) =
      (List.range rows).map fun _ => width :=
    List.map_congr_left fun index member => each index (List.mem_range.mp member)
  rw [List.length_flatMap, lengths]
  simp

/-- A position in rows of one width stands in its row. -/
theorem getElem?_flatMap_range {α : Type} {rows width index offset : Nat} {row : Nat → List α}
    (each : ∀ index < rows, (row index).length = width) (below : index < rows)
    (inside : offset < width) :
    ((List.range rows).flatMap row)[index * width + offset]? = (row index)[offset]? := by
  induction rows with
  | zero => exact absurd below (Nat.not_lt_zero index)
  | succ rows ih =>
    have before : ∀ index < rows, (row index).length = width :=
      fun index earlier => each index (Nat.lt_succ_of_lt earlier)
    have length := length_flatMap_range before
    rw [List.range_succ, List.flatMap_append, List.flatMap_singleton]
    rcases Nat.lt_succ_iff_lt_or_eq.mp below with earlier | rfl
    · rw [List.getElem?_append_left (length ▸ position_lt earlier inside), ih before earlier]
    · rw [List.getElem?_append_right (length ▸ Nat.le_add_right _ _), length,
        Nat.add_sub_cancel_left]

/-- The value at a position of a plane. -/
theorem getElem?_planes {α : Type} {planes rows columns plane row column : Nat}
    (value : Nat → Nat → Nat → α) (within : plane < planes) (below : row < rows)
    (inside : column < columns) :
    ((List.range planes).flatMap fun plane => (List.range rows).flatMap fun row =>
        (List.range columns).map fun column =>
          value plane row column)[plane * (rows * columns) + (row * columns + column)]? =
      some (value plane row column) := by
  have length : ∀ plane row, ((List.range columns).map fun column =>
      value plane row column).length = columns := fun _ _ => by simp
  rw [getElem?_flatMap_range (fun plane _ => length_flatMap_range fun row _ => length plane row)
      within (position_lt below inside),
    getElem?_flatMap_range (fun row _ => length plane row) below inside, List.getElem?_map,
    List.getElem?_range inside, Option.map_some]

/-- A position in a plane of a batch, taken apart. -/
theorem divMod_planes {plane row column rows columns : Nat} (below : row < rows)
    (inside : column < columns) :
    (plane * (rows * columns) + (row * columns + column)) / (rows * columns) = plane ∧
      (plane * (rows * columns) + (row * columns + column)) / columns % rows = row ∧
      (plane * (rows * columns) + (row * columns + column)) % columns = column := by
  have within := position_lt below inside
  have rowMajor : plane * (rows * columns) + (row * columns + column) =
      (plane * rows + row) * columns + column := by
    rw [Nat.add_mul, Nat.mul_assoc, Nat.add_assoc]
  refine ⟨(divMod_position within).1, ?_, ?_⟩
  · rw [rowMajor, (divMod_position inside).1, (divMod_position below).2]
  · rw [rowMajor, (divMod_position inside).2]

/-- A slice reads the positions that it covers. -/
theorem map_some_extract {α : Type} {data : Array α} {start stop : Nat}
    (inside : stop ≤ data.size) :
    (data.extract start stop).toList.map some =
      (List.range (stop - start)).map fun index => data[start + index]? := by
  apply List.ext_getElem?
  intro index
  simp only [List.getElem?_map, Array.getElem?_toList, Array.getElem?_extract,
    Nat.min_eq_left inside]
  by_cases within : index < stop - start
  · have there : start + index < data.size := by omega
    simp [within, there]
  · simp [within]

namespace Reference

theorem fetch_eq_ok {data : Array Float32} {index : Nat} {value : Float32} :
    fetch data index = .ok value ↔ data[index]? = some value := by
  unfold fetch
  cases data[index]? <;> simp

theorem foldPositions_congr {α : Type} {step other : α → Nat → Except Error α} {start count : Nat}
    (same : ∀ value position, start ≤ position → position < start + count →
      step value position = other value position) (value : α) :
    foldPositions step start count value = foldPositions other start count value := by
  induction count generalizing start value with
  | zero => rfl
  | succ count ih =>
    rw [foldPositions, foldPositions, same value start (Nat.le_refl _) (by omega)]
    cases other value start with
    | error error => rfl
    | ok next =>
      exact ih (fun value position after before => same value position (by omega) (by omega)) next

theorem foldPositions_add {α : Type} (step : α → Nat → Except Error α) (start first rest : Nat)
    (value : α) : foldPositions step start (first + rest) value =
      foldPositions step start first value >>= foldPositions step (start + first) rest := by
  simp only [foldPositions_eq_foldlM, funext fun value =>
    foldPositions_eq_foldlM step (start + first) rest value]
  rw [← List.range'_append_1, List.foldlM_append]

theorem foldPositions_shift {α : Type} (step : α → Nat → Except Error α) (offset count : Nat)
    (value : α) : foldPositions step offset count value =
      foldPositions (fun value position => step value (offset + position)) 0 count value := by
  simp only [foldPositions_eq_foldlM]
  rw [List.range'_eq_map_range, List.range'_eq_map_range, List.foldlM_map, List.foldlM_map]
  simp

/-- A loop over the positions of a matrix is a loop over its rows, and in each over its columns. -/
theorem foldPositions_mul {α : Type} (step : α → Nat → Except Error α) (rows columns : Nat)
    (value : α) : foldPositions step 0 (rows * columns) value =
      foldPositions (fun value row =>
        foldPositions (fun value column => step value (row * columns + column)) 0 columns value)
        0 rows value := by
  induction rows with
  | zero => simp [foldPositions]
  | succ rows ih =>
    rw [Nat.succ_mul, foldPositions_add, ih, foldPositions_add]
    refine congrArg _ (funext fun value => ?_)
    rw [foldPositions_shift, Nat.zero_add]
    simp only [foldPositions, Nat.zero_add]
    split <;> simp_all

theorem accumulate_congr {start : Float32} {count : Nat} {term other : Nat → Except Error Float32}
    (same : ∀ index < count, term index = other index) :
    accumulate start count term = accumulate start count other :=
  foldPositions_congr (fun sum index _ below => by rw [same index (by omega)]) start

private theorem foldPositions_push_eq_ok {value : Nat → Except Error Float32} {start count : Nat}
    {before result : Array Float32} :
    foldPositions (fun values index => do return values.push (← value index)) start count before =
        .ok result ↔
      ∃ later : List Float32, result = before ++ later.toArray ∧
        later.map Except.ok = (List.range' start count).map value := by
  induction count generalizing start before with
  | zero => simp [foldPositions, eq_comm]
  | succ count ih =>
    rw [foldPositions, List.range'_succ, List.map_cons]
    cases computed : value start with
    | error error =>
      simp only [bind, Except.bind, reduceCtorEq, false_iff, not_exists, not_and]
      intro later _ same
      cases later <;> simp at same
    | ok first =>
      change foldPositions _ (start + 1) count (before.push first) = _ ↔ _
      rw [ih]
      constructor
      · rintro ⟨later, rfl, same⟩
        exact ⟨first :: later, by simp, by simp [same]⟩
      · rintro ⟨later, rfl, same⟩
        obtain ⟨_, rest, rfl, head, tail⟩ := List.map_eq_cons_iff.mp same
        cases head
        exact ⟨rest, by simp, tail⟩

/-- A buffer is computed exactly when memory can hold it and each of its values is computed. -/
theorem tabulate_eq_ok {count : Nat} {value : Nat → Except Error Float32}
    {result : Array Float32} :
    tabulate count value = .ok result ↔ Capacity.fitsBuffer count = true ∧
      result.toList.map Except.ok = (List.range count).map value := by
  unfold tabulate
  by_cases fits : Capacity.fitsBuffer count = true
  · rw [if_pos fits, foldPositions_push_eq_ok, List.range_eq_range']
    constructor
    · rintro ⟨values, rfl, same⟩
      exact ⟨fits, by simpa using same⟩
    · rintro ⟨_, same⟩
      exact ⟨result.toList, by simp, same⟩
  · simp [fits]

/-- A buffer holds outcomes when each of them gives a value. -/
theorem exists_toList_map_ok {outcomes : List (Except Error Float32)} :
    (∃ result : Array Float32, result.toList.map Except.ok = outcomes) ↔
      ∀ outcome ∈ outcomes, ∃ value, outcome = .ok value := by
  rw [← exists_map_ok]
  constructor
  · rintro ⟨result, same⟩
    exact ⟨result.toList, same⟩
  · rintro ⟨values, same⟩
    exact ⟨values.toArray, same⟩

theorem tabulate_congr {count : Nat} {value other : Nat → Except Error Float32}
    (same : ∀ index < count, value index = other index) :
    tabulate count value = tabulate count other := by
  unfold tabulate
  refine congrArg (if Capacity.fitsBuffer count then · else _) ?_
  refine foldPositions_congr (fun values index _ below => ?_) #[]
  rw [same index (by omega)]

theorem size_tabulate {count : Nat} {value : Nat → Except Error Float32} {result : Array Float32}
    (computed : tabulate count value = .ok result) : result.size = count := by
  simpa using congrArg List.length (tabulate_eq_ok.mp computed).2

/-- A buffer of outcomes holds at each position the value of the outcome there. -/
theorem getElem?_of_outcomes {result : Array Float32} {outcomes : List (Except Error Float32)}
    {index : Nat} {outcome : Except Error Float32}
    (same : result.toList.map Except.ok = outcomes) (there : outcomes[index]? = some outcome) :
    ∃ value, outcome = .ok value ∧ result[index]? = some value := by
  rw [← same, List.getElem?_map, Array.getElem?_toList] at there
  obtain ⟨value, held, rfl⟩ := Option.map_eq_some_iff.mp there
  exact ⟨value, rfl, held⟩

/-- A buffer that has been computed holds at each position what is computed for it. -/
theorem getElem?_of_tabulate {count index : Nat} {value : Nat → Except Error Float32}
    {result : Array Float32} (computed : tabulate count value = .ok result)
    (inside : index < count) :
    ∃ number, value index = .ok number ∧ result[index]? = some number := by
  refine getElem?_of_outcomes (tabulate_eq_ok.mp computed).2 ?_
  rw [List.getElem?_map, List.getElem?_range inside, Option.map_some]

/-- A buffer whose values can all be computed. -/
theorem tabulate_total {count : Nat} {value : Nat → Except Error Float32}
    (fits : Capacity.fitsBuffer count = true)
    (each : ∀ index < count, ∃ number, value index = .ok number) :
    ∃ result, tabulate count value = .ok result ∧ result.size = count := by
  obtain ⟨result, same⟩ : ∃ result : Array Float32,
      result.toList.map Except.ok = (List.range count).map value :=
    exists_toList_map_ok.mpr (by simpa using each)
  have computed := tabulate_eq_ok.mpr ⟨fits, same⟩
  exact ⟨result, computed, size_tabulate computed⟩

theorem fetch_total {data : Array Float32} {index : Nat} (inside : index < data.size) :
    ∃ value, fetch data index = .ok value :=
  ⟨data[index], fetch_eq_ok.mpr (Array.getElem?_eq_getElem inside)⟩

/-- A value gets through all positions when it gets through each of them, whatever it is. -/
theorem foldPositions_total {α : Type} {step : α → Nat → Except Error α} {start count : Nat}
    (steps : ∀ value position, start ≤ position → position < start + count →
      ∃ next, step value position = .ok next) (value : α) :
    ∃ result, foldPositions step start count value = .ok result := by
  induction count generalizing start value with
  | zero => exact ⟨value, rfl⟩
  | succ count ih =>
    obtain ⟨next, stepped⟩ := steps value start (Nat.le_refl start) (by omega)
    rw [foldPositions, stepped]
    exact ih (fun value position after before => steps value position (by omega) (by omega)) next

end Reference

end NeuralGraph
