import NeuralGraph.Tensor.Capacity

/-! What a kernel reads: values with a shape, and checked access to both. -/

namespace NeuralGraph.Reference

/-- The values of an input with the shape they are read in. -/
structure View where
  shape : Shape
  data : Array Float32

/-- Reads a value that has to be there. -/
def fetch (data : Array Float32) (index : Nat) : Except Error Float32 :=
  match data[index]? with
  | some value => .ok value
  | none => .error .outOfBounds

/-- Takes a value through a number of positions, from `start` on, up to the first that fails. -/
def foldPositions {α : Type} (step : α → Nat → Except Error α) :
    Nat → Nat → α → Except Error α
  | _, 0, value => .ok value
  | start, count + 1, value =>
    match step value start with
    | .error error => .error error
    | .ok next => foldPositions step (start + 1) count next

/-- Positions are taken in order, as from a list. -/
theorem foldPositions_eq_foldlM {α : Type} (step : α → Nat → Except Error α)
    (start count : Nat) (value : α) :
    foldPositions step start count value = (List.range' start count).foldlM step value := by
  induction count generalizing start value with
  | zero => rfl
  | succ count ih =>
    rw [List.range'_succ, List.foldlM_cons, foldPositions]
    cases step value start with
    | error error => rfl
    | ok next => exact ih (start + 1) next

/-- Computes the values of a buffer by position. -/
def tabulate (count : Nat) (value : Nat → Except Error Float32) :
    Except Error (Array Float32) :=
  if Capacity.fitsBuffer count then
    foldPositions (fun values index => do return values.push (← value index)) 0 count #[]
  else .error .outOfBounds

/-- Adds terms to a start value, from left to right. -/
def accumulate (start : Float32) (count : Nat) (term : Nat → Except Error Float32) :
    Except Error Float32 :=
  foldPositions (fun sum index => do return sum + (← term index)) 0 count start

end NeuralGraph.Reference
