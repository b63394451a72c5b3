import NeuralGraph.Tensor.Capacity

/-! Row-major layout: the flat position of a list of coordinates, and the way back. -/

namespace NeuralGraph.RowMajor

/-- The coordinates of a flat position on these axes, behind what is left of it for the axes in
front. The last axis comes first, and nothing can be divided by an extent of zero. -/
def split? : List Nat → Nat → Option (Nat × List Nat)
  | [], flat => some (flat, [])
  | extent :: rest, flat => do
    let (left, coordinates) ← split? rest flat
    if extent = 0 then none else some (left / extent, left % extent :: coordinates)

/-- The coordinates at a flat position, first axis first. -/
def decode? (extents : List Nat) (flat : Nat) : Option (List Nat) :=
  (split? extents flat).map (·.2)

/-- The flat position of a list of coordinates. Every position on the way to it has to be a
machine word. -/
def encode? (extents coordinates : List Nat) : Option Nat :=
  (extents.zip coordinates).foldlM (fun position (extent, coordinate) =>
    let next := position * extent + coordinate
    if next < Capacity.wordLimit then some next else none) 0

end NeuralGraph.RowMajor
