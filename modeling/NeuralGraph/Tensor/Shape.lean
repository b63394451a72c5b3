/-! Shapes: ordered lists of 32-bit extents, their element counts and their broadcasts. -/

namespace NeuralGraph

/-- The size of one axis. -/
abbrev Extent := UInt32

/-- The extent with the given value, if it fits. -/
def Extent.ofNat? (value : Nat) : Option Extent :=
  if value < UInt32.size then some (UInt32.ofNat value) else none

/-- An ordered list of extents; the empty list is the shape of a scalar. -/
structure Shape where
  extents : List Extent
deriving DecidableEq, Inhabited

namespace Shape

def rank (shape : Shape) : Nat := shape.extents.length

/-- The extents as unbounded numbers. -/
def sizes (shape : Shape) : List Nat := shape.extents.map UInt32.toNat

/-- The product of sizes; the empty product is one. -/
def volume (sizes : List Nat) : Nat := sizes.foldr (· * ·) 1

/-- The number of elements that a tensor of this shape holds. -/
def elementCount (shape : Shape) : Nat := volume shape.sizes

def dim? (shape : Shape) (axis : Nat) : Option Extent := shape.extents[axis]?

/-- One axis of a broadcast: equal extents agree, and an extent of one stretches. -/
def stretch (a b : Extent) : Option Extent :=
  if a = b ∨ b = 1 then some a
  else if a = 1 then some b
  else none

/-- Joins extents listed from the last axis; axes that one side lacks are taken from the other. -/
def broadcastReversed : List Extent → List Extent → Option (List Extent)
  | [], others => some others
  | extents, [] => some extents
  | a :: extents, b :: others => do
    let extent ← stretch a b
    let rest ← broadcastReversed extents others
    return extent :: rest

/-- The smallest shape both operands stretch to when their last axes are aligned. -/
def broadcast (a b : Shape) : Option Shape :=
  (broadcastReversed a.extents.reverse b.extents.reverse).map fun extents => ⟨extents.reverse⟩

/-- Extents in brackets, separated by a comma and a blank. -/
def text (shape : Shape) : String :=
  "[" ++ ", ".intercalate (shape.sizes.map toString) ++ "]"

instance : ToString Shape := ⟨text⟩

end Shape

end NeuralGraph
