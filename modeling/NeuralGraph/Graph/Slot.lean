import NeuralGraph.Tensor.Info

/-! Layer ids and the slots that edges run between. -/

namespace NeuralGraph

/-- The identity of a layer within one graph. -/
abbrev LayerId := Nat

/-- An output slot, by its layer and its position. -/
structure OutputRef where
  layer : LayerId
  index : Nat
deriving DecidableEq, Inhabited

/-- An input slot, by its layer and its position. -/
structure InputRef where
  layer : LayerId
  index : Nat
deriving DecidableEq, Inhabited

/-- An input slot knows the output slot that feeds it. -/
structure InputSlot where
  source : Option OutputRef := none
deriving DecidableEq, Inhabited

/-- An output slot carries its descriptor and its readers, in connection order. -/
structure OutputSlot where
  info : Option TensorInfo := none
  consumers : List InputRef := []
deriving Inhabited

end NeuralGraph
