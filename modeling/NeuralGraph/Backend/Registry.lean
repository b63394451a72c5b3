import NeuralGraph.Backend.Basic

/-! The registered backends in the order in which they are tried. -/

namespace NeuralGraph

structure Registry where
  backends : List Backend := []

namespace Registry

def empty : Registry := {}

/-- The ids in the order of preference. -/
def preference (registry : Registry) : List BackendId := registry.backends.map (·.id)

def find? (registry : Registry) (id : BackendId) : Option Backend :=
  registry.backends.find? (·.id == id)

/-- Adds a backend at the end. A backend of the same id is replaced where it stands. -/
def register (registry : Registry) (backend : Backend) : Registry :=
  match registry.find? backend.id with
  | none => { backends := registry.backends ++ [backend] }
  | some _ =>
    { backends := registry.backends.map fun old => if old.id = backend.id then backend else old }

/-- Moves the listed backends to the front, in the order of their first mention; the others
follow in the order they had. Unknown ids mean nothing. -/
def prefer (registry : Registry) (order : List BackendId) : Registry where
  backends :=
    order.eraseDups.filterMap registry.find? ++
      registry.backends.filter fun backend => !order.contains backend.id

end Registry

end NeuralGraph
