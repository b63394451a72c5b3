import NeuralGraph.Backend.Basic

/-! Backends that compute nothing. A network loaded onto them shows what loading asks of a
backend. -/

namespace NeuralGraph.Backend

/-- Rejects some operations when asked for support, and refuses to build some of the others. -/
def stub (id : BackendId) (rejects refuses : Operation → Bool) : Backend where
  id := id
  supports := fun kind _ _ =>
    if rejects kind.operation then .unsupported s!"{kind.operation} not handled" else .supported
  create := fun descriptor _ device =>
    (device,
      if refuses descriptor.kind.operation then
        .error (.backend id s!"cannot build {descriptor.kind.operation}")
      else .ok { name := "Noop", execute := fun device => (device, .ok ()) })

end NeuralGraph.Backend
