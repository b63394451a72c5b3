import NeuralGraph.Network.Load

/-! A device with at most one network on it. -/

namespace NeuralGraph

structure Session where
  device : Device := {}
  network : Option Network := none

namespace Session

/-- Ends the loaded network. -/
def unload (session : Session) : Session :=
  match session.network with
  | none => session
  | some network => { device := network.release session.device }

/-- Loads a graph in place of what was loaded. Without memory for its slots every slot gets
zeroed host memory; the report tells what loading did. -/
def load (session : Session) (graph : Graph) (registry : Registry)
    (memory : Option (TensorHandles × HostMemory)) : Session × LoadReport :=
  let device := session.unload.device
  let report :=
    match memory with
    | none => Network.loadOnHost graph registry device
    | some (handles, host) => Network.load graph registry handles { device with host }
  ({ device := report.device, network := report.outcome.toOption }, report)

/-- Runs the loaded network, and tells which layers ran. -/
def execute? (session : Session) : Option (Session × Except Error Unit × List LoadedLayer) :=
  session.network.map fun network =>
    let (device, result, ran) := network.execute session.device
    ({ session with device }, result, ran)

/-- Fills host memory. -/
def write (session : Session) (handle : Handle) (data : Array Float32) :
    Except Error Session := do
  let host ← session.device.host.copyFrom handle data
  return { session with device := { session.device with host } }

end Session

end NeuralGraph
