import NeuralGraph.Memory.Host
import NeuralGraph.Memory.Staging

/-! The memory that workloads run on. -/

namespace NeuralGraph

structure Device where
  host : HostMemory := {}
  staging : Staging := {}
deriving Inhabited

end NeuralGraph
