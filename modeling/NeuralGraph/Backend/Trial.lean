import NeuralGraph.Backend.Basic

/-! One workload through its whole life, with a view of the device at each stage. -/

namespace NeuralGraph

/-- What the runs of a workload did, and the device before them, after them and after the
release. -/
structure Trial where
  runs : List (Except Error Unit × HostMemory)
  created : Device
  finished : Device
  released : Device

/-- Runs a workload a number of times; a failed run does not stop the next. -/
def Workload.runTimes (workload : Workload) :
    Nat → Device → List (Except Error Unit × HostMemory) × Device
  | 0, device => ([], device)
  | count + 1, device =>
    let (after, result) := workload.execute device
    let (rest, final) := workload.runTimes count after
    ((result, after.host) :: rest, final)

/-- Runs a fresh workload a number of times and releases it. -/
def Workload.trial (workload : Workload) (count : Nat) (device : Device) : Trial :=
  let (runs, finished) := workload.runTimes count device
  { runs, created := device, finished, released := workload.release finished }

end NeuralGraph
