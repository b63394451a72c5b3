import NeuralGraph.Accelerator.Bench
import NeuralGraph.Accelerator.OperandTable
import NeuralGraph.Backend.Stub
import NeuralGraph.Backend.Trial
import NeuralGraph.Engine.Config
import NeuralGraph.Graph.Edit
import NeuralGraph.Network.Session
import NeuralGraph.Reference.Backend
import NeuralGraph.Tensor.ConstantTable
import NeuralGraph.Tensor.Fill
import NeuralGraph.Proofs.Network.HostRun
import NeuralGraph.Proofs.Graph.Splice
import NeuralGraph.Proofs.Graph.Agreement
import NeuralGraph.Proofs.Graph.Schedule
import NeuralGraph.Proofs.Network.Loading
import NeuralGraph.Proofs.Memory.Host
import NeuralGraph.Proofs.Network.Handles
import NeuralGraph.Proofs.Graph.Validation
import NeuralGraph.Proofs.Layer.Inference
import NeuralGraph.Proofs.Network.Compiled
import NeuralGraph.Proofs.Backend.Descriptor
import NeuralGraph.Proofs.Reference.Execution
import NeuralGraph.Proofs.Network.Evaluation
import NeuralGraph.Proofs.Reference.View
import NeuralGraph.Proofs.Accelerator.Elementwise
import NeuralGraph.Proofs.Accelerator.Pooling
import NeuralGraph.Proofs.Accelerator.Weights
import NeuralGraph.Proofs.Reference.Lstm
import NeuralGraph.Proofs.Accelerator.Lstm
import NeuralGraph.Proofs.Accelerator.Backend
import NeuralGraph.Proofs.Network.Backends
import NeuralGraph.Proofs.Tensor.RowMajor
import NeuralGraph.Proofs.Reference.Elementwise
import NeuralGraph.Proofs.Reference.Weights
import NeuralGraph.Proofs.Reference.Progress
import NeuralGraph.Proofs.Accelerator.Progress
import NeuralGraph.Proofs.Network.Progress
import NeuralGraph.Proofs.Graph.Inference
import NeuralGraph.Proofs.Graph.Truthful
import NeuralGraph.Proofs.Graph.Staleness
import NeuralGraph.Proofs.Accelerator.Construction
import NeuralGraph.Proofs.Accelerator.Equivalence
import NeuralGraph.Proofs.Memory.Accounts
import NeuralGraph.Proofs.Accelerator.Retention
import NeuralGraph.Proofs.Accelerator.Failure
import NeuralGraph.Proofs.Accelerator.Workshop
import NeuralGraph.Proofs.Network.Protocol
import NeuralGraph.Proofs.Accelerator.Capability
import NeuralGraph.Proofs.Graph.Slots
import NeuralGraph.Proofs.Graph.Store
import NeuralGraph.Proofs.Network.Binding
import NeuralGraph.Proofs.Graph.InPlace
import NeuralGraph.Proofs.Graph.Refusals
import NeuralGraph.Proofs.Graph.StoreHistory
import NeuralGraph.Proofs.Tensor.SharedMemory
import NeuralGraph.Proofs.Accelerator.Holdings
import NeuralGraph.Proofs.Network.Ends
import NeuralGraph.Proofs.Reference.Failure
import NeuralGraph.Proofs.Graph.Connection
import NeuralGraph.Proofs.Graph.Countdown
import NeuralGraph.Proofs.Reference.Flattening
import NeuralGraph.Proofs.Reference.Batching
import NeuralGraph.Proofs.Reference.Broadcast
import NeuralGraph.Proofs.Layer.Window
import NeuralGraph.Proofs.Reference.PooledWindow
import NeuralGraph.Proofs.Reference.Correlation
import NeuralGraph.Proofs.Reference.Striding
import NeuralGraph.Proofs.Layer.WindowCount
import NeuralGraph.Proofs.Graph.Confluence
import NeuralGraph.Proofs.Graph.Insertion
import NeuralGraph.Proofs.Tensor.Broadcast
import NeuralGraph.Proofs.Backend.Registry
import NeuralGraph.Proofs.Graph.Undo
import NeuralGraph.Proofs.Layer.Influence
import NeuralGraph.Proofs.Reference.Influence
import NeuralGraph.Proofs.Accelerator.Influence
import NeuralGraph.Proofs.Accelerator.DisabledGroups
import NeuralGraph.Proofs.Layer.Dense
