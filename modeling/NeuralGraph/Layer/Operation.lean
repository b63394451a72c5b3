/-! The kinds of operation a layer can perform, without their parameters. -/

namespace NeuralGraph

inductive Operation where
  | input
  | output
  | activation
  | softmax
  | addition
  | fullyConnected
  | convolution2d
  | pooling2d
  | lstm
deriving DecidableEq

namespace Operation

def name : Operation → String
  | input => "Input"
  | output => "Output"
  | activation => "Activation"
  | softmax => "Softmax"
  | addition => "Addition"
  | fullyConnected => "FullyConnected"
  | convolution2d => "Convolution2d"
  | pooling2d => "Pooling2d"
  | lstm => "Lstm"

instance : ToString Operation := ⟨name⟩

end Operation

end NeuralGraph
