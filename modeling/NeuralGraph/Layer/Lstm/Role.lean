/-! The constant operands of an LSTM cell, by the part each one plays. -/

namespace NeuralGraph.Lstm

inductive Role where
  | inputToInputWeights
  | inputToForgetWeights
  | inputToCellWeights
  | inputToOutputWeights
  | recurrentToInputWeights
  | recurrentToForgetWeights
  | recurrentToCellWeights
  | recurrentToOutputWeights
  | cellToInputWeights
  | cellToForgetWeights
  | cellToOutputWeights
  | inputGateBias
  | forgetGateBias
  | cellBias
  | outputGateBias
  | projectionWeights
  | projectionBias
deriving DecidableEq

namespace Role

/-- The roles that every cell fills. -/
def basic : List Role :=
  [inputToForgetWeights, inputToCellWeights, inputToOutputWeights,
   recurrentToForgetWeights, recurrentToCellWeights, recurrentToOutputWeights,
   forgetGateBias, cellBias, outputGateBias]

/-- The roles that a cell may leave empty. -/
def optional : List Role :=
  [inputToInputWeights, recurrentToInputWeights, cellToInputWeights, inputGateBias,
   projectionWeights, projectionBias, cellToForgetWeights, cellToOutputWeights]

/-- Every role, the basic ones first. -/
def all : List Role := basic ++ optional

/-- Every role, by what it is applied to. -/
def byOperand : List Role :=
  [inputToInputWeights, inputToForgetWeights, inputToCellWeights, inputToOutputWeights,
   recurrentToInputWeights, recurrentToForgetWeights, recurrentToCellWeights,
   recurrentToOutputWeights, cellToInputWeights, cellToForgetWeights, cellToOutputWeights,
   inputGateBias, forgetGateBias, cellBias, outputGateBias, projectionWeights, projectionBias]

def name : Role → String
  | inputToInputWeights => "InputToInputWeights"
  | inputToForgetWeights => "InputToForgetWeights"
  | inputToCellWeights => "InputToCellWeights"
  | inputToOutputWeights => "InputToOutputWeights"
  | recurrentToInputWeights => "RecurrentToInputWeights"
  | recurrentToForgetWeights => "RecurrentToForgetWeights"
  | recurrentToCellWeights => "RecurrentToCellWeights"
  | recurrentToOutputWeights => "RecurrentToOutputWeights"
  | cellToInputWeights => "CellToInputWeights"
  | cellToForgetWeights => "CellToForgetWeights"
  | cellToOutputWeights => "CellToOutputWeights"
  | inputGateBias => "InputGateBias"
  | forgetGateBias => "ForgetGateBias"
  | cellBias => "CellBias"
  | outputGateBias => "OutputGateBias"
  | projectionWeights => "ProjectionWeights"
  | projectionBias => "ProjectionBias"

/-- The spelling of a role in model descriptions. -/
def label : Role → String
  | inputToInputWeights => "input_to_input_weights"
  | inputToForgetWeights => "input_to_forget_weights"
  | inputToCellWeights => "input_to_cell_weights"
  | inputToOutputWeights => "input_to_output_weights"
  | recurrentToInputWeights => "recurrent_to_input_weights"
  | recurrentToForgetWeights => "recurrent_to_forget_weights"
  | recurrentToCellWeights => "recurrent_to_cell_weights"
  | recurrentToOutputWeights => "recurrent_to_output_weights"
  | cellToInputWeights => "cell_to_input_weights"
  | cellToForgetWeights => "cell_to_forget_weights"
  | cellToOutputWeights => "cell_to_output_weights"
  | inputGateBias => "input_gate_bias"
  | forgetGateBias => "forget_gate_bias"
  | cellBias => "cell_bias"
  | outputGateBias => "output_gate_bias"
  | projectionWeights => "projection_weights"
  | projectionBias => "projection_bias"

def ofLabel? (text : String) : Option Role := all.find? (·.label == text)

end Role

end NeuralGraph.Lstm
