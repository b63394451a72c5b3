/-! Single-precision rules that every kernel shares: how extremes treat NaN, how sums run,
and the logistic curve. -/

namespace NeuralGraph.Scalar

/-- The start of every running maximum. -/
def negInfinity : Float32 := Float32.ofBits 0xff800000

/-- The larger operand; a NaN gives way to the other operand. -/
def max (a b : Float32) : Float32 := if a.isNaN || a < b then b else a

/-- The smaller operand; a NaN gives way to the other operand. -/
def min (a b : Float32) : Float32 := if a.isNaN || b < a then b else a

/-- Moves a value into `[low, high]`; a NaN stays a NaN. -/
def clamp (low high x : Float32) : Float32 :=
  if x < low then low else if high < x then high else x

/-- Limits a value to `[-threshold, threshold]`; a threshold that is not positive is off. -/
def clip (threshold x : Float32) : Float32 :=
  if 0 < threshold then clamp (-threshold) threshold x else x

def sigmoid (x : Float32) : Float32 := 1 / (1 + (-x).exp)

/-- The sum from left to right. That it starts at zero is a choice of the model: a running sum may
as well start at negative zero, and the two results then differ at most in the sign of a zero. -/
def sum (values : List Float32) : Float32 := values.foldl (· + ·) 0

/-- The largest value, from left to right; an empty list gives minus infinity. -/
def maximum (values : List Float32) : Float32 := values.foldl max negInfinity

/-- The products of paired entries, summed from left to right. -/
def dot (row x : List Float32) : Float32 := sum (List.zipWith (· * ·) row x)

end NeuralGraph.Scalar
