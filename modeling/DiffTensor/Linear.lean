import DiffTensor.Graph.Operation
import DiffTensor.Random.Sampler

/-!
# Linear layers

A linear layer maps rows of `inputs` numbers to rows of `outputs` numbers: `x Wᵀ + b`,
with a weight of shape `[outputs, inputs]` and a bias of shape `[outputs]`. Both are
tracked leaves of the graph. A new layer draws them uniformly between `±1/√inputs`, the
weight first.

`Store.applyLinear` runs a layer as a single recorded operation on its input, weight
and bias.
-/

namespace DiffTensor

/-- A layer: its two parameters, and the sizes of the rows it maps (`LinearModule`). -/
structure Linear where
  weight : NodeId
  bias : NodeId
  inputs : Nat
  outputs : Nat
  deriving DecidableEq, Repr

namespace Linear

/-- The parameters, weight first. -/
def parameters (layer : Linear) : List NodeId := [layer.weight, layer.bias]

/-- The number of rows that an input of the given shape holds. A single row may come without a
dimension for rows. -/
def rows (inputs : Nat) (shape : List Nat) : Outcome Nat :=
  match shape with
  | [n] => if n = inputs then .ok 1 else refuse (.layerInput inputs shape)
  | [rows, n] => if n = inputs then .ok rows else refuse (.layerInput inputs shape)
  | _ => refuse (.layerRank shape)

variable {α : Type} [Scalar α]

/-- What a layer computes: the matrix of rows that it read, and the result. -/
def value (inputs outputs : Nat) (x weight bias : Buffer α) :
    Outcome (Buffer α × Buffer α) := do
  let rows ← rows inputs x.shape
  let matrix ← x.reshape [rows, inputs]
  let product ← matrix.product (← weight.transpose)
  let shape := if x.rank = 1 then [outputs] else [rows, outputs]
  return (matrix, ← (product.addRow bias outputs).reshape shape)

end Linear

namespace Store

variable {α : Type} [Scalar α]

/-- Makes a layer with random parameters (`new`). -/
def newLinear [Sampler α] (s : Store α) (stream : Stream) (inputs outputs : Nat) :
    Outcome (Linear × Store α × Stream) := do
  if inputs = 0 ∨ outputs = 0 then refuse (.layerFeatures inputs outputs)
  if Extent.wordLimit ≤ inputs * outputs then refuse (.layerWeights inputs outputs)
  let bound : α := 1 / Scalar.sqrt (Scalar.ofNat inputs)
  let (weight, stream) ← Sampler.uniforms [outputs, inputs] bound stream
  let (bias, stream) ← Sampler.uniforms [outputs] bound stream
  let (weight, s) := s.parameter weight
  let (bias, s) := s.parameter bias
  return ({ weight, bias, inputs, outputs }, s, stream)

/-- Runs a layer and records it (`forward`). -/
def applyLinear (s : Store α) (layer : Linear) (x : NodeId) : Outcome (NodeId × Store α) := do
  let weight := s.value layer.weight
  let (matrix, output) ← Linear.value layer.inputs layer.outputs (s.value x) weight
    (s.value layer.bias)
  return s.record output (.linear matrix weight (s.shape x)) [x, layer.weight, layer.bias]

end Store

end DiffTensor
