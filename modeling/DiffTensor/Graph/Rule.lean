import DiffTensor.Buffer.Broadcast
import DiffTensor.Buffer.Matrix

/-!
# Gradient rules

When an operation is recorded, what it needs later to carry a gradient back is kept
with it as a `Rule`: shapes, operands or the result, as they were when the operation
ran. `Rule.gradients` turns the gradient of the result into one gradient for each
input, in the order of the inputs.

A rule may also be given from outside (`custom`), under a name of its own. The others are the
`GradFn`s of the library, from `AddBackward` to `LinearBackward`.
-/

namespace DiffTensor

/-- How a recorded operation carries a gradient back to its inputs (`GradFn`). -/
inductive Rule (α : Type) where
  | add (left right : List Nat)
  | sub (left right : List Nat)
  | mul (left right : Buffer α)
  | matmul (left right : Buffer α)
  | transpose
  | relu (input : Buffer α)
  | sigmoid (output : Buffer α)
  /-- Every element of the input contributes `scale` times itself to the single result. -/
  | sum (input : List Nat) (scale : α)
  /-- A linear layer: the input as a matrix, the weight, and the input's own shape. -/
  | linear (input weight : Buffer α) (shape : List Nat)
  | custom (name : String) (act : Buffer α → Outcome (List (Buffer α)))

namespace Rule

variable {α : Type}

/-- The name of a rule in messages. -/
def name : Rule α → String
  | add .. => "AddBackward"
  | sub .. => "SubBackward"
  | mul .. => "MulBackward"
  | matmul .. => "MatMulBackward"
  | transpose => "TransposeBackward"
  | relu .. => "ReluBackward"
  | sigmoid .. => "SigmoidBackward"
  | sum .. => "SumBackward"
  | linear .. => "LinearBackward"
  | custom name _ => name

variable [Scalar α]

/-- The gradients of the input, the weight and the bias of a linear layer `x Wᵀ + b`: the matrices
`g W` and `gᵀ x`, and the column sums of `g` (`backward` of `LinearBackward`). -/
def linearGradients (input weight : Buffer α) (shape : List Nat) (g : Buffer α) :
    Outcome (List (Buffer α)) := do
  let rows := input.shape.headD 0
  let outputs := weight.shape.headD 0
  let g ← g.reshape [rows, outputs]
  let ofInput ← (← g.product weight).reshape shape
  let ofWeight ← (← g.transpose).product input
  return [ofInput, ofWeight, g.columnSums rows outputs]

/-- The gradients of the inputs, given the gradient `g` of the result (`backward` of a `GradFn`). -/
def gradients (g : Buffer α) : Rule α → Outcome (List (Buffer α))
  | add left right => do
    return [← g.reduce left, ← g.reduce right]
  | sub left right => do
    return [← g.reduce left, ← (g.map (-·)).reduce right]
  | mul left right => do
    let ofLeft ← g.combine "mul" right (· * ·)
    let ofRight ← g.combine "mul" left (· * ·)
    return [← ofLeft.reduce left.shape, ← ofRight.reduce right.shape]
  | matmul left right => do
    let ofLeft ← g.product (← right.transpose)
    let ofRight ← (← left.transpose).product g
    return [ofLeft, ofRight]
  | transpose => do
    return [← g.transpose]
  | relu input => do
    return [← Buffer.zipMap (fun g x => if Scalar.positive x then g else 0) g input]
  | sigmoid output => do
    return [← Buffer.zipMap (fun g y => g * y * (1 - y)) g output]
  | sum input scale => do
    return [← Buffer.full input (g.sum * scale)]
  | linear input weight shape => linearGradients input weight shape g
  | custom _ act => act g

end Rule

end DiffTensor
