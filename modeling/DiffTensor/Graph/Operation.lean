import DiffTensor.Graph.Store

/-!
# Operations on nodes

An operation is given by the value it computes and by the rule that is kept with the
result: `UnaryOp` lists the operations on one node, `BinaryOp` those on two. Running one
takes the operands' present values, so later changes to an operand do not reach the
rule.
-/

namespace DiffTensor

/-- Operations on one tensor (`transpose`, `relu`, `sigmoid`, `sum`, `mean`). -/
inductive UnaryOp where
  | transpose
  | relu
  | sigmoid
  | sum
  | mean
  deriving DecidableEq, Repr

/-- Operations on two tensors; all but the matrix product broadcast their operands (`add`, `sub`,
`mul`, `matmul`). -/
inductive BinaryOp where
  | add
  | sub
  | mul
  | matmul
  deriving DecidableEq, Repr

variable {α : Type} [Scalar α]

namespace UnaryOp

/-- What the operation computes. The mean of no elements at all is not a number. -/
def value (op : UnaryOp) (x : Buffer α) : Outcome (Buffer α) :=
  match op with
  | transpose => x.transpose
  | relu => .ok (x.map Scalar.positivePart)
  | sigmoid => .ok (x.map Scalar.logistic)
  | sum => .ok (Buffer.scalar x.sum)
  | mean => .ok (Buffer.scalar (x.sum / Scalar.ofNat x.size))

/-- What is kept with the result. -/
def rule (op : UnaryOp) (input output : Buffer α) : Rule α :=
  match op with
  | transpose => .transpose
  | relu => .relu input
  | sigmoid => .sigmoid output
  | sum => .sum input.shape 1
  | mean => .sum input.shape (1 / Scalar.ofNat input.size)

end UnaryOp

namespace BinaryOp

/-- What the operation computes. -/
def value (op : BinaryOp) (x y : Buffer α) : Outcome (Buffer α) :=
  match op with
  | add => x.combine "add" y (· + ·)
  | sub => x.combine "sub" y (· - ·)
  | mul => x.combine "mul" y (· * ·)
  | matmul => x.product y

/-- What is kept with the result. -/
def rule (op : BinaryOp) (left right : Buffer α) : Rule α :=
  match op with
  | add => .add left.shape right.shape
  | sub => .sub left.shape right.shape
  | mul => .mul left right
  | matmul => .matmul left right

end BinaryOp

namespace Store

/-- Runs an operation on one node and records it. -/
def unary (s : Store α) (op : UnaryOp) (a : NodeId) : Outcome (NodeId × Store α) := do
  let output ← op.value (s.value a)
  return s.record output (op.rule (s.value a) output) [a]

/-- Runs an operation on two nodes and records it. -/
def binary (s : Store α) (op : BinaryOp) (a b : NodeId) : Outcome (NodeId × Store α) := do
  let output ← op.value (s.value a) (s.value b)
  return s.record output (op.rule (s.value a) (s.value b)) [a, b]

end Store

end DiffTensor
