import DiffTensor.Host.Tensor

/-!
# Operations on tensors of the host

Operands are checked before the library is asked: they have to be held, their shapes have
to go together, and they have to belong to the same library. Operands stay as they are, and
the result is a new tensor.
-/

namespace DiffTensor

/-- The name of an operation in the host's messages. -/
def BinaryOp.hostName : BinaryOp → String
  | add => "add"
  | sub => "subtract"
  | mul => "multiply"
  | matmul => "matmul"

/-- The name of an operation in the host's messages. -/
def UnaryOp.hostName : UnaryOp → String
  | transpose => "transpose"
  | relu => "relu"
  | sigmoid => "sigmoid"
  | sum => "sum"
  | mean => "mean"

/-- The shape of the result, if the shapes of the operands go together. -/
def BinaryOp.resultShape (op : BinaryOp) (left right : List Int) : Except HostError (List Int) :=
  match op with
  | matmul => Dims.product left right
  | _ => Dims.join op.hostName left right

/-- The shape of the result, if the operation takes operands of this shape. -/
def UnaryOp.resultShape (op : UnaryOp) (dims : List Int) : Except HostError (List Int) :=
  match op with
  | transpose => Dims.transposed dims
  | relu | sigmoid => .ok dims
  | sum | mean => .ok []

namespace Host.Tensor

variable {α W : Type}

/-- An operation on two tensors (`dispatch_binary`). -/
def binary (libs : Libraries α W) (op : BinaryOp) (a b : Tensor) : Action W Tensor := do
  let left ← Action.check a.owned.handle
  let right ← Action.check b.owned.handle
  let _ ← Action.check (op.resultShape a.shape b.shape)
  Action.check (sameLibrary op.hostName a.owned b.owned)
  create libs a.library { operation := op.hostName, left := a.shape, right := b.shape }
    (.binary op (some left) (some right))

/-- An operation on one tensor (`dispatch_unary`). -/
def unary (libs : Libraries α W) (op : UnaryOp) (a : Tensor) : Action W Tensor := do
  let h ← Action.check a.owned.handle
  let _ ← Action.check (op.resultShape a.shape)
  create libs a.library { operation := op.hostName, left := a.shape } (.unary op (some h))

end Host.Tensor

end DiffTensor
