import DiffTensor.Buffer.Basic
import DiffTensor.Layout
import DiffTensor.Shape

/-!
# Broadcasting buffers

`combine` applies a function of two numbers element by element under broadcasting, and
`reduce` goes the other way: it adds up, for each element of a smaller shape, the
elements of a buffer that were read from it. It is what carries the gradient of a
combination back to its operands.
-/

namespace DiffTensor.Buffer

variable {α : Type}

/-- Reads the element at a position that may lie past the end. -/
def read (b : Buffer α) (i : Nat) : Outcome α :=
  match b.data[i]? with
  | some x => .ok x
  | none => crash (.index b.data.size i)

/-- Combines two buffers under broadcasting (`broadcast_binary`). The name of the operation stands
in the refusal. -/
def combine (operation : String) (a b : Buffer α) (f : α → α → α) : Outcome (Buffer α) :=
  match Shape.join a.shape b.shape with
  | none => refuse (.notBroadcastable operation a.shape b.shape)
  | some shape =>
    if a.shape = b.shape then zipMap f a b
    else do
      let left ← Layout.offsets a.shape shape
      let right ← Layout.offsets b.shape shape
      let data ← (left.zip right).mapM fun (i, j) => do return f (← a.read i) (← b.read j)
      fill data.toArray shape

/-- Adds each value onto the element at its position, in the order given. -/
def scatter [Scalar α] (data : Array α) : List (Nat × α) → Outcome (Array α)
  | [] => .ok data
  | (i, x) :: rest =>
    match data[i]? with
    | some held => scatter (data.setIfInBounds i (held + x)) rest
    | none => crash (.index data.size i)

/-- Sums a buffer down to a shape that broadcasts onto its own (`reduce_to_shape`). -/
def reduce [Scalar α] (b : Buffer α) (shape : List Nat) : Outcome (Buffer α) :=
  if b.shape = shape then .ok b
  else do
    let out ← zeros shape
    let targets ← Layout.offsets shape b.shape
    return { out with data := ← scatter out.data (targets.zip b.data.toList) }

end DiffTensor.Buffer
