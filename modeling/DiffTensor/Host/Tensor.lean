import DiffTensor.Host.Dims
import DiffTensor.Host.Owned

/-!
# Tensors on the host

A `Host.Tensor` wraps the handle of a tensor. When the handle is wrapped the library is
asked for the shape and for the tracking flag, in this order, and both are kept; they are
not asked for again. Reading values, in contrast, always goes to the library.
-/

namespace DiffTensor.Host

variable {α W : Type}

/-- A tensor of a library, with the shape and the tracking flag that it had when it was
wrapped. -/
structure Tensor where
  owned : Owned
  shape : List Int
  tracked : Bool
  deriving DecidableEq, Repr

namespace Tensor

def library (t : Tensor) : LibraryId := t.owned.library

/-- The number of dimensions. -/
def rank (t : Tensor) : Nat := t.shape.length

/-- The number of elements that the shape asks for (`numel`). -/
def size (t : Tensor) : Nat := Dims.size t.shape

def isReleased (t : Tensor) : Bool := t.owned.isReleased

/-! ## Wrapping handles -/

/-- Asks for the shape of a tensor (`query_shape`). -/
def queryShape (library : Library α W) (h : Handle) : Action W (List Int) := do
  let rank ← Action.call library (.query (.rank (some h)))
  Action.reserve rank
  let dims ← Action.call library (.shape (some h) (rank ≠ 0))
  Action.checkStatus library { operation := "shape" } dims.status
  return dims.onto 0 rank

/-- Wraps a handle that a library has just handed out (`from_raw`). -/
def wrap (libs : Libraries α W) (library : LibraryId) (h : Handle) : Action W Tensor := do
  let owned ← Owned.acquire .tensor library h
  let shape ← owned.whileHolding libs (queryShape (libs library) h)
  let flag ← Action.call (libs library) (.query (.tracked (some h)))
  return { owned, shape, tracked := flag ≠ 0 }

/-- Makes a tensor and wraps it. -/
def create (libs : Libraries α W) (library : LibraryId) (site : CallSite)
    (c : Creation α Handle) : Action W Tensor := do
  wrap libs library (← Action.create (libs library) site c)

/-! ## New tensors -/

/-- The name of a filling in messages. -/
def fillingName : Filling → String
  | .zeros => "zeros"
  | .ones => "ones"
  | .normal => "randn"

/-- How dimensions are passed: as a null pointer if there are none (`shape_ptr`). -/
def passed (dims : List Int) : Option (List Int) := if dims.isEmpty then none else some dims

/-- A tensor filled with zeros, ones or normal samples. -/
def filled (libs : Libraries α W) (library : LibraryId) (filling : Filling) (dims : List Int) :
    Action W Tensor := do
  Action.check (Dims.checked dims)
  create libs library { operation := fillingName filling, left := dims }
    (.filled filling (passed dims) dims.length)

/-- The shape for so many values: they are a row if nothing is said, and otherwise have to fill a
matrix. -/
def shapeOfValues (count : Nat) : Option (List Int) → Except HostError (List Int)
  | none => .ok [(count : Int)]
  | some dims =>
    if dims.length ≠ 2 then .error (.unsupportedRank "from_array" dims.length)
    else do
      Dims.nonNegative dims
      if Dims.count dims = some count then return dims
      else throw (.shapeMismatch "from_array" [(count : Int)] dims)

/-- A tensor with the given values (`from_array`). -/
def ofValues (libs : Libraries α W) (library : LibraryId) (values : List α)
    (dims : Option (List Int)) : Action W Tensor := do
  let shape ← Action.check (shapeOfValues values.length dims)
  let data := if values.isEmpty then none else some values
  create libs library { operation := "from_array", left := shape }
    (.fromData data values.length (passed shape) shape.length)

/-! ## Reading -/

/-- Asks for the elements of a tensor (`copy_data`). -/
def copyData [Zero α] (library : Library α W) (h : Handle) : Action W (List α) := do
  let size ← Action.call library (.query (.size (some h)))
  Action.reserve size
  let copy ← Action.call library (.copyData (some h) true size)
  Action.checkStatus library { operation := "to_array" } copy.status
  return copy.onto 0 size

/-- The elements, in row-major order (`to_array`). -/
def values [Zero α] (libs : Libraries α W) (t : Tensor) : Action W (List α) := do
  let h ← Action.check t.owned.handle
  copyData (libs t.library) h

/-- The element of a tensor that has only one. -/
def item [Zero α] (libs : Libraries α W) (t : Tensor) : Action W α := do
  let h ← Action.check t.owned.handle
  if t.size ≠ 1 then Action.refuse (.shapeMismatch "item" t.shape [])
  match ← copyData (libs t.library) h with
  | x :: _ => return x
  | [] => Action.refuse (.library "item" .internal "native library returned no data")

/-- How a tensor is shown to a developer. -/
def debugText (t : Tensor) : String :=
  "Tensor \x7b handle: OwnedHandle \x7b kind: Tensor, raw: " ++ Event.maskedHandle ++
    " \x7d, api: NativeApi \x7b .. \x7d, shape: " ++ Text.integers t.shape ++
    ", requires_grad: " ++ (if t.tracked then "true" else "false") ++ " \x7d"

/-! ## Giving back -/

/-- Gives the handle back. -/
def destroy (libs : Libraries α W) (t : Tensor) : Action W Tensor := do
  return { t with owned := ← t.owned.release libs }

/-! ## Differentiation -/

/-- Turns tracking on or off (`set_requires_grad`). -/
def setTracked (libs : Libraries α W) (t : Tensor) (flag : Bool) : Action W Tensor := do
  let h ← Action.check t.owned.handle
  let status ← Action.call (libs t.library) (.command (.setTracked (some h) flag))
  Action.checkStatus (libs t.library) { operation := "requires_grad", left := t.shape } status
  return { t with tracked := flag }

/-- Differentiates from a tensor with a single element. -/
def backward (libs : Libraries α W) (t : Tensor) : Action W Unit := do
  let h ← Action.check t.owned.handle
  Action.report (.differentiating t.shape)
  let status ← Action.call (libs t.library) (.command (.backward (some h)))
  Action.checkStatus (libs t.library) { operation := "backward", left := t.shape } status

/-- The gradient that has been accumulated, if there is one (`grad`). -/
def gradient (libs : Libraries α W) (t : Tensor) : Action W (Option Tensor) := do
  let h ← Action.check t.owned.handle
  match ← Action.call (libs t.library) (.gradient (some h)) with
  | none => return none
  | some g => return some (← wrap libs t.library g)

end Tensor

end DiffTensor.Host
