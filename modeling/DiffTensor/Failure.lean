import DiffTensor.Text.Brackets

/-!
# How an operation of the library can fail

An operation is *refused* with a `LibraryError`, which says what is wrong with its
arguments, or it *crashes*: it asks for a buffer that cannot exist, or leaves the
range of an index or of a machine word. `LibraryError.message` and `Crash.text` hold
the wording; `LibraryError.kind` sorts the refusals into the four kinds that the
library tells its callers apart.
-/

namespace DiffTensor

/-- The kinds of refusals (the variants of `NativeError`). -/
inductive ErrorKind where
  | invalidArgument
  | shapeMismatch
  | unsupportedRank
  | autograd
  deriving DecidableEq, Repr

/-- Why an operation was refused (`NativeError`). -/
inductive LibraryError where
  | nullTensor
  | nullLayer
  | nullOptimizer
  /-- A count of dimensions came without the dimensions. -/
  | nullShape (count : Nat)
  | negativeDim (dim : Int) (dims : List Int)
  | tooManyElements (dims : List Int)
  | nullData
  | nullParameters
  | nullShapeBuffer
  | nullDataBuffer
  | nullParameterBuffer
  /-- The caller's buffer has another length than the tensor. -/
  | bufferLength (given held : Nat)
  /-- The caller's buffer has another length than the layer's list of parameters. -/
  | parameterCount (held given : Nat)
  /-- So many values do not fill the shape. -/
  | fill (count : Nat) (shape : List Nat) (expected : Nat)
  | unequalShapes (left right : List Nat)
  | accumulate (addend held : List Nat)
  | reshape (source target : List Nat)
  | notBroadcastable (operation : String) (left right : List Nat)
  | transposeRank (shape : List Nat)
  | productRank (left right : List Nat)
  | productInner (left right : List Nat)
  | layerFeatures (inputs outputs : Nat)
  | layerWeights (inputs outputs : Nat)
  | layerInput (features : Nat) (shape : List Nat)
  | layerRank (shape : List Nat)
  | noParameters
  /-- The learning rate, as it stands in messages, is not a positive number. -/
  | learningRate (text : String)
  | notScalar (shape : List Nat)
  | untracked
  | cyclic
  | gradientCount (rule : String) (given expected : Nat)
  | leavesOnly
  /-- A refusal in words of its own. -/
  | stated (kind : ErrorKind) (text : String)
  deriving DecidableEq, Repr

namespace LibraryError

open Text

def kind : LibraryError → ErrorKind
  | fill .. | unequalShapes .. | accumulate .. | reshape .. | notBroadcastable ..
  | productInner .. | layerInput .. => .shapeMismatch
  | transposeRank .. | productRank .. | layerRank .. => .unsupportedRank
  | notScalar .. | untracked | cyclic | gradientCount .. => .autograd
  | stated kind _ => kind
  | _ => .invalidArgument

/-- What is wrong, without the kind. -/
def detail : LibraryError → String
  | nullTensor => "null tensor handle"
  | nullLayer => "null module handle"
  | nullOptimizer => "null optimizer handle"
  | nullShape count => "null shape pointer with ndim " ++ count.repr
  | negativeDim dim dims => "negative dimension " ++ integer dim ++ " in shape " ++ integers dims
  | tooManyElements dims => "shape " ++ integers dims ++ " has more elements than fit in memory"
  | nullData => "null data pointer"
  | nullParameters => "null parameter array"
  | nullShapeBuffer => "null shape buffer"
  | nullDataBuffer => "null data buffer"
  | nullParameterBuffer => "null parameter buffer"
  | bufferLength given held =>
    "buffer holds " ++ given.repr ++ " values, tensor has " ++ held.repr
  | parameterCount held given =>
    "module has " ++ held.repr ++ " parameters, buffer holds " ++ given.repr
  | fill count shape expected =>
    count.repr ++ " values cannot fill shape " ++ naturals shape ++ " (" ++ expected.repr ++
      " elements)"
  | unequalShapes left right => naturals left ++ " vs " ++ naturals right
  | accumulate addend held =>
    "cannot accumulate " ++ naturals addend ++ " into " ++ naturals held
  | reshape source target => "cannot reshape " ++ naturals source ++ " to " ++ naturals target
  | notBroadcastable operation left right =>
    operation ++ ": shapes " ++ naturals left ++ " and " ++ naturals right ++
      " cannot be broadcast together"
  | transposeRank shape => "transpose expects rank <= 2, got " ++ naturals shape
  | productRank left right =>
    "matmul expects rank-2 operands, got " ++ naturals left ++ " and " ++ naturals right
  | productInner left right =>
    "matmul inner dimensions differ: " ++ naturals left ++ " and " ++ naturals right
  | layerFeatures inputs outputs =>
    "linear layer needs positive feature counts, got " ++ inputs.repr ++ " -> " ++ outputs.repr
  | layerWeights inputs outputs =>
    "linear layer " ++ inputs.repr ++ " -> " ++ outputs.repr ++ " has too many weights"
  | layerInput features shape =>
    "linear expects last dimension " ++ features.repr ++ ", got input " ++ naturals shape
  | layerRank shape => "linear expects rank 1 or 2 input, got " ++ naturals shape
  | noParameters => "optimizer got an empty parameter list"
  | learningRate text => "learning rate must be positive, got " ++ text
  | notScalar shape =>
    "grad can be implicitly created only for scalar outputs, got shape " ++ naturals shape
  | untracked => "tensor does not require grad and has no grad_fn"
  | cyclic => "autograd graph contains a cycle"
  | gradientCount rule given expected =>
    rule ++ " returned " ++ given.repr ++ " gradients for " ++ expected.repr ++ " inputs"
  | leavesOnly => "only leaf tensors can stop requiring gradients"
  | stated _ text => text

/-- The whole message: the kind in words, except for refusals of differentiation, and the
detail. -/
def message (e : LibraryError) : String :=
  match e.kind with
  | .invalidArgument => "invalid argument: " ++ e.detail
  | .shapeMismatch => "shape mismatch: " ++ e.detail
  | .unsupportedRank => "unsupported rank: " ++ e.detail
  | .autograd => e.detail

end LibraryError

/-- Why an operation broke off (the panics that `guarded` catches). -/
inductive Crash where
  /-- A buffer was asked for that is too large to exist. -/
  | capacity
  /-- A product, a sum or a difference of indices left the machine word. -/
  | product
  | sum
  | difference
  | index (length position : Nat)
  /-- A uniform draw from bounds that are not in order, or too far apart. -/
  | emptyRange
  | endlessRange
  /-- A null handle was to be owned. -/
  | nullHandle
  /-- A handle that names no object of its kind. -/
  | danglingHandle
  deriving DecidableEq, Repr

namespace Crash

def text : Crash → String
  | capacity => "capacity overflow"
  | product => "attempt to multiply with overflow"
  | sum => "attempt to add with overflow"
  | difference => "attempt to subtract with overflow"
  | index length position =>
    "index out of bounds: the len is " ++ length.repr ++ " but the index is " ++ position.repr
  | emptyRange => "cannot sample empty range"
  | endlessRange => "cannot sample an endless range"
  | nullHandle => "null handle"
  | danglingHandle => "dangling handle"

end Crash

/-- A refusal or a crash. -/
inductive Failure where
  | refused (cause : LibraryError)
  | crashed (cause : Crash)
  deriving DecidableEq, Repr

/-- The result of an operation that can fail (`NativeResult`). -/
abbrev Outcome (β : Type) := Except Failure β

/-- Refuses an operation. -/
def refuse {β : Type} (cause : LibraryError) : Outcome β := .error (.refused cause)

/-- Breaks an operation off. -/
def crash {β : Type} (cause : Crash) : Outcome β := .error (.crashed cause)

namespace Outcome

variable {β γ : Type}

@[simp] theorem ok_bind (x : β) (f : β → Outcome γ) : (Except.ok x : Outcome β) >>= f = f x := rfl

@[simp] theorem error_bind (e : Failure) (f : β → Outcome γ) :
    (Except.error e : Outcome β) >>= f = .error e := rfl

@[simp] theorem pure_eq (x : β) : (pure x : Outcome β) = .ok x := rfl

@[simp] theorem refuse_bind (cause : LibraryError) (f : β → Outcome γ) :
    (refuse cause : Outcome β) >>= f = refuse cause := rfl

@[simp] theorem crash_bind (cause : Crash) (f : β → Outcome γ) :
    (crash cause : Outcome β) >>= f = crash cause := rfl

@[simp] theorem refuse_ne_ok (cause : LibraryError) (x : β) : refuse cause ≠ .ok x := nofun

@[simp] theorem crash_ne_ok (cause : Crash) (x : β) : crash cause ≠ .ok x := nofun

theorem refuse_inj {cause cause' : LibraryError} :
    (refuse cause : Outcome β) = refuse cause' ↔ cause = cause' := by
  simp [refuse]

/-- Computations one after the other succeed if each of them does. -/
theorem bind_eq_ok_iff {x : Outcome β} {f : β → Outcome γ} {y : γ} :
    x >>= f = .ok y ↔ ∃ b, x = .ok b ∧ f b = .ok y := by
  cases x <;> simp

end Outcome

end DiffTensor
