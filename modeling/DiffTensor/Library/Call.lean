import DiffTensor.Event
import DiffTensor.Graph.Operation
import DiffTensor.Optimizer

/-!
# The interface of a library

A library is reached by calls through a flat interface: tensors, layers and optimizers
are handles, or null; shapes and data are a pointer, which may be null, and a count; and
a call that can fail answers with a status. `Call` lists the calls with their arguments,
`Call.Reply` says what each of them is answered with, and a `Library` over a world of
states of type `W` answers every call.

Calls that make an object write their status through a pointer of the caller's
(`Created`); if that pointer is null they do nothing at all.
-/

namespace DiffTensor

/-- The status of a call; zero is success (`StatusCode`). -/
abbrev Status := Int

namespace Status

def success : Status := 0
def invalidArgument : Status := -1
def shapeMismatch : Status := -2
def unsupportedRank : Status := -3
def autograd : Status := -4
def internal : Status := -5

end Status

/-- The status that reports a kind of refusal. -/
def ErrorKind.status : ErrorKind → Status
  | invalidArgument => .invalidArgument
  | shapeMismatch => .shapeMismatch
  | unsupportedRank => .unsupportedRank
  | autograd => .autograd

def LibraryError.status (e : LibraryError) : Status := e.kind.status

/-- What a new tensor is filled with (`tensor_zeros`, `tensor_ones`, `tensor_randn`). -/
inductive Filling where
  | zeros
  | ones
  | normal
  deriving DecidableEq, Repr

/-- Calls that make one object, over any type `η` of names for the objects they use. -/
inductive Creation (α η : Type) where
  | filled (filling : Filling) (shape : Option (List Int)) (count : Nat)
  | fromData (data : Option (List α)) (length : Nat) (shape : Option (List Int)) (count : Nat)
  | binary (op : BinaryOp) (a b : Option η)
  | unary (op : UnaryOp) (a : Option η)
  | newLinear (inputs outputs : Nat)
  | applyLinear (layer x : Option η)
  | adam (parameters : Option (List (Option η))) (length : Nat) (rates : AdamRates α)
  | sgd (parameters : Option (List (Option η))) (length : Nat) (rates : SgdRates α)

/-- Calls that change something and answer with a status. -/
inductive Command (η : Type) where
  | setTracked (tensor : Option η) (flag : Bool)
  | backward (tensor : Option η)
  | step (optimizer : Option η)
  | clearGradients (optimizer : Option η)
  deriving DecidableEq, Repr

/-- Calls that answer with a number. -/
inductive Query (η : Type) where
  | rank (tensor : Option η)
  | size (tensor : Option η)
  | tracked (tensor : Option η)
  | parameterCount (layer : Option η)
  deriving DecidableEq, Repr

/-- The calls of a library. Output buffers are described by whether there is one, and by its
length where the library is told. -/
inductive Call (α : Type) where
  | seed (value : UInt64)
  /-- Copies the last error's text into a buffer with the given contents. -/
  | lastError (buffer : Option (List UInt8))
  | release (kind : ResourceKind) (handle : Option Handle)
  | create (body : Creation α Handle) (hasStatus : Bool)
  | command (body : Command Handle)
  | query (body : Query Handle)
  | shape (tensor : Option Handle) (hasBuffer : Bool)
  | copyData (tensor : Option Handle) (hasBuffer : Bool) (length : Nat)
  | parameters (layer : Option Handle) (hasBuffer : Bool) (length : Nat)
  | gradient (tensor : Option Handle)

/-- The answer to a call that makes an object: what was written through the status pointer, if
anything, and the handle. -/
structure Created where
  status : Option Status
  handle : Option Handle
  deriving DecidableEq, Repr

/-- A status, and what was written from the start of the caller's buffer on. -/
structure Written (β : Type) where
  status : Status
  items : List β
  deriving Repr

/-- The caller's buffer after the call, if it has the given length and was filled with `blank`. -/
def Written.onto {β : Type} (w : Written β) (blank : β) (length : Nat) : List β :=
  w.items.take length ++ List.replicate (length - w.items.length) blank

/-- The length of the last error's text, and the caller's buffer afterwards. -/
structure Copied where
  length : Nat
  buffer : List UInt8
  deriving DecidableEq, Repr

/-- Copies a text into a buffer: as much as fits before the zero byte that ends it
(`copy_last_error`). Without a buffer, or into an empty one, nothing is copied. -/
def Copied.ofText (text : List UInt8) (buffer : Option (List UInt8)) : Copied :=
  match buffer with
  | none => ⟨text.length, []⟩
  | some [] => ⟨text.length, []⟩
  | some (b :: bs) =>
    let n := min text.length bs.length
    ⟨text.length, text.take n ++ 0 :: (b :: bs).drop (n + 1)⟩

theorem Copied.length_ofText (text : List UInt8) (buffer : Option (List UInt8)) :
    (Copied.ofText text buffer).length = text.length := by
  unfold Copied.ofText
  split <;> rfl

/-- A buffer with room for one byte more than the text receives the whole text. -/
theorem Copied.take_ofText (text bytes : List UInt8) (h : text.length < bytes.length) :
    (Copied.ofText text (some bytes)).buffer.take text.length = text := by
  cases bytes with
  | nil => simp at h
  | cons b bs =>
    have hn : min text.length bs.length = text.length := by
      simp only [List.length_cons] at h
      omega
    simp [Copied.ofText, hn]

namespace Call

variable {α : Type}

/-- What a call is answered with. -/
@[reducible] def Reply : Call α → Type
  | seed _ | release .. => Unit
  | lastError _ => Copied
  | create .. => Created
  | command _ => Status
  | query _ => Nat
  | shape .. => Written Int
  | copyData .. => Written α
  | parameters .. => Written Handle
  | gradient _ => Option Handle

end Call

/-- A library: the answer to a call, the world afterwards, and what was reported on the way
(`NativeApi`). -/
structure Library (α W : Type) where
  answer : (c : Call α) → W → c.Reply × W × List Event

/-- The entry points of a library, one for each form of call and each operation (`NativeApi`). -/
inductive Entry where
  | seed
  | lastError
  | release (kind : ResourceKind)
  | filled (filling : Filling)
  | fromData
  | binary (op : BinaryOp)
  | unary (op : UnaryOp)
  | newLinear
  | applyLinear
  | adam
  | sgd
  | setTracked
  | backward
  | step
  | clearGradients
  | rank
  | size
  | tracked
  | parameterCount
  | shape
  | copyData
  | parameters
  | gradient
  deriving DecidableEq, Repr

variable {α η : Type}

def Creation.entry : Creation α η → Entry
  | filled filling .. => .filled filling
  | fromData .. => .fromData
  | binary op .. => .binary op
  | unary op _ => .unary op
  | newLinear .. => .newLinear
  | applyLinear .. => .applyLinear
  | adam .. => .adam
  | sgd .. => .sgd

/-- The kind of object that a call makes. -/
def Creation.kind : Creation α η → ResourceKind
  | newLinear .. => .layer
  | adam .. | sgd .. => .optimizer
  | _ => .tensor

def Command.entry : Command η → Entry
  | setTracked .. => .setTracked
  | backward _ => .backward
  | step _ => .step
  | clearGradients _ => .clearGradients

def Query.entry : Query η → Entry
  | rank _ => .rank
  | size _ => .size
  | tracked _ => .tracked
  | parameterCount _ => .parameterCount

/-- The entry point that a call goes through. -/
def Call.entry : Call α → Entry
  | seed _ => .seed
  | lastError _ => .lastError
  | release kind _ => .release kind
  | create c _ => c.entry
  | command c => c.entry
  | query q => q.entry
  | shape .. => .shape
  | copyData .. => .copyData
  | parameters .. => .parameters
  | gradient _ => .gradient

/-- The objects that a reply hands out, each with its kind. -/
def Call.handedOut : (c : Call α) → c.Reply → List (ResourceKind × Handle)
  | create c _, made => made.handle.toList.map fun h => (c.kind, h)
  | parameters .., out => out.items.map fun h => (.tensor, h)
  | gradient _, handle => handle.toList.map fun h => (.tensor, h)
  | _, _ => []

end DiffTensor
