import DiffTensor.Host.Tensor

/-!
# Layers on the host

A `Host.Layer` wraps the handle of a linear layer, and keeps the sizes of the rows it maps.
Its parameters can be exported as tensors: these are the layer's own, so an optimizer over
them moves the layer.
-/

namespace DiffTensor.Host

variable {α W : Type}

/-- A linear layer of a library (`Linear`). -/
structure Layer where
  owned : Owned
  inputs : Nat
  outputs : Nat
  deriving DecidableEq, Repr

namespace Layer

def library (l : Layer) : LibraryId := l.owned.library

def isReleased (l : Layer) : Bool := l.owned.isReleased

/-- Refuses rows without numbers, and more weights than a signed word counts. -/
def checkFeatures (inputs outputs : Nat) : Except HostError Unit :=
  if inputs = 0 ∨ outputs = 0 then .error (.configuration (.layerFeatures inputs outputs))
  else if 0x8000000000000000 ≤ inputs * outputs then
    .error (.configuration (.layerWeights inputs outputs))
  else .ok ()

/-- A new layer (`new`). -/
def create (libs : Libraries α W) (library : LibraryId) (inputs outputs : Nat) :
    Action W Layer := do
  Action.check (checkFeatures inputs outputs)
  let h ← Action.create (libs library) { operation := "linear" } (.newLinear inputs outputs)
  return { owned := ← Owned.acquire .layer library h, inputs, outputs }

/-- The shape of the weight. -/
def weightShape (l : Layer) : List Int := [(l.outputs : Int), (l.inputs : Int)]

/-- A layer takes a row, or a matrix of rows, of its number of inputs. -/
def checkInput (l : Layer) (dims : List Int) : Except HostError Unit :=
  if dims.length ≠ 1 ∧ dims.length ≠ 2 then .error (.unsupportedRank "linear" dims.length)
  else if dims.getLast? = some (l.inputs : Int) then .ok ()
  else .error (.shapeMismatch "linear" dims l.weightShape)

/-- Applies the layer. -/
def forward (libs : Libraries α W) (l : Layer) (x : Tensor) : Action W Tensor := do
  let layer ← Action.check l.owned.handle
  let input ← Action.check x.owned.handle
  Action.check (sameLibrary "linear" l.owned x.owned)
  Action.check (l.checkInput x.shape)
  Tensor.create libs l.library { operation := "linear", left := x.shape, right := l.weightShape }
    (.applyLinear (some layer) (some input))

/-- Gives raw handles of tensors back, without a report. -/
def releaseRaw (libs : Libraries α W) (library : LibraryId) : List (Option Handle) → Action W Unit
  | [] => pure ()
  | h :: rest => do
    Action.call (libs library) (.release .tensor h)
    releaseRaw libs library rest

/-- Destroys tensors, first to last. -/
def destroyAll (libs : Libraries α W) : List Tensor → Action W Unit
  | [] => pure ()
  | t :: rest => do
    let _ ← t.destroy libs
    destroyAll libs rest

/-- Lets tensors go, first to last. -/
def discardAll (libs : Libraries α W) : List Tensor → Action W Unit
  | [] => pure ()
  | t :: rest => do
    t.owned.discard libs
    discardAll libs rest

/-- Wraps a handle that should not be null. -/
def wrapRaw (libs : Libraries α W) (library : LibraryId) : Option Handle → Action W Tensor
  | none => Action.crash .nullHandle
  | some h => Tensor.wrap libs library h

/-- Wraps handles one after the other, behind those wrapped already. If one cannot be wrapped,
all are given back: the handles behind it first, then the tensors before it. -/
def wrapAll (libs : Libraries α W) (library : LibraryId) (wrapped : List Tensor) :
    List (Option Handle) → Action W (List Tensor)
  | [] => pure wrapped
  | h :: rest => do
    match ← (wrapRaw libs library h).attempt with
    | .ok t => wrapAll libs library (wrapped ++ [t]) rest
    | .error (.refused cause) =>
      releaseRaw libs library rest
      destroyAll libs wrapped
      Action.refuse cause
    | .error (.crashed cause) =>
      discardAll libs wrapped
      Action.crash cause

/-- The caller's list of so many handles, null where the library has written none. -/
def handleSlots (count : Nat) (out : Written Handle) : List (Option Handle) :=
  Written.onto ⟨out.status, out.items.map some⟩ none count

/-- The parameters, weight first, as new tensors. -/
def parameters (libs : Libraries α W) (l : Layer) : Action W (List Tensor) := do
  let h ← Action.check l.owned.handle
  let count ← Action.call (libs l.library) (.query (.parameterCount (some h)))
  Action.reserve count
  let out ← Action.call (libs l.library) (.parameters (some h) true count)
  Action.checkStatus (libs l.library) { operation := "parameters" } out.status
  wrapAll libs l.library [] (handleSlots count out)

/-- Gives the handle back. -/
def destroy (libs : Libraries α W) (l : Layer) : Action W Layer := do
  return { l with owned := ← l.owned.release libs }

end Layer

end DiffTensor.Host
