import DiffTensor.Library.Calling
import DiffTensor.Session.Slots

/-!
# Sessions at the boundary of a library

A boundary session makes calls one by one. Objects are named by slots, and no name stands
for the null handle. After each call the last error is read as a whole.

Buffers that the library is given are filled beforehand, so that an answer shows which
places were written: a status with 99, dimensions and values with -7, and text with `#`.
-/

namespace DiffTensor.BoundarySession

/-- The steps of a session. -/
inductive Step (α : Type) where
  | seed (value : UInt64)
  | create (body : Creation α String) (hasStatus : Bool) (out : String)
  | command (body : Command String)
  | query (body : Query String)
  | shape (tensor : Option String) (hasBuffer : Bool)
  /-- The values of a tensor; the length is the tensor's own if none is given. -/
  | copyData (tensor : Option String) (hasBuffer : Bool) (length : Option Nat)
  | gradient (tensor : Option String) (out : String)
  | parameters (layer : Option String) (hasBuffer : Bool) (outs : List String)
  | release (kind : ResourceKind) (name : Option String)
  | lastError (hasBuffer : Bool) (length : Nat)

/-- The answers to steps. `error` is the last error after the call. -/
inductive Answer (α : Type) where
  | done (error : String)
  | created (status : Status) (null : Bool) (error : String)
  | status (status : Status) (error : String)
  | number (value : Nat) (error : String)
  | shape (status : Status) (error : String) (buffer : List Int)
  | data (status : Status) (error : String) (buffer : List α)
  | gradient (null : Bool) (error : String)
  | text (length : Nat) (buffer : List UInt8)
  | emptySlot

/-- The state of a session. -/
structure State (W : Type) where
  env : Env W
  tensors : Slots Handle := {}
  layers : Slots Handle := {}
  optimizers : Slots Handle := {}

/-- A part of a step, which may end the step with an answer. -/
abbrev Running (α W β : Type) := ExceptT (Answer α) (StateM (State W)) β

variable {α W β : Type}

namespace State

def slots (s : State W) : ResourceKind → Slots Handle
  | .tensor => s.tensors
  | .layer => s.layers
  | .optimizer => s.optimizers

def setSlots (s : State W) : ResourceKind → Slots Handle → State W
  | .tensor, slots => { s with tensors := slots }
  | .layer, slots => { s with layers := slots }
  | .optimizer, slots => { s with optimizers := slots }

end State

/-! ## Parts of steps -/

/-- Makes calls. -/
def perform (calls : Calling W β) : Running α W β := fun s =>
  let (result, env) := calls s.env
  (.ok result, { s with env })

/-- The handle in a slot; an empty slot ends the step. -/
def handleAt (kind : ResourceKind) : Option String → Running α W (Option Handle)
  | none => pure none
  | some name => fun s =>
    match (s.slots kind).find? name with
    | some h => (.ok (some h), s)
    | none => (.error .emptySlot, s)

/-- The handles in several slots. -/
def handlesAt (kind : ResourceKind) :
    Option (List (Option String)) → Running α W (Option (List (Option Handle)))
  | none => pure none
  | some names => do return some (← names.mapM (handleAt kind))

/-- Puts handles for names. -/
def resolveCreation : Creation α String → Running α W (Creation α Handle)
  | .filled filling shape count => return .filled filling shape count
  | .fromData data length shape count => return .fromData data length shape count
  | .binary op a b => return .binary op (← handleAt .tensor a) (← handleAt .tensor b)
  | .unary op a => return .unary op (← handleAt .tensor a)
  | .newLinear inputs outputs => return .newLinear inputs outputs
  | .applyLinear layer x => return .applyLinear (← handleAt .layer layer) (← handleAt .tensor x)
  | .adam params length rates => return .adam (← handlesAt .tensor params) length rates
  | .sgd params length rates => return .sgd (← handlesAt .tensor params) length rates

/-- Puts handles for names. -/
def resolveCommand : Command String → Running α W (Command Handle)
  | .setTracked tensor flag => return .setTracked (← handleAt .tensor tensor) flag
  | .backward tensor => return .backward (← handleAt .tensor tensor)
  | .step optimizer => return .step (← handleAt .optimizer optimizer)
  | .clearGradients optimizer => return .clearGradients (← handleAt .optimizer optimizer)

/-- Puts handles for names. -/
def resolveQuery : Query String → Running α W (Query Handle)
  | .rank tensor => return .rank (← handleAt .tensor tensor)
  | .size tensor => return .size (← handleAt .tensor tensor)
  | .tracked tensor => return .tracked (← handleAt .tensor tensor)
  | .parameterCount layer => return .parameterCount (← handleAt .layer layer)

variable (library : Library α W)

/-- Puts a handle into a slot; a handle that was there is released. -/
def store (kind : ResourceKind) (name : String) (h : Handle) : Running α W Unit := do
  let old := ((← get).slots kind).find? name
  modify fun s => s.setSlots kind ((s.slots kind).insert name h)
  match old with
  | some old => perform (library.call (.release kind (some old)))
  | none => pure ()

/-- Puts handles into slots, in order. -/
def storeAll (kind : ResourceKind) : List (String × Handle) → Running α W Unit
  | [] => pure ()
  | (name, h) :: rest => do
    store library kind name h
    storeAll kind rest

/-- Empties the slot of a handle that has been released. -/
def forget (kind : ResourceKind) : Option String → Running α W Unit
  | none => pure ()
  | some name => modify fun s => s.setSlots kind ((s.slots kind).erase name)

/-! ## Steps -/

/-- What a status holds that is not written. -/
def blankStatus : Status := 99

variable [Scalar α]

/-- Runs a step. -/
def run : Step α → Running α W (Answer α)
  | .seed value => do
    perform (library.call (.seed value))
    return .done (← perform library.errorText)
  | .create body hasStatus out => do
    let body ← resolveCreation body
    let made ← perform (library.call (.create body hasStatus))
    let error ← perform library.errorText
    if let some h := made.handle then store library body.kind out h
    return .created (made.status.getD blankStatus) made.handle.isNone error
  | .command body => do
    let body ← resolveCommand body
    let status ← perform (library.call (.command body))
    return .status status (← perform library.errorText)
  | .query body => do
    let body ← resolveQuery body
    let value ← perform (library.call (.query body))
    return .number value (← perform library.errorText)
  | .shape tensor hasBuffer => do
    let h ← handleAt .tensor tensor
    let rank ← perform (library.call (.query (.rank h)))
    let out ← perform (library.call (.shape h hasBuffer))
    return .shape out.status (← perform library.errorText) (out.onto (-7) rank)
  | .copyData tensor hasBuffer length => do
    let h ← handleAt .tensor tensor
    let size ← perform (library.call (.query (.size h)))
    let length := length.getD size
    let out ← perform (library.call (.copyData h hasBuffer length))
    let blank : α := -Scalar.ofNat 7
    return .data out.status (← perform library.errorText) (out.onto blank (max size length))
  | .gradient tensor out => do
    let h ← handleAt .tensor tensor
    let g ← perform (library.call (.gradient h))
    let error ← perform library.errorText
    if let some g := g then store library .tensor out g
    return .gradient g.isNone error
  | .parameters layer hasBuffer outs => do
    let h ← handleAt .layer layer
    let out ← perform (library.call (.parameters h hasBuffer outs.length))
    let error ← perform library.errorText
    storeAll library .tensor (outs.zip out.items)
    return .status out.status error
  | .release kind name => do
    let h ← handleAt kind name
    perform (library.call (.release kind h))
    forget kind name
    return .done (← perform library.errorText)
  | .lastError hasBuffer length => do
    let buffer := List.replicate length (35 : UInt8)
    let copied ← perform (library.call (.lastError (if hasBuffer then some buffer else none)))
    return .text copied.length (if hasBuffer then copied.buffer else buffer)

/-- The answer to a step, and the state after it. -/
def answer (step : Step α) (s : State W) : Answer α × State W :=
  match run library step s with
  | (.ok a, s) => (a, s)
  | (.error a, s) => (a, s)

/-- The answers to a list of steps, each with what was reported during the step. -/
def answers : List (Step α) → State W → List (Answer α × List Event)
  | [], _ => []
  | step :: rest, s =>
    let (a, s) := answer library step { s with env.log := [] }
    (a, s.env.log) :: answers rest s

end DiffTensor.BoundarySession
