import DiffTensor.Graph.Backward
import DiffTensor.Library.Call
import DiffTensor.Linear

/-!
# The state of the reference library

An `Engine` holds the graph, the random stream, the objects that have been handed out,
and the text of the last error. A handle is the place of an object in the table; places
are never used twice, and a released object leaves its place empty.

This module says what each call asks of the engine: refusals and crashes are still
outcomes here. `Reference` turns them into statuses.
-/

namespace DiffTensor

/-- What stands behind a handle. -/
inductive Object (α : Type) where
  | tensor (node : NodeId)
  | layer (layer : Linear)
  | optimizer (state : Optimizer α)

def Object.kind {α : Type} : Object α → ResourceKind
  | tensor _ => .tensor
  | layer _ => .layer
  | optimizer _ => .optimizer

/-- The state of the reference library. -/
structure Engine (α : Type) where
  store : Store α := {}
  stream : Stream
  objects : Array (Option (Object α)) := #[]
  lastError : String := ""

namespace Engine

variable {α : Type}

/-- A library that has just been loaded and seeded. -/
def ofSeed (seed : UInt64) : Engine α := { stream := .ofSeed seed }

/-! ## Objects -/

/-- The object behind a handle, if it has not been released. -/
def object? (e : Engine α) (h : Handle) : Option (Object α) := e.objects.getD h none

/-- The node of a tensor handle (`tensor_ref`). -/
def tensor (e : Engine α) : Option Handle → Outcome NodeId
  | none => refuse .nullTensor
  | some h =>
    match e.object? h with
    | some (.tensor n) => .ok n
    | _ => crash .danglingHandle

/-- The layer of a layer handle (`module_ref`). -/
def layer (e : Engine α) : Option Handle → Outcome Linear
  | none => refuse .nullLayer
  | some h =>
    match e.object? h with
    | some (.layer l) => .ok l
    | _ => crash .danglingHandle

/-- The place and the state of an optimizer handle (`optimizer_mut`). -/
def optimizer (e : Engine α) : Option Handle → Outcome (Handle × Optimizer α)
  | none => refuse .nullOptimizer
  | some h =>
    match e.object? h with
    | some (.optimizer state) => .ok (h, state)
    | _ => crash .danglingHandle

/-- Hands out an object under a new handle (`into_handle`). -/
def handOut (e : Engine α) (object : Object α) : Handle × Engine α :=
  (e.objects.size, { e with objects := e.objects.push (some object) })

/-- Hands out one handle for each node, in order. -/
def handOutNodes (e : Engine α) : List NodeId → List Handle × Engine α
  | [] => ([], e)
  | n :: rest =>
    let (h, e) := e.handOut (.tensor n)
    let (handles, e) := e.handOutNodes rest
    (h :: handles, e)

/-- Takes an object back (`tensor_release`, `module_release`, `optimizer_release`). Null is
ignored. -/
def release (e : Engine α) : Option Handle → Engine α
  | none => e
  | some h => { e with objects := e.objects.setIfInBounds h none }

/-! ## Arguments -/

/-- Reads `count` dimensions from a pointer (`read_shape`). They must not be negative, and not ask
for more elements than can be counted. -/
def readShape (dims : Option (List Int)) (count : Nat) : Outcome (List Nat) :=
  if count = 0 then .ok []
  else
    match dims with
    | none => refuse (.nullShape count)
    | some dims =>
      let dims := dims.take count
      match dims.find? (· < 0) with
      | some d => refuse (.negativeDim d dims)
      | none =>
        match Extent.checked (dims.map Int.toNat) with
        | none => refuse (.tooManyElements dims)
        | some _ => .ok (dims.map Int.toNat)

/-- Reads `length` values from a pointer. -/
def readData (data : Option (List α)) (length : Nat) : Outcome (List α) :=
  if length = 0 then .ok []
  else
    match data with
    | none => refuse .nullData
    | some data => .ok (data.take length)

/-- Reads `length` tensor handles from a pointer (`read_params`). -/
def readParameters (e : Engine α) (handles : Option (List (Option Handle))) (length : Nat) :
    Outcome (List NodeId) :=
  if length = 0 then .ok []
  else
    match handles with
    | none => refuse .nullParameters
    | some handles => (handles.take length).mapM e.tensor

variable [Scalar α]

/-! ## Calls that make an object -/

/-- Keeps a new node and hands it out. -/
def handOutNode (e : Engine α) (made : NodeId × Store α) : Handle × Engine α :=
  { e with store := made.2 }.handOut (.tensor made.1)

/-- Makes a filled tensor (`shape_ctor`). Only normal samples draw from the stream. -/
def filledBuffer [Sampler α] (filling : Filling) (shape : List Nat) (stream : Stream) :
    Outcome (Buffer α × Stream) :=
  match filling with
  | .zeros => do return (← Buffer.zeros shape, stream)
  | .ones => do return (← Buffer.full shape 1, stream)
  | .normal => Sampler.normals shape stream

/-- Makes the object that a call asks for. -/
def make [Sampler α] (e : Engine α) : Creation α Handle → Outcome (Handle × Engine α)
  | .filled filling dims count => do
    let shape ← readShape dims count
    let (value, stream) ← filledBuffer filling shape e.stream
    return { e with stream }.handOutNode (e.store.leaf value)
  | .fromData data length dims count => do
    let shape ← readShape dims count
    let values ← readData data length
    let value ← Buffer.fill values.toArray shape
    return e.handOutNode (e.store.leaf value)
  | .binary op a b => do
    let a ← e.tensor a
    let b ← e.tensor b
    return e.handOutNode (← e.store.binary op a b)
  | .unary op a => do
    let a ← e.tensor a
    return e.handOutNode (← e.store.unary op a)
  | .newLinear inputs outputs => do
    let (layer, store, stream) ← e.store.newLinear e.stream inputs outputs
    return { e with store, stream }.handOut (.layer layer)
  | .applyLinear layer x => do
    let layer ← e.layer layer
    let x ← e.tensor x
    return e.handOutNode (← e.store.applyLinear layer x)
  | .adam handles length rates => do
    let state ← Adam.new e.store (← e.readParameters handles length) rates
    return e.handOut (.optimizer (.adam state))
  | .sgd handles length rates => do
    let state ← Sgd.new (← e.readParameters handles length) rates
    return e.handOut (.optimizer (.sgd state))

/-! ## Calls that change something -/

/-- Replaces the state of an optimizer. -/
def setOptimizer (e : Engine α) (h : Handle) (state : Optimizer α) : Engine α :=
  { e with objects := e.objects.setIfInBounds h (some (.optimizer state)) }

/-- Carries out a command. Differentiation and steps keep what they did before they failed. -/
def run (e : Engine α) : Command Handle → Outcome Unit × Engine α × List Event
  | .setTracked tensor flag =>
    match (do (e.store.setTracked (← e.tensor tensor) flag) : Outcome (Store α)) with
    | .error cause => (.error cause, e, [])
    | .ok store => (.ok (), { e with store }, [])
  | .backward tensor =>
    match e.tensor tensor with
    | .error cause => (.error cause, e, [])
    | .ok root =>
      let (result, store) := e.store.backward root
      (result, { e with store }, e.store.backwardEvents root)
  | .step optimizer =>
    match e.optimizer optimizer with
    | .error cause => (.error cause, e, [])
    | .ok (h, state) =>
      let (result, state, store) := state.step e.store
      (result, { e with store }.setOptimizer h state, [])
  | .clearGradients optimizer =>
    match e.optimizer optimizer with
    | .error cause => (.error cause, e, [])
    | .ok (_, state) => (.ok (), { e with store := state.clearGradients e.store }, [])

/-! ## Calls that only look -/

/-- The number that a query asks for (`tensor_ndim`, `tensor_numel`, `tensor_requires_grad`,
`module_num_parameters`). -/
def look (e : Engine α) : Query Handle → Outcome Nat
  | .rank tensor => do return (e.store.value (← e.tensor tensor)).rank
  | .size tensor => do return (e.store.value (← e.tensor tensor)).size
  | .tracked tensor => do return if e.store.tracked (← e.tensor tensor) then 1 else 0
  | .parameterCount layer => do return (← e.layer layer).parameters.length

/-- The dimensions that are written into the caller's buffer (`tensor_shape`). A tensor without
dimensions needs none. -/
def readDims (e : Engine α) (tensor : Option Handle) (hasBuffer : Bool) : Outcome (List Int) := do
  let shape := e.store.shape (← e.tensor tensor)
  if shape.isEmpty then return []
  else if !hasBuffer then refuse .nullShapeBuffer
  else return shape.map Int.ofNat

/-- The values that are written into the caller's buffer, which must have the right length
(`tensor_copy_data`). -/
def readValues (e : Engine α) (tensor : Option Handle) (hasBuffer : Bool) (length : Nat) :
    Outcome (List α) := do
  let value := e.store.value (← e.tensor tensor)
  if value.size ≠ length then refuse (.bufferLength length value.size)
  else if length = 0 then return []
  else if !hasBuffer then refuse .nullDataBuffer
  else return value.data.toList

/-- New handles for a layer's parameters (`module_parameters`). -/
def exportParameters (e : Engine α) (layer : Option Handle) (hasBuffer : Bool) (length : Nat) :
    Outcome (List Handle × Engine α) := do
  let layer ← e.layer layer
  if length ≠ layer.parameters.length then
    refuse (.parameterCount layer.parameters.length length)
  else if !hasBuffer then refuse .nullParameterBuffer
  else return e.handOutNodes layer.parameters

/-- A new handle for a tensor's gradient, if it has one (`tensor_grad`). -/
def exportGradient (e : Engine α) (tensor : Option Handle) :
    Outcome (Option Handle × Engine α) := do
  match e.store.gradient (← e.tensor tensor) with
  | none => return (none, e)
  | some g =>
    let (h, e) := e.handOut (.tensor g)
    return (some h, e)

end Engine

end DiffTensor
