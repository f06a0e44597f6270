import DiffTensor.Host.Layer
import DiffTensor.Host.Operation
import DiffTensor.Host.Optimizer
import DiffTensor.Library.Rehearsal
import DiffTensor.Session.Slots

/-!
# Sessions on the host

A host session is a list of steps on named tensors, layers and optimizers, in a `Setting` of
several libraries over one world. In the usual setting one library is reached directly, and the
others rehearse failures (`Setting.rehearsing`). Each step has one answer, and a log of what was
reported during it.

A step that names an empty slot does nothing. A step that fails stores nothing. When a slot
is filled again, what was in it goes away after the new object is there.
-/

namespace DiffTensor.HostSession

open Host (Tensor Layer)

/-- What a session runs in: the libraries, how a failure is ordered, and how the census is read. -/
structure Setting (α V : Type) where
  libraries : Libraries α V
  inject : Fault → V → V
  census : V → Census × Nat

/-- Library number 0 is reached directly, all others rehearse failures. -/
def Setting.rehearsing {α W : Type} (inner : Library α W) : Setting α (Rehearsal W) where
  libraries library := if library = 0 then .direct inner else .rehearsed inner
  inject fault r := { r with faults := r.faults ++ [fault] }
  census r := (r.census, r.faults.length)

/-- The steps of a session. Objects are given by the names of their slots, and results are put
into the slot `out`. -/
inductive Step (α : Type) where
  | seed (library : LibraryId) (value : UInt64)
  | filled (library : LibraryId) (filling : Filling) (dims : List Int) (out : String)
  | ofValues (library : LibraryId) (values : List α) (dims : Option (List Int)) (out : String)
  | binary (op : BinaryOp) (a b out : String)
  | unary (op : UnaryOp) (a out : String)
  | values (a : String)
  | item (a : String)
  | info (a : String)
  | debug (a : String)
  | setTracked (a : String) (flag : Bool)
  | backward (a : String)
  | gradient (a out : String)
  | linear (library : LibraryId) (inputs outputs : Nat) (out : String)
  | forward (layer a out : String)
  | parameters (layer : String) (outs : List String)
  | layerInfo (layer : String)
  | adam (library : LibraryId) (params : List String) (rates : AdamRates α) (out : String)
  | sgd (library : LibraryId) (params : List String) (rates : SgdRates α) (out : String)
  | step (optimizer : String)
  | clearGradients (optimizer : String)
  | optimizerInfo (optimizer : String)
  | destroy (kind : ResourceKind) (name : String)
  | drop (kind : ResourceKind) (name : String)
  | inject (fault : Fault)
  | census

/-- How a tensor is shown: what its wrapper keeps and, if asked for, its elements. -/
structure TensorView (α : Type) where
  shape : List Int
  tracked : Bool
  data : Option (Except HostFailure (List α))

/-- The answers to steps. -/
inductive Answer (α : Type) where
  | done
  | tensor (view : TensorView α)
  | values (values : List α)
  | item (value : α)
  | info (tensor : Tensor)
  | debug (text : String)
  | gradient (view : Option (TensorView α))
  | parameters (views : List (TensorView α))
  | layerInfo (layer : Layer)
  | optimizerInfo (optimizer : Host.Optimizer α)
  /-- The slot is empty now; was it filled before? -/
  | dropped (filled : Bool)
  | census (census : Census) (faults : Nat)
  | emptySlot
  | failed (cause : HostFailure)

/-- What is put into the slots of a kind. -/
@[reducible] def Wrapper (α : Type) : ResourceKind → Type
  | .tensor => Tensor
  | .layer => Layer
  | .optimizer => Host.Optimizer α

namespace Wrapper

variable {α W : Type}

def owned : {kind : ResourceKind} → Wrapper α kind → Host.Owned
  | .tensor, t => Tensor.owned t
  | .layer, l => Layer.owned l
  | .optimizer, o => Host.Optimizer.owned o

/-- Gives the handle back. -/
def destroy (libs : Libraries α W) : {kind : ResourceKind} → Wrapper α kind →
    Action W (Wrapper α kind)
  | .tensor, t => Tensor.destroy libs t
  | .layer, l => Layer.destroy libs l
  | .optimizer, o => Host.Optimizer.destroy libs o

end Wrapper

/-- The state of a session. -/
structure State (α V : Type) where
  env : Env V
  tensors : Slots Tensor := {}
  layers : Slots Layer := {}
  optimizers : Slots (Host.Optimizer α) := {}

/-- The slots of a kind. -/
def State.slots {α V : Type} (s : State α V) : (kind : ResourceKind) → Slots (Wrapper α kind)
  | .tensor => s.tensors
  | .layer => s.layers
  | .optimizer => s.optimizers

/-- Replaces the slots of a kind. -/
def State.setSlots {α V : Type} (s : State α V) :
    (kind : ResourceKind) → Slots (Wrapper α kind) → State α V
  | .tensor, slots => { s with tensors := slots }
  | .layer, slots => { s with layers := slots }
  | .optimizer, slots => { s with optimizers := slots }

/-- A session at its start. -/
def State.new {α V : Type} (world : V) : State α V := { env := { world } }

/-- The same state, where failures can be rehearsed. -/
def State.rehearsing {α W : Type} (s : State α W) : State α (Rehearsal W) where
  env := ⟨{ inner := s.env.world }, s.env.log⟩
  tensors := s.tensors
  layers := s.layers
  optimizers := s.optimizers

/-- A part of a step, which may end the step with an answer. -/
abbrev Running (α V β : Type) := ExceptT (Answer α) (StateM (State α V)) β

section

variable {α V β : Type}

/-! ## Parts of steps -/

/-- Carries out an operation of the host. -/
def perform (action : Action V β) : Running α V β := fun s =>
  let (result, env) := action s.env
  (result.mapError .failed, { s with env })

/-- What is in a slot; an empty slot ends the step. -/
def filledSlot (kind : ResourceKind) (name : String) : Running α V (Wrapper α kind) := fun s =>
  match (s.slots kind).find? name with
  | some x => (.ok x, s)
  | none => (.error .emptySlot, s)

def tensorAt (name : String) : Running α V Tensor := filledSlot .tensor name

def layerAt (name : String) : Running α V Layer := filledSlot .layer name

def optimizerAt (name : String) : Running α V (Host.Optimizer α) := filledSlot .optimizer name

/-- The tensors in several slots. -/
def tensorsAt (names : List String) : Running α V (List Tensor) := names.mapM tensorAt

/-- Fills a slot. -/
def put (kind : ResourceKind) (name : String) (x : Wrapper α kind) : Running α V Unit :=
  modify fun s => s.setSlots kind ((s.slots kind).insert name x)

variable (setting : Setting α V)

/-- Lets the wrapper that was in a slot go. -/
def discardOld {kind : ResourceKind} (old : Option (Wrapper α kind)) : Running α V Unit :=
  match old with
  | some x => perform (x.owned.discard setting.libraries)
  | none => pure ()

/-- Puts a new object into a slot. -/
def store (kind : ResourceKind) (name : String) (x : Wrapper α kind) : Running α V Unit := do
  let old := ((← get).slots kind).find? name
  put kind name x
  discardOld setting old

/-- Puts new tensors into slots, in order; a tensor without a slot goes away. -/
def storeTensors : List String → List Tensor → Running α V Unit
  | name :: names, t :: tensors => do
    store setting .tensor name t
    storeTensors names tensors
  | [], t :: tensors => do
    perform (t.owned.discard setting.libraries)
    storeTensors [] tensors
  | _, [] => pure ()

/-- Empties a slot, and lets what was in it go. -/
def dropFrom (kind : ResourceKind) (name : String) : Running α V (Answer α) := do
  let old := ((← get).slots kind).find? name
  modify fun s => s.setSlots kind ((s.slots kind).erase name)
  discardOld setting old
  return .dropped old.isSome

/-- Gives a handle back; the wrapper stays in its slot. -/
def destroyAt (kind : ResourceKind) (name : String) : Running α V (Answer α) := do
  let x ← filledSlot kind name
  put kind name (← perform (x.destroy setting.libraries))
  return .done

variable [Scalar α] (showData : Bool)

/-- Shows a tensor. -/
def view (t : Tensor) : Running α V (TensorView α) := do
  if showData then
    let data ← perform (t.values setting.libraries).attempt
    return { shape := t.shape, tracked := t.tracked, data := some data }
  else return { shape := t.shape, tracked := t.tracked, data := none }

/-- Stores a new tensor and shows it. -/
def keep (out : String) (t : Tensor) : Running α V (TensorView α) := do
  let shown ← view setting showData t
  store setting .tensor out t
  return shown

/-! ## Steps -/

/-- Runs a step. -/
def run : Step α → Running α V (Answer α)
  | .seed library value => do
    perform (Action.call (setting.libraries library) (.seed value))
    return .done
  | .filled library filling dims out => do
    let t ← perform (Tensor.filled setting.libraries library filling dims)
    return .tensor (← keep setting showData out t)
  | .ofValues library values dims out => do
    let t ← perform (Tensor.ofValues setting.libraries library values dims)
    return .tensor (← keep setting showData out t)
  | .binary op a b out => do
    let a ← tensorAt a
    let b ← tensorAt b
    let t ← perform (Tensor.binary setting.libraries op a b)
    return .tensor (← keep setting showData out t)
  | .unary op a out => do
    let a ← tensorAt a
    let t ← perform (Tensor.unary setting.libraries op a)
    return .tensor (← keep setting showData out t)
  | .values a => do
    let a ← tensorAt a
    return .values (← perform (a.values setting.libraries))
  | .item a => do
    let a ← tensorAt a
    return .item (← perform (a.item setting.libraries))
  | .info a => do return .info (← tensorAt a)
  | .debug a => do return .debug (← tensorAt a).debugText
  | .setTracked a flag => do
    let t ← tensorAt a
    put .tensor a (← perform (t.setTracked setting.libraries flag))
    return .done
  | .backward a => do
    let a ← tensorAt a
    perform (a.backward setting.libraries)
    return .done
  | .gradient a out => do
    let a ← tensorAt a
    match ← perform (a.gradient setting.libraries) with
    | none => return .gradient none
    | some g => return .gradient (some (← keep setting showData out g))
  | .linear library inputs outputs out => do
    store setting .layer out (← perform (Layer.create setting.libraries library inputs outputs))
    return .done
  | .forward layer a out => do
    let layer ← layerAt layer
    let a ← tensorAt a
    let t ← perform (layer.forward setting.libraries a)
    return .tensor (← keep setting showData out t)
  | .parameters layer outs => do
    let layer ← layerAt layer
    let params ← perform (layer.parameters setting.libraries)
    let views ← params.mapM (view setting showData)
    storeTensors setting outs params
    return .parameters views
  | .layerInfo layer => do return .layerInfo (← layerAt layer)
  | .adam library params rates out => do
    let params ← tensorsAt params
    let o ← perform (Host.Optimizer.adam setting.libraries library params rates)
    store setting .optimizer out o
    return .done
  | .sgd library params rates out => do
    let params ← tensorsAt params
    let o ← perform (Host.Optimizer.sgd setting.libraries library params rates)
    store setting .optimizer out o
    return .done
  | .step optimizer => do
    let o ← optimizerAt optimizer
    perform (o.step setting.libraries)
    return .done
  | .clearGradients optimizer => do
    let o ← optimizerAt optimizer
    perform (o.clearGradients setting.libraries)
    return .done
  | .optimizerInfo optimizer => do return .optimizerInfo (← optimizerAt optimizer)
  | .destroy kind name => destroyAt setting kind name
  | .drop kind name => dropFrom setting kind name
  | .inject fault => do
    modify fun s => { s with env.world := setting.inject fault s.env.world }
    return .done
  | .census => do
    let (census, faults) := setting.census (← get).env.world
    return .census census faults

/-- The answer to a step, and the state after it. -/
def Setting.answer (step : Step α) (s : State α V) : Answer α × State α V :=
  match run setting showData step s with
  | (.ok a, s) => (a, s)
  | (.error a, s) => (a, s)

/-- The answers to a list of steps, each with what was reported during the step. -/
def Setting.answers (setting : Setting α V) (showData : Bool) :
    List (Step α) → State α V → List (Answer α × List Event)
  | [], _ => []
  | step :: rest, s =>
    let (a, s) := setting.answer showData step { s with env.log := [] }
    (a, s.env.log) :: Setting.answers setting showData rest s

end

/-- The answers in the usual setting. -/
def answers {α W : Type} [Scalar α] (inner : Library α W) (showData : Bool)
    (steps : List (Step α)) (s : State α W) : List (Answer α × List Event) :=
  (Setting.rehearsing inner).answers showData steps s.rehearsing

end DiffTensor.HostSession
