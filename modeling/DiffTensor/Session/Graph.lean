import DiffTensor.Graph.Backward
import DiffTensor.Linear
import DiffTensor.Optimizer
import DiffTensor.Session.Slots

/-!
# Sessions on the graph

A graph session works on nodes, layers and optimizers directly, without handles. Several
slots may hold the same node: the gradient of a node and the parameters of a layer are put
into slots as they are.

Operations with a gradient rule of the caller's own can be recorded too. A `CustomRule`
hands each input a multiple of the result's gradient, or a constant, or fails.
-/

namespace DiffTensor.GraphSession

/-- A gradient rule of the caller's own. -/
structure CustomRule (α : Type) where
  /-- How many gradients it returns; one for each input if nothing is said. -/
  count : Option Nat
  /-- The factor of each gradient, or its elements if they are constant. -/
  scale : α
  /-- The shape of a constant gradient. -/
  constant : Option (List Nat)
  /-- The words in which it refuses. -/
  failure : Option String

/-- The rule as it is recorded with so many inputs. -/
def CustomRule.rule {α : Type} [Scalar α] (c : CustomRule α) (inputs : Nat) : Rule α :=
  .custom "CustomBackward" fun g =>
    match c.failure with
    | some text => refuse (.stated .invalidArgument text)
    | none =>
      (List.range (c.count.getD inputs)).mapM fun _ =>
        match c.constant with
        | some shape => Buffer.full shape c.scale
        | none => .ok (g.map (· * c.scale))

/-- The steps of a session. Objects are given by the names of their slots, and results are put
into the slot `out`. -/
inductive Step (α : Type) where
  | leaf (tracked : Bool) (shape : List Nat) (data : List α) (out : String)
  | custom (rule : CustomRule α) (shape : List Nat) (data : List α) (inputs : List String)
      (out : String)
  | binary (op : BinaryOp) (a b out : String)
  | unary (op : UnaryOp) (a out : String)
  | backward (a : String)
  | info (a : String)
  | shape (a : String)
  | gradient (a out : String)
  | accumulate (a : String) (shape : List Nat) (data : List α)
  | clearGradient (a : String)
  | setTracked (a : String) (flag : Bool)
  | setValue (a : String) (data : List α)
  | drop (a : String)
  | linear (inputs outputs : Nat) (out : String)
  | parameters (layer : String) (outs : List String)
  | forward (layer a out : String)
  | adam (params : List String) (rates : AdamRates α) (out : String)
  | sgd (params : List String) (rates : SgdRates α) (out : String)
  | step (optimizer : String)
  | clearGradients (optimizer : String)
  | optimizerState (optimizer : String)

/-- How a node is shown. -/
structure NodeView (α : Type) where
  value : Buffer α
  leaf : Bool
  tracked : Bool
  gradient : Option (Buffer α)

/-- The answers to steps. -/
inductive Answer (α : Type) where
  | done
  | node (view : NodeView α)
  | shape (dims : List Nat)
  | gradient (view : Option (NodeView α))
  | dropped (filled : Bool)
  /-- The shape and the tracking flag of each parameter. -/
  | parameters (params : List (List Nat × Bool))
  | optimizer (parameters : Nat)
  | optimizerState (state : Optimizer α)
  | emptySlot
  | failed (cause : Failure)

/-- The state of a session. -/
structure State (α : Type) where
  store : Store α := {}
  stream : Stream
  log : List Event := []
  nodes : Slots NodeId := {}
  layers : Slots Linear := {}
  optimizers : Slots (Optimizer α) := {}

/-- A part of a step, which may end the step with an answer. -/
abbrev Running (α β : Type) := ExceptT (Answer α) (StateM (State α)) β

variable {α β : Type}

/-! ## Parts of steps -/

/-- What an operation that can fail results in. -/
def perform : Outcome β → Running α β
  | .ok x => pure x
  | .error cause => throw (.failed cause)

/-- What is in a slot; an empty slot ends the step. -/
def filledSlot (slots : State α → Slots β) (name : String) : Running α β := fun s =>
  match (slots s).find? name with
  | some x => (.ok x, s)
  | none => (.error .emptySlot, s)

def nodeAt (name : String) : Running α NodeId := filledSlot State.nodes name

def layerAt (name : String) : Running α Linear := filledSlot State.layers name

def optimizerAt (name : String) : Running α (Optimizer α) := filledSlot State.optimizers name

def setNode (name : String) (n : NodeId) : Running α Unit :=
  modify fun s => { s with nodes := s.nodes.insert name n }

def setOptimizer (name : String) (o : Optimizer α) : Running α Unit :=
  modify fun s => { s with optimizers := s.optimizers.insert name o }

def setStore (store : Store α) : Running α Unit := modify fun s => { s with store }

/-- Puts nodes into slots, in order. -/
def setNodes : List (String × NodeId) → Running α Unit
  | [] => pure ()
  | (name, n) :: rest => do
    setNode name n
    setNodes rest

/-- Shows a node. -/
def view (s : Store α) (n : NodeId) : NodeView α where
  value := s.value n
  leaf := s.isLeaf n
  tracked := s.tracked n
  gradient := (s.gradient n).map s.value

/-- Keeps a new node, and shows it. -/
def keep (out : String) (made : NodeId × Store α) : Running α (Answer α) := do
  setStore made.2
  setNode out made.1
  return .node (view made.2 made.1)

/-- Keeps a new optimizer. -/
def keepOptimizer (out : String) (o : Optimizer α) : Running α (Answer α) := do
  setOptimizer out o
  return .optimizer o.parameters.length

/-! ## Steps -/

variable [Scalar α] [Sampler α]

/-- Runs a step. -/
def run : Step α → Running α (Answer α)
  | .leaf tracked shape data out => do
    let value ← perform (Buffer.fill data.toArray shape)
    let store := (← get).store
    keep out (if tracked then store.parameter value else store.leaf value)
  | .custom rule shape data inputs out => do
    let inputs ← inputs.mapM nodeAt
    let value ← perform (Buffer.fill data.toArray shape)
    keep out ((← get).store.record value (rule.rule inputs.length) inputs)
  | .binary op a b out => do
    let a ← nodeAt a
    let b ← nodeAt b
    keep out (← perform ((← get).store.binary op a b))
  | .unary op a out => do
    let a ← nodeAt a
    keep out (← perform ((← get).store.unary op a))
  | .backward a => do
    let a ← nodeAt a
    let s := (← get).store
    let (result, store) := s.backward a
    set { ← get with store, log := (← get).log ++ s.backwardEvents a }
    perform result
    return .done
  | .info a => do
    let a ← nodeAt a
    return .node (view (← get).store a)
  | .shape a => do
    let a ← nodeAt a
    return .shape ((← get).store.shape a)
  | .gradient a out => do
    let a ← nodeAt a
    let s := (← get).store
    match s.gradient a with
    | none => return .gradient none
    | some g => do
      setNode out g
      return .gradient (some (view s g))
  | .accumulate a shape data => do
    let a ← nodeAt a
    let addend ← perform (Buffer.fill data.toArray shape)
    setStore (← perform ((← get).store.accumulate a addend))
    return .done
  | .clearGradient a => do
    let a ← nodeAt a
    setStore ((← get).store.clearGradient a)
    return .done
  | .setTracked a flag => do
    let a ← nodeAt a
    setStore (← perform ((← get).store.setTracked a flag))
    return .done
  | .setValue a data => do
    let a ← nodeAt a
    let s := (← get).store
    let s := s.setValue a ((s.value a).updateWith (fun _ x => x) data.toArray)
    setStore s
    return .node (view s a)
  | .drop a => do
    let filled := ((← get).nodes.find? a).isSome
    modify fun s => { s with nodes := s.nodes.erase a }
    return .dropped filled
  | .linear inputs outputs out => do
    let s ← get
    let (layer, store, stream) ← perform (s.store.newLinear s.stream inputs outputs)
    set { s with store, stream, layers := s.layers.insert out layer }
    return .done
  | .parameters layer outs => do
    let layer ← layerAt layer
    let s := (← get).store
    setNodes (outs.zip layer.parameters)
    return .parameters (layer.parameters.map fun n => (s.shape n, s.tracked n))
  | .forward layer a out => do
    let layer ← layerAt layer
    let a ← nodeAt a
    keep out (← perform ((← get).store.applyLinear layer a))
  | .adam params rates out => do
    let params ← params.mapM nodeAt
    keepOptimizer out (.adam (← perform (Adam.new (← get).store params rates)))
  | .sgd params rates out => do
    let params ← params.mapM nodeAt
    keepOptimizer out (.sgd (← perform (Sgd.new params rates)))
  | .step optimizer => do
    let o ← optimizerAt optimizer
    let (result, o, store) := o.step (← get).store
    setStore store
    setOptimizer optimizer o
    perform result
    return .done
  | .clearGradients optimizer => do
    let o ← optimizerAt optimizer
    setStore (o.clearGradients (← get).store)
    return .done
  | .optimizerState optimizer => do return .optimizerState (← optimizerAt optimizer)

/-- The answer to a step, and the state after it. -/
def answer (step : Step α) (s : State α) : Answer α × State α :=
  match run step s with
  | (.ok a, s) => (a, s)
  | (.error a, s) => (a, s)

/-- The answers to a list of steps, each with what was reported during the step. -/
def answers : List (Step α) → State α → List (Answer α × List Event)
  | [], _ => []
  | step :: rest, s =>
    let (a, s) := answer step { s with log := [] }
    (a, s.log) :: answers rest s

end DiffTensor.GraphSession
