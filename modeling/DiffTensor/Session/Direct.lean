import DiffTensor.Session.Graph
import DiffTensor.Session.Host

/-!
# The steps of a host session, without the host

`Direct.run` carries out a step of a host session on nodes, layers and optimizers themselves:
there are no wrappers, no handles and no statuses. Most steps are steps of a graph session as
they are. Only new buffers, the random stream and the emptying of slots are dealt with here.

Which library a step names makes no difference, and a step that only looks shows the node.
-/

namespace DiffTensor

/-- What the slots of a kind hold when there are no wrappers. -/
@[reducible] def Item (α : Type) : ResourceKind → Type
  | .tensor => NodeId
  | .layer => Linear
  | .optimizer => Optimizer α

namespace GraphSession.State

variable {α : Type}

/-- The slots of a kind. -/
def items (g : State α) : (kind : ResourceKind) → Slots (Item α kind)
  | .tensor => g.nodes
  | .layer => g.layers
  | .optimizer => g.optimizers

/-- Replaces the slots of a kind. -/
def setItems (g : State α) : (kind : ResourceKind) → Slots (Item α kind) → State α
  | .tensor, slots => { g with nodes := slots }
  | .layer, slots => { g with layers := slots }
  | .optimizer, slots => { g with optimizers := slots }

end GraphSession.State

namespace Direct

open GraphSession (State Running Answer perform keep layerAt)

variable {α : Type} [Scalar α] [Sampler α]

/-- A new leaf with zeros, ones or normal samples. -/
def filled (filling : Filling) (shape : List Nat) (out : String) : Running α (Answer α) := do
  match filling with
  | .zeros => keep out ((← get).store.leaf (← perform (Buffer.zeros shape)))
  | .ones => keep out ((← get).store.leaf (← perform (Buffer.full shape 1)))
  | .normal =>
    let (value, stream) ← perform (Sampler.normals shape (← get).stream)
    modify fun g => { g with stream }
    keep out ((← get).store.leaf value)

/-- Empties a slot. -/
def erase (kind : ResourceKind) (name : String) : Running α (Answer α) := do
  modify fun g => g.setItems kind ((g.items kind).erase name)
  return .done

/-- Runs a step. -/
def run : HostSession.Step α → Running α (Answer α)
  | .seed _ value => do
    modify fun g => { g with stream := .ofSeed value }
    return .done
  | .filled _ filling dims out => filled filling (dims.map Int.toNat) out
  | .ofValues _ values dims out =>
    GraphSession.run (.leaf false ((dims.getD [(values.length : Int)]).map Int.toNat) values out)
  | .binary op a b out => GraphSession.run (.binary op a b out)
  | .unary op a out => GraphSession.run (.unary op a out)
  | .values a | .item a | .info a | .debug a => GraphSession.run (.info a)
  | .setTracked a flag => GraphSession.run (.setTracked a flag)
  | .backward a => GraphSession.run (.backward a)
  | .gradient a out => GraphSession.run (.gradient a out)
  | .linear _ inputs outputs out => GraphSession.run (.linear inputs outputs out)
  | .forward layer a out => GraphSession.run (.forward layer a out)
  | .parameters layer outs => GraphSession.run (.parameters layer outs)
  | .layerInfo layer => do
    let _ ← layerAt layer
    return .done
  | .adam _ params rates out => GraphSession.run (.adam params rates out)
  | .sgd _ params rates out => GraphSession.run (.sgd params rates out)
  | .step optimizer => GraphSession.run (.step optimizer)
  | .clearGradients optimizer => GraphSession.run (.clearGradients optimizer)
  | .optimizerInfo optimizer => GraphSession.run (.optimizerState optimizer)
  | .destroy kind name | .drop kind name => erase kind name
  | .inject _ | .census => return .done

/-- The answer to a step, and the state after it. -/
def answer (step : HostSession.Step α) (g : State α) : Answer α × State α :=
  match run step g with
  | (.ok a, g) => (a, g)
  | (.error a, g) => (a, g)

end Direct

end DiffTensor
