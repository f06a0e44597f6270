import DiffTensor.Event
import DiffTensor.Graph.Discovery

/-!
# Differentiation from a single result

`backward` starts at a tracked node with a single element, gives it the gradient one,
and carries gradients from results to inputs. Contributions to a node are added up
before the node's own rule runs, so a node has to come after everything that was made
from it. Any order with that property serves (`backwardBy` takes the sorting as an
argument).

A node's gradient is spread only over the inputs that were discovered from the root. At a
leaf it is added onto the gradient that the leaf holds. If something fails on the way, what
has been added until then stays.
-/

namespace DiffTensor

variable {α : Type}

/-- Gradients that have been collected for nodes whose turn has not come. -/
abbrev Pending (α : Type) := NodeId → Option (Buffer α)

namespace Pending

/-- The gradient of one node only. -/
def single (n : NodeId) (g : Buffer α) : Pending α := fun k => if k = n then some g else none

def set (p : Pending α) (n : NodeId) (g : Option (Buffer α)) : Pending α :=
  fun k => if k = n then g else p k

theorem set_self (p : Pending α) (n : NodeId) (g : Option (Buffer α)) : p.set n g n = g :=
  if_pos rfl

theorem set_of_ne (p : Pending α) {n k : NodeId} (g : Option (Buffer α)) (h : k ≠ n) :
    p.set n g k = p k := if_neg h

variable [Scalar α]

/-- Adds a contribution to the gradient of a node. -/
def add (p : Pending α) (n : NodeId) (g : Buffer α) : Outcome (Pending α) :=
  match p n with
  | some held => do return p.set n (← held.accumulate g)
  | none => .ok (p.set n g)

/-- Hands each input its gradient, in order; inputs outside `known` are left out. -/
def spread (p : Pending α) (known : NodeId → Bool) :
    List (NodeId × Buffer α) → Outcome (Pending α)
  | [] => .ok p
  | (n, g) :: rest =>
    if known n then
      match p.add n g with
      | .ok p => p.spread known rest
      | .error e => .error e
    else p.spread known rest

end Pending

namespace Store

variable [Scalar α]

/-- One node's turn: a leaf keeps the gradient that was collected for it, any other node spreads
it over its inputs. -/
def visit (s : Store α) (known : NodeId → Bool) (n : NodeId) (g : Buffer α)
    (pending : Pending α) : Outcome (Pending α × Store α) :=
  match s.origin n with
  | none => do return (pending, ← s.accumulate n g)
  | some made => do
    let grads ← made.rule.gradients g
    if grads.length ≠ made.inputs.length then
      refuse (.gradientCount made.rule.name grads.length made.inputs.length)
    return (← pending.spread known (made.inputs.zip grads), s)

/-- Gives each node in turn its collected gradient (the second loop of `backward`). -/
def sweep (s : Store α) (known : NodeId → Bool) :
    List NodeId → Pending α → Outcome Unit × Store α
  | [], _ => (.ok (), s)
  | n :: rest, pending =>
    match pending n with
    | none => s.sweep known rest pending
    | some g =>
      match s.visit known n g (pending.set n none) with
      | .error e => (.error e, s)
      | .ok (pending, s) => s.sweep known rest pending

/-- Differentiation along a given order of the nodes concerned. -/
def backwardAlong (s : Store α) (root : NodeId) (order : List NodeId) :
    Outcome Unit × Store α :=
  match Buffer.full (s.shape root) (1 : α) with
  | .error e => (.error e, s)
  | .ok ones => s.sweep (s.discover root).index.contains order (.single root ones)

/-- The nodes that differentiation from `root` goes through, as `sort` orders them. The root must
hold a single element and be tracked, and there must be an order. -/
def backwardOrder (sort : Discovery → Option (List NodeId)) (s : Store α) (root : NodeId) :
    Outcome (List NodeId) :=
  if (s.value root).size ≠ 1 then refuse (.notScalar (s.shape root))
  else if !s.tracked root then refuse .untracked
  else
    match sort (s.discover root) with
    | some order => .ok order
    | none => refuse .cyclic

/-- Differentiation from `root`, in the order that `sort` finds. -/
def backwardBy (sort : Discovery → Option (List NodeId)) (s : Store α) (root : NodeId) :
    Outcome Unit × Store α :=
  match s.backwardOrder sort root with
  | .error e => (.error e, s)
  | .ok order => s.backwardAlong root order

/-- Differentiation from `root`. -/
def backward (s : Store α) (root : NodeId) : Outcome Unit × Store α :=
  s.backwardBy Discovery.toposort root

/-- What differentiation reports: how many nodes it goes through, as soon as they are known. -/
def backwardEvents (s : Store α) (root : NodeId) : List Event :=
  match s.backwardOrder Discovery.toposort root with
  | .error _ => []
  | .ok order => [.sweeping order.length]

end Store

end DiffTensor
