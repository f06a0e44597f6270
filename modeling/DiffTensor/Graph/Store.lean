import DiffTensor.Graph.Rule

/-!
# The graph of recorded operations

A `Store` holds the nodes of the graph, numbered in the order in which they were made.
A node has a value and may have a gradient, which is a node again; it may be *tracked*,
that is, take part in differentiation. A node that came out of an operation with a
tracked input remembers the operation and its inputs; every other node is a *leaf*.

Since inputs exist before the node made from them, they always have smaller numbers.
Nodes are never removed. What can be done to them are the functions of `TensorNode`.
-/

namespace DiffTensor

/-- The number of a node. -/
abbrev NodeId := Nat

/-- The operation that a node came from (`GradNode`). -/
structure Recorded (α : Type) where
  rule : Rule α
  inputs : List NodeId

/-- A value with its part in differentiation (`TensorNode`). -/
structure Node (α : Type) where
  value : Buffer α
  gradient : Option NodeId := none
  tracked : Bool := false
  origin : Option (Recorded α) := none

instance {α : Type} : Inhabited (Node α) := ⟨{ value := default }⟩

/-- All nodes, in the order in which they were made. -/
structure Store (α : Type) where
  nodes : Array (Node α) := #[]

namespace Store

variable {α : Type}

/-- The node with the given number. -/
def node (s : Store α) (n : NodeId) : Node α := s.nodes.getD n default

def value (s : Store α) (n : NodeId) : Buffer α := (s.node n).value

def shape (s : Store α) (n : NodeId) : List Nat := (s.value n).shape

def gradient (s : Store α) (n : NodeId) : Option NodeId := (s.node n).gradient

def tracked (s : Store α) (n : NodeId) : Bool := (s.node n).tracked

def origin (s : Store α) (n : NodeId) : Option (Recorded α) := (s.node n).origin

/-- The inputs of the operation that the node came from; none for a leaf. -/
def inputs (s : Store α) (n : NodeId) : List NodeId := ((s.origin n).map (·.inputs)).getD []

/-- Did the node not come from an operation (`is_leaf`)? -/
def isLeaf (s : Store α) (n : NodeId) : Bool := (s.origin n).isNone

/-- Appends a node. -/
def push (s : Store α) (node : Node α) : NodeId × Store α :=
  (s.nodes.size, { s with nodes := s.nodes.push node })

/-- Changes one node. -/
def modify (s : Store α) (n : NodeId) (f : Node α → Node α) : Store α :=
  { s with nodes := s.nodes.modify n f }

theorem node_push (s : Store α) (node : Node α) (n : NodeId) :
    (s.push node).2.node n = if n = (s.push node).1 then node else s.node n := by
  simp only [push, Store.node, Array.getD_eq_getD_getElem?, Array.getElem?_push]
  split <;> simp

theorem size_push (s : Store α) (node : Node α) :
    (s.push node).2.nodes.size = s.nodes.size + 1 := by
  simp [push]

theorem node_modify (s : Store α) (m n : NodeId) (f : Node α → Node α) (h : m < s.nodes.size) :
    (s.modify m f).node n = if n = m then f (s.node n) else s.node n := by
  simp only [modify, Store.node, Array.getD_eq_getD_getElem?, Array.getElem?_modify]
  grind

theorem size_modify (s : Store α) (n : NodeId) (f : Node α → Node α) :
    (s.modify n f).nodes.size = s.nodes.size := by
  simp [modify]

/-- A new leaf that is not tracked. -/
def leaf (s : Store α) (value : Buffer α) : NodeId × Store α := s.push { value }

/-- A new leaf that is tracked. -/
def parameter (s : Store α) (value : Buffer α) : NodeId × Store α :=
  s.push { value, tracked := true }

/-- The result of an operation (`from_op`). The operation is remembered only if one of its inputs is
tracked. -/
def record (s : Store α) (value : Buffer α) (rule : Rule α) (inputs : List NodeId) :
    NodeId × Store α :=
  if inputs.any s.tracked then s.push { value, tracked := true, origin := some ⟨rule, inputs⟩ }
  else s.leaf value

/-- Turns tracking on or off (`set_requires_grad`). Only leaves can stop being tracked. -/
def setTracked (s : Store α) (n : NodeId) (flag : Bool) : Outcome (Store α) :=
  if !flag && !s.isLeaf n then refuse .leavesOnly
  else .ok (s.modify n fun node => { node with tracked := flag })

/-- Replaces the value of a node. -/
def setValue (s : Store α) (n : NodeId) (value : Buffer α) : Store α :=
  s.modify n fun node => { node with value }

/-- Forgets the gradient of a node (`zero_grad`). The gradient's own node stays as it is. -/
def clearGradient (s : Store α) (n : NodeId) : Store α :=
  s.modify n fun node => { node with gradient := none }

/-- Adds onto the gradient of a node (`accumulate_grad`). The first contribution becomes a new leaf,
which later ones change in place. -/
def accumulate [Scalar α] (s : Store α) (n : NodeId) (g : Buffer α) : Outcome (Store α) :=
  match s.gradient n with
  | some held => do return s.setValue held (← (s.value held).accumulate g)
  | none =>
    let (fresh, s) := s.leaf g
    .ok (s.modify n fun node => { node with gradient := some fresh })

end Store

end DiffTensor
