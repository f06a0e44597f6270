import DiffTensor.Graph.Store

/-!
# The graph behind a result

Differentiation first finds out which nodes it concerns. `discover` starts at the root and
works through a stack: the tracked inputs of each node that is taken from it get an edge,
and those that are met for the first time are indexed and put onto the stack. An input that
occurs several times in one operation still makes a single edge.

`toposort` then puts the indexed nodes into an order in which every result comes before its
inputs; it finds one whenever the edges form no cycle.
-/

namespace DiffTensor

/-- The nodes that have been met, in the order in which they were met, and the edges from results
to inputs. -/
structure Discovery where
  index : List NodeId
  edges : List (NodeId × NodeId) := []
  deriving DecidableEq, Repr

namespace Discovery

/-- Adds a node to the index. -/
def meet (d : Discovery) (n : NodeId) : Discovery := { d with index := d.index ++ [n] }

/-- Adds an edge, unless it is there already (`update_edge`). -/
def draw (d : Discovery) (edge : NodeId × NodeId) : Discovery :=
  if edge ∈ d.edges then d else { d with edges := d.edges ++ [edge] }

/-- Draws edges from `n` to its inputs; inputs met for the first time go onto the stack. -/
def link (n : NodeId) : List NodeId → List NodeId → Discovery → List NodeId × Discovery
  | [], stack, d => (stack, d)
  | m :: rest, stack, d =>
    if m ∈ d.index then link n rest stack (d.draw (n, m))
    else link n rest (m :: stack) ((d.meet m).draw (n, m))

@[simp] theorem index_draw (d : Discovery) (edge : NodeId × NodeId) :
    (d.draw edge).index = d.index := by
  unfold draw
  split <;> rfl

/-- How many of the first `size` nodes have not been met. -/
def unmet (size : Nat) (d : Discovery) : Nat := ((List.range size).filter (· ∉ d.index)).length

theorem unmet_meet_lt {size n : Nat} {d : Discovery} (hn : n < size) (h : n ∉ d.index) :
    (d.meet n).unmet size < d.unmet size := by
  have e : (List.range size).filter (· ∉ (d.meet n).index) =
      ((List.range size).filter (· ∉ d.index)).filter (· ≠ n) := by
    rw [List.filter_filter]
    exact List.filter_congr fun k _ => by simp [meet, not_or, and_comm]
  unfold unmet
  rw [e, List.length_filter_lt_length_iff_exists]
  exact ⟨n, by simp [hn, h], by simp⟩

/-- What goes onto the stack has not been met before. -/
theorem length_link_le {size n : Nat} : ∀ (inputs stack : List NodeId) (d : Discovery),
    (∀ m ∈ inputs, m < size) →
    (link n inputs stack d).1.length + (link n inputs stack d).2.unmet size ≤
      stack.length + d.unmet size
  | [], _, _, _ => Nat.le_refl _
  | m :: rest, stack, d, h => by
    have hr : ∀ k ∈ rest, k < size := fun k hk => h k (by simp [hk])
    have draws : ∀ (d : Discovery) e, (d.draw e).unmet size = d.unmet size := fun d e => by
      simp [unmet]
    unfold link
    split
    · simpa [draws] using length_link_le rest stack (d.draw (n, m)) hr
    · rename_i hm
      have ih := length_link_le (n := n) rest (m :: stack) ((d.meet m).draw (n, m)) hr
      have := unmet_meet_lt (h m (by simp)) hm
      rw [draws, List.length_cons] at ih
      omega

/-- Takes away, again and again, the first of the remaining nodes that is no input of another
one. -/
def sortRemaining (edges : List (NodeId × NodeId)) (remaining : List NodeId) :
    Option (List NodeId) :=
  if remaining = [] then some []
  else
    match _next : remaining.find? fun n => remaining.all fun m => (m, n) ∉ edges with
    | none => none
    | some n => (sortRemaining edges (remaining.erase n)).map (n :: ·)
termination_by remaining.length
decreasing_by
  have hm := List.mem_of_find?_eq_some _next
  have := List.length_pos_of_mem hm
  rw [List.length_erase_of_mem hm]
  omega

/-- An order of the indexed nodes in which results come before their inputs. Among the nodes that
could be next, the newest one is. -/
def toposort (d : Discovery) : Option (List NodeId) :=
  sortRemaining d.edges (d.index.mergeSort fun a b => b ≤ a)

end Discovery

namespace Store

variable {α : Type}

/-- The tracked inputs of a node. -/
def trackedInputs (s : Store α) (n : NodeId) : List NodeId := (s.inputs n).filter s.tracked

/-- A node that does not exist is not tracked. -/
theorem lt_size_of_tracked {s : Store α} {n : NodeId} (h : s.tracked n = true) :
    n < s.nodes.size := by
  by_cases hn : n < s.nodes.size
  · exact hn
  · simp [tracked, node, hn, default] at h

theorem lt_size_of_mem_trackedInputs {s : Store α} {n m : NodeId}
    (h : m ∈ s.trackedInputs n) : m < s.nodes.size :=
  lt_size_of_tracked (List.mem_filter.1 h).2

/-- Works through the stack. -/
def explore (s : Store α) : List NodeId → Discovery → Discovery
  | [], d => d
  | n :: stack, d =>
    s.explore (Discovery.link n (s.trackedInputs n) stack d).1
      (Discovery.link n (s.trackedInputs n) stack d).2
termination_by stack d => stack.length + d.unmet s.nodes.size
decreasing_by
  have := Discovery.length_link_le (n := n) (s.trackedInputs n) stack d
    fun _ => lt_size_of_mem_trackedInputs
  rw [List.length_cons]
  omega

/-- The nodes that `root` was made from through tracked inputs, and `root` itself (the first loop of
`backward`). -/
def discover (s : Store α) (root : NodeId) : Discovery := s.explore [root] { index := [root] }

end Store

end DiffTensor
