import DiffTensor.Graph.Store
import DiffTensor.Proofs.Rule

/-!
# The invariant of the graph

`Store.Sound law` says what holds of a graph at every time: all values can exist in memory, a
recorded operation is tracked and has only older inputs, its rule obeys `law`, and a gradient is
a leaf of its node's shape that belongs to no other node.

`law` is left open because callers differ in what they know about rules: the library's own fit
the shapes around them (`Rule.Fits`), rules from outside are only promised to serve them.

Every change to a graph is a new node or the change of one node, so the invariant is proved for
these two (`Sound.push`, `Sound.modify`), and for each operation from there.
-/

namespace DiffTensor

/-- What is known about recorded rules: the rule, the shapes of its inputs, and that of its
result. -/
abbrev RuleLaw (α : Type) := Rule α → List (List Nat) → List Nat → Prop

/-- Rules that obey the law serve. -/
def RuleLaw.Serves {α : Type} [Scalar α] (law : RuleLaw α) (excuse : Failure → Prop) : Prop :=
  ∀ rule inputs output, Extent.Proper output → law rule inputs output →
    rule.Serves excuse inputs output

theorem RuleLaw.fits_serves {α : Type} [Scalar α] :
    RuleLaw.Serves (α := α) Rule.Fits Rule.Overflows :=
  fun _ _ _ ho h g hg => (Rule.serves_of_fits ho h g hg).mono (fun _ he => he.1) fun _ hP => hP

namespace Store

variable {α : Type} {s s' : Store α} {law : RuleLaw α}

/-- The gradient of a node, as a buffer. -/
def grad (s : Store α) (n : NodeId) : Option (Buffer α) := (s.gradient n).map s.value

structure Sound (law : RuleLaw α) (s : Store α) : Prop where
  values : ∀ n, (s.value n).Sound
  older : ∀ n, ∀ m ∈ s.inputs n, m < n
  recorded : ∀ n made, s.origin n = some made → s.tracked n = true
  lawful : ∀ n made, s.origin n = some made → law made.rule (made.inputs.map s.shape) (s.shape n)
  held : ∀ n g, s.gradient n = some g →
    g < s.nodes.size ∧ s.origin g = none ∧ s.shape g = s.shape n
  apart : ∀ n k g, s.gradient n = some g → s.gradient k = some g → n = k

/-- No recorded operation holds a gradient. -/
def Bare (s : Store α) : Prop := ∀ n, s.origin n ≠ none → s.gradient n = none

/-- The nodes of the first graph are still there, with their origins and shapes. -/
structure Grown (s s' : Store α) : Prop where
  size_le : s.nodes.size ≤ s'.nodes.size
  origin_eq : ∀ n < s.nodes.size, s'.origin n = s.origin n
  shape_eq : ∀ n < s.nodes.size, s'.shape n = s.shape n

theorem Grown.refl (s : Store α) : s.Grown s := ⟨Nat.le_refl _, fun _ _ => rfl, fun _ _ => rfl⟩

theorem Grown.trans {s'' : Store α} (h : s.Grown s') (h' : s'.Grown s'') : s.Grown s'' where
  size_le := Nat.le_trans h.size_le h'.size_le
  origin_eq n hn := (h'.origin_eq n (Nat.lt_of_lt_of_le hn h.size_le)).trans (h.origin_eq n hn)
  shape_eq n hn := (h'.shape_eq n (Nat.lt_of_lt_of_le hn h.size_le)).trans (h.shape_eq n hn)

/-- Nothing but values and gradients has changed, and leaves that are not tracked may have been
added. -/
structure Kept (s s' : Store α) : Prop where
  size_le : s.nodes.size ≤ s'.nodes.size
  origin_eq : s'.origin = s.origin
  tracked_eq : s'.tracked = s.tracked
  shape_eq : ∀ n < s.nodes.size, s'.shape n = s.shape n

theorem Kept.refl (s : Store α) : s.Kept s := ⟨Nat.le_refl _, rfl, rfl, fun _ _ => rfl⟩

theorem Kept.trans {s'' : Store α} (h : s.Kept s') (h' : s'.Kept s'') : s.Kept s'' where
  size_le := Nat.le_trans h.size_le h'.size_le
  origin_eq := h'.origin_eq.trans h.origin_eq
  tracked_eq := h'.tracked_eq.trans h.tracked_eq
  shape_eq n hn := (h'.shape_eq n (Nat.lt_of_lt_of_le hn h.size_le)).trans (h.shape_eq n hn)

theorem Kept.grown (h : s.Kept s') : s.Grown s' :=
  ⟨h.size_le, fun _ _ => by rw [h.origin_eq], h.shape_eq⟩

theorem Kept.inputs_eq (h : s.Kept s') : s'.inputs = s.inputs := by
  funext n
  rw [inputs, h.origin_eq, inputs]

/-! ## Nodes that do not exist -/

theorem node_of_le {n : NodeId} (h : s.nodes.size ≤ n) : s.node n = default := by
  simp [node, Array.getD_eq_getD_getElem?, h]

/-- If all nodes have moderate shapes, so do those that do not exist. -/
theorem moderate_shape (h : ∀ n < s.nodes.size, Layout.Moderate (s.shape n)) (n : NodeId) :
    Layout.Moderate (s.shape n) := by
  by_cases hn : n < s.nodes.size
  · exact h n hn
  · rw [shape, value, node_of_le (Nat.not_lt.1 hn)]
    exact (by decide : Layout.Moderate [0])

theorem lt_size_of_origin {n : NodeId} {made : Recorded α} (h : s.origin n = some made) :
    n < s.nodes.size := by
  by_contra hn
  simp [origin, node_of_le (Nat.not_lt.1 hn), default] at h

theorem lt_size_of_gradient {n g : NodeId} (h : s.gradient n = some g) : n < s.nodes.size := by
  by_contra hn
  simp [gradient, node_of_le (Nat.not_lt.1 hn), default] at h

theorem sound_default : (default : Buffer α).Sound :=
  ⟨Extent.proper_one (by decide), rfl⟩

theorem isLeaf_iff {n : NodeId} : s.isLeaf n = true ↔ s.origin n = none :=
  Option.isNone_iff_eq_none

theorem inputs_of_origin {n : NodeId} {made : Recorded α} (h : s.origin n = some made) :
    s.inputs n = made.inputs := by
  simp [inputs, h]

theorem inputs_of_leaf {n : NodeId} (h : s.origin n = none) : s.inputs n = [] := by
  simp [inputs, h]

theorem sound_empty : Sound law ({} : Store α) := by
  have hd : ∀ n, node ({} : Store α) n = default := fun n => node_of_le (Nat.zero_le n)
  refine ⟨fun n => ?_, fun n m hm => ?_, fun n made h => ?_, fun n made h => ?_,
    fun n g h => ?_, fun n k g h => ?_⟩
  · rw [value, hd]
    exact sound_default
  · simp [inputs, origin, hd, default] at hm
  · simp [origin, hd, default] at h
  · simp [origin, hd, default] at h
  · simp [gradient, hd, default] at h
  · simp [gradient, hd, default] at h

/-! ## New nodes -/

theorem node_push_of_lt {node : Node α} {n : NodeId} (h : n < s.nodes.size) :
    (s.push node).2.node n = s.node n :=
  (node_push s node n).trans (if_neg (Nat.ne_of_lt h))

theorem node_push_self {node : Node α} : (s.push node).2.node s.nodes.size = node :=
  (node_push s node _).trans (if_pos rfl)

theorem lt_size_push (s : Store α) (node : Node α) :
    s.nodes.size < (s.push node).2.nodes.size := by
  rw [size_push]
  exact Nat.lt_succ_self _

theorem shape_push_self {node : Node α} :
    (s.push node).2.shape s.nodes.size = node.value.shape := by
  rw [shape, value, node_push_self]

theorem grown_push (s : Store α) (node : Node α) : s.Grown (s.push node).2 := by
  refine ⟨by rw [size_push]; omega, fun n hn => ?_, fun n hn => ?_⟩
  · rw [origin, node_push_of_lt hn, origin]
  · rw [shape, value, node_push_of_lt hn, shape, value]

/-- A new leaf leaves all origins as they are. -/
theorem origin_push_of_leaf (s : Store α) {node : Node α} (ho : node.origin = none) :
    (s.push node).2.origin = s.origin := by
  funext n
  rw [origin, node_push]
  split
  · rename_i e
    rw [origin, node_of_le (Nat.le_of_eq e.symm), ho]
    rfl
  · rfl

theorem kept_leaf (s : Store α) (v : Buffer α) : s.Kept (s.leaf v).2 := by
  have h := grown_push s { value := v }
  refine ⟨h.size_le, origin_push_of_leaf s rfl, funext fun n => ?_, h.shape_eq⟩
  rw [tracked, Store.leaf, node_push]
  split
  · rename_i e
    rw [tracked, node_of_le (Nat.le_of_eq e.symm)]
    rfl
  · rfl

theorem gradient_push (s : Store α) {node : Node α} (hg : node.gradient = none) :
    (s.push node).2.gradient = s.gradient := by
  funext n
  rw [gradient, node_push]
  split
  · rename_i e
    rw [gradient, node_of_le (Nat.le_of_eq e.symm), hg]
    rfl
  · rfl

/-- Recorded operations have inputs of the same shapes when the graph grows. -/
theorem Sound.map_shape_inputs (h : s.Sound law) (hg : s.Grown s') {n : NodeId} {made : Recorded α}
    (hn : s.origin n = some made) : made.inputs.map s'.shape = made.inputs.map s.shape := by
  refine List.map_congr_left fun m hm => hg.shape_eq m ?_
  have hlt := h.older n m (by rwa [inputs_of_origin hn])
  exact Nat.lt_trans hlt (lt_size_of_origin hn)

/-- A new node with a value that can exist keeps the invariant, if it holds no gradient and, in
case it was recorded, is tracked, has existing inputs, and obeys the law. -/
theorem Sound.push (h : s.Sound law) {node : Node α} (hv : node.value.Sound)
    (hg : node.gradient = none)
    (ho : ∀ made, node.origin = some made → node.tracked = true ∧
      (∀ m ∈ made.inputs, m < s.nodes.size) ∧
      law made.rule (made.inputs.map s.shape) node.value.shape) :
    (s.push node).2.Sound law := by
  have cases_node : ∀ n, ((s.push node).2.node n = node ∧ n = s.nodes.size) ∨
      (s.push node).2.node n = s.node n := by
    intro n
    rw [node_push]
    split
    · exact Or.inl ⟨rfl, by assumption⟩
    · exact Or.inr rfl
  have hgrown := grown_push s node
  refine ⟨fun n => ?_, fun n m hm => ?_, fun n made hn => ?_, fun n made hn => ?_,
    fun n g hn => ?_, fun n k g hn hk => ?_⟩
  · rcases cases_node n with ⟨e, -⟩ | e <;> rw [value, e]
    · exact hv
    · exact h.values n
  · rcases cases_node n with ⟨e, rfl⟩ | e <;> simp only [inputs, origin, e] at hm
    · cases hm' : node.origin with
      | none => simp [hm'] at hm
      | some made => exact (ho made hm').2.1 m (by simpa [hm'] using hm)
    · exact h.older n m hm
  · rcases cases_node n with ⟨e, -⟩ | e <;> simp only [tracked, origin, e] at hn ⊢
    · exact (ho made hn).1
    · exact h.recorded n made hn
  · rcases cases_node n with ⟨e, -⟩ | e <;> simp only [origin, e] at hn <;>
      rw [shape, value, e]
    · obtain ⟨-, hinputs, hlaw⟩ := ho made hn
      rwa [List.map_congr_left fun m hm => hgrown.shape_eq m (hinputs m hm)]
    · rw [h.map_shape_inputs hgrown hn]
      exact h.lawful n made hn
  · rcases cases_node n with ⟨e, -⟩ | e <;> simp only [gradient, e] at hn
    · simp [hg] at hn
    · obtain ⟨hlt, hleaf, hs⟩ := h.held n g hn
      rw [size_push, hgrown.origin_eq g hlt, hgrown.shape_eq g hlt, hleaf, hs,
        hgrown.shape_eq n (lt_size_of_gradient hn)]
      exact ⟨Nat.lt_succ_of_lt hlt, rfl, rfl⟩
  · rcases cases_node n with ⟨e, -⟩ | e <;> simp only [gradient, e] at hn
    · simp [hg] at hn
    rcases cases_node k with ⟨e, -⟩ | e <;> simp only [gradient, e] at hk
    · simp [hg] at hk
    exact h.apart n k g hn hk

theorem Sound.leaf (h : s.Sound law) {v : Buffer α} (hv : v.Sound) : (s.leaf v).2.Sound law :=
  h.push hv rfl nofun

theorem Sound.parameter (h : s.Sound law) {v : Buffer α} (hv : v.Sound) :
    (s.parameter v).2.Sound law :=
  h.push hv rfl nofun

theorem Sound.record (h : s.Sound law) {v : Buffer α} (hv : v.Sound) {rule : Rule α}
    {inputs : List NodeId} (hi : ∀ m ∈ inputs, m < s.nodes.size)
    (hl : law rule (inputs.map s.shape) v.shape) : (s.record v rule inputs).2.Sound law := by
  unfold Store.record
  split
  · refine h.push hv rfl fun made hm => ?_
    cases hm
    exact ⟨rfl, hi, hl⟩
  · exact h.leaf hv

theorem grown_record (s : Store α) (v : Buffer α) (rule : Rule α) (inputs : List NodeId) :
    s.Grown (s.record v rule inputs).2 := by
  unfold Store.record Store.leaf
  split <;> exact grown_push _ _

theorem fst_record (s : Store α) (v : Buffer α) (rule : Rule α) (inputs : List NodeId) :
    (s.record v rule inputs).1 = s.nodes.size := by
  unfold Store.record Store.leaf push
  split <;> rfl

theorem size_record (s : Store α) (v : Buffer α) (rule : Rule α) (inputs : List NodeId) :
    (s.record v rule inputs).2.nodes.size = s.nodes.size + 1 := by
  unfold Store.record Store.leaf
  split <;> exact size_push _ _

/-- Recording an operation appends its node and leaves the others as they are. -/
theorem record_eq (s : Store α) (v : Buffer α) (rule : Rule α) (inputs : List NodeId) :
    ∃ s', s.record v rule inputs = (s.nodes.size, s') ∧ s.nodes.size < s'.nodes.size ∧
      (∀ n < s.nodes.size, s'.node n = s.node n) ∧
      s'.node s.nodes.size =
        { value := v, tracked := inputs.any s.tracked,
          origin := if inputs.any s.tracked then some ⟨rule, inputs⟩ else none } := by
  refine ⟨(s.record v rule inputs).2, ?_, ?_, ?_⟩
  · rw [← fst_record s v rule inputs]
  · rw [size_record]
    exact Nat.lt_succ_self _
  · unfold record leaf
    cases inputs.any s.tracked <;>
      exact ⟨fun n hn => node_push_of_lt hn, node_push_self⟩

/-! ## Changes to one node -/

theorem origin_modify {n : NodeId} {f : Node α → Node α} (hn : n < s.nodes.size)
    (ho : (f (s.node n)).origin = s.origin n) : (s.modify n f).origin = s.origin := by
  funext k
  rw [origin, node_modify s n k f hn]
  split
  · rename_i e
    rw [e, ho]
  · rfl

theorem shape_modify {n : NodeId} {f : Node α → Node α} (hn : n < s.nodes.size)
    (hs : (f (s.node n)).value.shape = s.shape n) : (s.modify n f).shape = s.shape := by
  funext k
  rw [shape, value, node_modify s n k f hn]
  split
  · rename_i e
    rw [e, hs]
  · rfl

/-- Changing a node without its origin keeps the invariant, if the value keeps its shape, a recorded
operation stays tracked, and the gradient is a leaf of the right shape that no other node
holds. -/
theorem Sound.modify (h : s.Sound law) {n : NodeId} {f : Node α → Node α} (hn : n < s.nodes.size)
    (hv : (f (s.node n)).value.Sound) (hs : (f (s.node n)).value.shape = s.shape n)
    (ho : (f (s.node n)).origin = s.origin n)
    (ht : s.origin n ≠ none → (f (s.node n)).tracked = true)
    (hg : ∀ g, (f (s.node n)).gradient = some g →
      g < s.nodes.size ∧ s.origin g = none ∧ s.shape g = s.shape n ∧
        ∀ k, s.gradient k = some g → k = n) :
    (s.modify n f).Sound law := by
  have hnode := fun k => node_modify s n k f hn
  have hshape := shape_modify hn hs
  have horigin := origin_modify hn ho
  have hinputs : (s.modify n f).inputs = s.inputs := by
    funext k
    simp only [inputs, horigin]
  refine ⟨fun k => ?_, fun k m hm => ?_, fun k made hk => ?_, fun k made hk => ?_,
    fun k g hk => ?_, fun k l g hk hl => ?_⟩
  · rw [value, hnode]
    split
    · rename_i e
      rwa [e]
    · exact h.values k
  · exact h.older k m (hinputs ▸ hm)
  · rw [horigin] at hk
    rw [tracked, hnode]
    split
    · rename_i e
      rw [e]
      exact ht (by simp [← e, hk])
    · exact h.recorded k made hk
  · rw [horigin] at hk
    rw [hshape]
    exact h.lawful k made hk
  · rw [size_modify, horigin, hshape]
    rw [gradient, hnode] at hk
    split at hk
    · rename_i e
      rw [e] at hk ⊢
      obtain ⟨h1, h2, h3, -⟩ := hg g hk
      exact ⟨h1, h2, h3⟩
    · exact h.held k g hk
  · rw [gradient, hnode] at hk hl
    split at hk <;> split at hl
    · rename_i e1 e2
      exact e1.trans e2.symm
    · rename_i e1 e2
      rw [e1] at hk
      exact absurd ((hg g hk).2.2.2 l hl) e2
    · rename_i e1 e2
      rw [e2] at hl
      exact absurd ((hg g hl).2.2.2 k hk) e1
    · exact h.apart k l g hk hl

/-- The gradient that a node holds anyway meets the condition of `Sound.modify`. -/
theorem Sound.held_apart (h : s.Sound law) {n g : NodeId} (hg : s.gradient n = some g) :
    g < s.nodes.size ∧ s.origin g = none ∧ s.shape g = s.shape n ∧
      ∀ k, s.gradient k = some g → k = n := by
  obtain ⟨h1, h2, h3⟩ := h.held n g hg
  exact ⟨h1, h2, h3, fun k hk => h.apart k n g hk hg⟩

theorem kept_modify {n : NodeId} {f : Node α → Node α} (hn : n < s.nodes.size)
    (hs : (f (s.node n)).value.shape = s.shape n) (ho : (f (s.node n)).origin = s.origin n)
    (ht : (f (s.node n)).tracked = s.tracked n) : s.Kept (s.modify n f) := by
  refine ⟨Nat.le_of_eq (size_modify ..).symm, origin_modify hn ho, funext fun k => ?_,
    fun k _ => by rw [shape_modify hn hs]⟩
  rw [tracked, node_modify s n k f hn]
  split
  · rename_i e
    rw [e, ht]
  · rfl

/-- A node that does not exist is not changed. -/
theorem modify_of_le {n : NodeId} (f : Node α → Node α) (h : s.nodes.size ≤ n) :
    s.modify n f = s := by
  obtain ⟨nodes⟩ := s
  simp only [modify, Store.mk.injEq]
  refine Array.ext (by simp) fun k h1 h2 => ?_
  have hk : k ≠ n := fun e => by
    simp only at h h2
    omega
  rw [Array.getElem_modify, if_neg (Ne.symm hk)]

theorem Sound.setTracked (h : s.Sound law) {n : NodeId} {flag : Bool}
    (hs : s.setTracked n flag = .ok s') : s'.Sound law := by
  unfold Store.setTracked at hs
  split at hs
  · cases hs
  rename_i hc
  cases hs
  rcases Nat.lt_or_ge n s.nodes.size with hn | hn
  · refine h.modify hn (h.values n) rfl rfl (fun ho => ?_) fun g hg => h.held_apart hg
    simpa [isLeaf, Option.isNone_iff_eq_none, ho] using hc
  · rwa [modify_of_le _ hn]

/-- Switching tracking changes neither origins nor shapes. -/
theorem origin_shape_setTracked {n : NodeId} {flag : Bool} (hs : s.setTracked n flag = .ok s') :
    s'.origin = s.origin ∧ s'.shape = s.shape := by
  unfold Store.setTracked at hs
  split at hs
  · cases hs
  cases hs
  rcases Nat.lt_or_ge n s.nodes.size with hn | hn
  · exact ⟨origin_modify hn rfl, shape_modify hn rfl⟩
  · rw [modify_of_le _ hn]
    exact ⟨rfl, rfl⟩

theorem size_setTracked {n : NodeId} {flag : Bool} (hs : s.setTracked n flag = .ok s') :
    s.nodes.size ≤ s'.nodes.size := by
  unfold Store.setTracked at hs
  split at hs
  · cases hs
  · cases hs
    exact Nat.le_of_eq (size_modify ..).symm

theorem gradient_setTracked {n : NodeId} {flag : Bool} (hs : s.setTracked n flag = .ok s')
    (k : NodeId) : s'.gradient k = s.gradient k := by
  unfold Store.setTracked at hs
  split at hs
  · cases hs
  cases hs
  rcases Nat.lt_or_ge n s.nodes.size with hn | hn
  · rw [gradient, node_modify s n k _ hn]
    split <;> rfl
  · rw [modify_of_le _ hn]

theorem Sound.setValue (h : s.Sound law) {n : NodeId} {v : Buffer α} (hv : v.Sound)
    (hs : v.shape = s.shape n) : (s.setValue n v).Sound law := by
  rcases Nat.lt_or_ge n s.nodes.size with hn | hn
  · refine h.modify hn hv hs rfl (fun ho => ?_) fun g hg => h.held_apart hg
    obtain ⟨made, hm⟩ := Option.ne_none_iff_exists'.1 ho
    exact h.recorded n made hm
  · rwa [Store.setValue, modify_of_le _ hn]

theorem kept_setValue {n : NodeId} {v : Buffer α} (hs : v.shape = s.shape n) :
    s.Kept (s.setValue n v) := by
  rcases Nat.lt_or_ge n s.nodes.size with hn | hn
  · exact kept_modify hn hs rfl rfl
  · rw [Store.setValue, modify_of_le _ hn]
    exact Kept.refl s

theorem value_setValue {n : NodeId} (hn : n < s.nodes.size) (v : Buffer α) (k : NodeId) :
    (s.setValue n v).value k = if k = n then v else s.value k := by
  rw [value, Store.setValue, node_modify s n k _ hn]
  split <;> rfl

theorem gradient_setValue (s : Store α) (n : NodeId) (v : Buffer α) :
    (s.setValue n v).gradient = s.gradient := by
  funext k
  rcases Nat.lt_or_ge n s.nodes.size with hn | hn
  · rw [gradient, Store.setValue, node_modify s n k _ hn]
    split <;> rfl
  · rw [Store.setValue, modify_of_le _ hn]

theorem Sound.clearGradient (h : s.Sound law) (n : NodeId) : (s.clearGradient n).Sound law := by
  rcases Nat.lt_or_ge n s.nodes.size with hn | hn
  · refine h.modify hn (h.values n) rfl rfl (fun ho => ?_) nofun
    obtain ⟨made, hm⟩ := Option.ne_none_iff_exists'.1 ho
    exact h.recorded n made hm
  · rwa [Store.clearGradient, modify_of_le _ hn]

theorem kept_clearGradient (s : Store α) (n : NodeId) : s.Kept (s.clearGradient n) := by
  rcases Nat.lt_or_ge n s.nodes.size with hn | hn
  · exact kept_modify hn rfl rfl rfl
  · rw [Store.clearGradient, modify_of_le _ hn]
    exact Kept.refl s

theorem gradient_clearGradient (s : Store α) (n k : NodeId) :
    (s.clearGradient n).gradient k = if k = n then none else s.gradient k := by
  rcases Nat.lt_or_ge n s.nodes.size with hn | hn
  · rw [gradient, Store.clearGradient, node_modify s n k _ hn]
    split <;> rfl
  · rw [Store.clearGradient, modify_of_le _ hn]
    split
    · rename_i e
      rw [e, gradient, node_of_le hn]
      rfl
    · rfl

/-! ## Gradients -/

section Gradients

variable [Scalar α]

/-- What a node holds after a buffer has been added onto what it held. -/
def gather : Option (Buffer α) → Buffer α → Buffer α
  | none, g => g
  | some held, g => held.plus g

/-- The buffer `g` has been added onto the gradient of node `n`, and that is all. -/
structure Gained (s : Store α) (n : NodeId) (g : Buffer α) (s' : Store α) : Prop where
  kept : s.Kept s'
  here : s'.grad n = some (gather (s.grad n) g)
  elsewhere : ∀ k ≠ n, s'.gradient k = s.gradient k ∧ s'.grad k = s.grad k

omit [Scalar α] in
theorem Sound.grad_shaped (h : s.Sound law) {n : NodeId} {g : Buffer α}
    (hg : s.grad n = some g) : g.Shaped (s.shape n) := by
  obtain ⟨k, hk, rfl⟩ := Option.map_eq_some_iff.1 hg
  exact ⟨(h.values k).full, (h.held n k hk).2.2⟩

theorem shaped_gather {held : Option (Buffer α)} {g : Buffer α} {shape : List Nat}
    (hh : ∀ b, held = some b → b.Shaped shape) (hg : g.Shaped shape) :
    (gather held g).Shaped shape := by
  cases held with
  | none => exact hg
  | some b => exact (hh b rfl).plus hg

/-- Onto an existing gradient a buffer is added in place; no other node holds the same leaf. -/
theorem Sound.gained_some (h : s.Sound law) {n k : NodeId} (hk : s.gradient n = some k)
    {g : Buffer α} (hg : g.Shaped (s.shape n)) :
    (s.setValue k ((s.value k).plus g)).Sound law ∧
      s.Gained n g (s.setValue k ((s.value k).plus g)) := by
  obtain ⟨hlt, -, hs⟩ := h.held n k hk
  have hT := Buffer.tabulates_plus (h.values k).full hg.1 (hs.trans hg.2.symm)
  refine ⟨h.setValue (hT.sound (h.values k).proper) hT.shape_eq, kept_setValue hT.shape_eq, ?_,
    fun m hm => ⟨by rw [gradient_setValue], ?_⟩⟩
  · rw [grad, gradient_setValue, hk, Option.map_some, value_setValue hlt, if_pos rfl, grad, hk]
    rfl
  · rw [grad, gradient_setValue, grad]
    refine Option.map_congr fun l hl => ?_
    have hne : l ≠ k := fun e => hm (h.apart m n k (e ▸ hl) hk)
    rw [value_setValue hlt, if_neg hne]

/-- The first contribution to a gradient becomes a leaf of its own. -/
theorem Sound.gained_none (h : s.Sound law) {n : NodeId} (hn : n < s.nodes.size)
    (hk : s.gradient n = none) {g : Buffer α} (hg : g.Shaped (s.shape n)) :
    let s' := (s.leaf g).2.modify n fun node => { node with gradient := some s.nodes.size }
    s'.Sound law ∧ s.Gained n g s' := by
  intro s'
  have hS : g.Sound := hg.sound (h.values n).proper
  have hL := h.leaf hS
  have hkept : s.Kept (s.leaf g).2 := kept_leaf s g
  have hn' : n < (s.leaf g).2.nodes.size := Nat.lt_of_lt_of_le hn hkept.size_le
  have hfresh : (s.leaf g).2.node s.nodes.size = { value := g } := node_push_self
  have hnode : ∀ m, s'.node m =
      if m = n then { (s.leaf g).2.node m with gradient := some s.nodes.size }
      else (s.leaf g).2.node m := fun m => node_modify _ n m _ hn'
  have hold : ∀ m < s.nodes.size, (s.leaf g).2.node m = s.node m := fun m hm => node_push_of_lt hm
  have hgradient : (s.leaf g).2.gradient = s.gradient := gradient_push s rfl
  have hvalue : ∀ m, s'.value m = (s.leaf g).2.value m := fun m => by
    rw [value, hnode]
    split <;> rfl
  refine ⟨?_, ?_, ?_, fun m hm => ?_⟩
  · refine hL.modify hn' (hL.values n) rfl rfl (fun ho => ?_) fun k he => ?_
    · obtain ⟨made, hm⟩ := Option.ne_none_iff_exists'.1 ho
      exact hL.recorded n made hm
    · obtain rfl : s.nodes.size = k := Option.some.inj he
      refine ⟨by rw [Store.leaf, size_push]; exact Nat.lt_succ_self _, by rw [origin, hfresh], ?_,
        fun m hm => ?_⟩
      · rw [hkept.shape_eq n hn, shape, value, hfresh]
        exact hg.2
      · exact absurd (h.held m _ (hgradient ▸ hm)).1 (Nat.lt_irrefl _)
  · exact hkept.trans (kept_modify hn' rfl rfl rfl)
  · have hgr : s'.gradient n = some s.nodes.size := by
      rw [gradient, hnode, if_pos rfl]
    rw [grad, hgr, grad, hk, Option.map_some, hvalue, value, hfresh]
    rfl
  · have hgr : s'.gradient m = s.gradient m := by
      rw [gradient, hnode, if_neg hm]
      exact congrFun hgradient m
    refine ⟨hgr, ?_⟩
    rw [grad, hgr, grad]
    refine Option.map_congr fun l hl => ?_
    rw [hvalue, value, hold l (h.held m l hl).1, value]

/-- Adding onto the gradient of a node never fails. -/
theorem Sound.accumulate (h : s.Sound law) {n : NodeId} (hn : n < s.nodes.size) {g : Buffer α}
    (hg : g.Shaped (s.shape n)) :
    ∃ s', s.accumulate n g = .ok s' ∧ s'.Sound law ∧ s.Gained n g s' := by
  unfold Store.accumulate
  cases hk : s.gradient n with
  | some k =>
    have hs : (s.value k).shape = g.shape := (h.held n k hk).2.2.trans hg.2.symm
    exact ⟨_, by simp [Buffer.accumulate_eq hs], h.gained_some hk hg⟩
  | none => exact ⟨_, rfl, h.gained_none hn hk hg⟩

end Gradients

end Store

end DiffTensor
