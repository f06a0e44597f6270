import DiffTensor.Proofs.Advance
import DiffTensor.Proofs.Parts
import DiffTensor.Linear

/-!
# What operations on the graph leave alone

A `Scope` says which nodes may be changed, and in what; `Frame` says that a change of the graph has
kept to it. All other nodes have the values, gradients and flags that they had, and no shape
changes at all.

New nodes change nothing. A step of an optimizer writes the values of its parameters that have a
gradient, and differentiation those of gradients that the leaves it gets to hold already; the
leaves that hold none get one.
-/

namespace DiffTensor

variable {α : Type}

/-- The nodes that may be changed. -/
structure Scope where
  /-- Their values may be written. -/
  written : NodeId → Prop := fun _ => False
  /-- They may get a gradient if they have none. -/
  gained : NodeId → Prop := fun _ => False
  /-- They may lose their gradients. -/
  lost : NodeId → Prop := fun _ => False
  /-- They may be tracked from now on, or tracked no longer. -/
  flagged : NodeId → Prop := fun _ => False

namespace Store

/-- From `s` to `s'` nodes have been changed as the scope says, and others have been added. Nodes
that were there do not become gradients. -/
structure Frame (c : Scope) (s s' : Store α) : Prop where
  size_le : s.nodes.size ≤ s'.nodes.size
  shape_eq : ∀ n < s.nodes.size, s'.shape n = s.shape n
  value_eq : ∀ n < s.nodes.size, ¬c.written n → s'.value n = s.value n
  gradient_cases : ∀ n < s.nodes.size, s'.gradient n = s.gradient n ∨
    (s.gradient n = none ∧ c.gained n) ∨ (s'.gradient n = none ∧ c.lost n)
  fresh : ∀ n g, s'.gradient n = some g → s.gradient n = some g ∨ s.nodes.size ≤ g
  tracked_eq : ∀ n < s.nodes.size, ¬c.flagged n → s'.tracked n = s.tracked n

variable {c : Scope} {s s' s'' : Store α} {n : NodeId}

namespace Frame

/-- Nodes that are as they were need no scope. -/
theorem of_node (hs : s.nodes.size ≤ s'.nodes.size)
    (h : ∀ n < s.nodes.size, s'.node n = s.node n) (hg : s'.gradient = s.gradient) :
    Frame c s s' := by
  refine ⟨hs, fun n hn => ?_, fun n hn _ => ?_, fun n _ => .inl (congrFun hg n),
    fun n g h => .inl (hg ▸ h), fun n hn _ => ?_⟩
  · rw [shape, value, h n hn, shape, value]
  · rw [value, h n hn, value]
  · rw [tracked, h n hn, tracked]

theorem refl (s : Store α) : Frame c s s := of_node (Nat.le_refl _) (fun _ _ => rfl) rfl

/-- Changes come one after the other, unless gradients are both lost and gained. -/
theorem trans (h : Frame c s s') (h' : Frame c s' s'')
    (hc : (∀ n, ¬c.gained n) ∨ ∀ n, ¬c.lost n) : Frame c s s'' := by
  have hlt : ∀ n < s.nodes.size, n < s'.nodes.size := fun n hn => Nat.lt_of_lt_of_le hn h.size_le
  refine ⟨Nat.le_trans h.size_le h'.size_le,
    fun n hn => (h'.shape_eq n (hlt n hn)).trans (h.shape_eq n hn),
    fun n hn hw => (h'.value_eq n (hlt n hn) hw).trans (h.value_eq n hn hw), fun n hn => ?_,
    fun n g hg => ?_,
    fun n hn hf => (h'.tracked_eq n (hlt n hn) hf).trans (h.tracked_eq n hn hf)⟩
  · rcases h.gradient_cases n hn with h1 | h1 | h1 <;>
      rcases h'.gradient_cases n (hlt n hn) with h2 | h2 | h2 <;> grind
  · rcases h'.fresh n g hg with hg | hle
    · exact h.fresh n g hg
    · exact .inr (Nat.le_trans h.size_le hle)

theorem push (s : Store α) {node : Node α} (hg : node.gradient = none) :
    Frame c s (s.push node).2 :=
  of_node (grown_push s node).size_le (fun _ hn => node_push_of_lt hn) (gradient_push s hg)

theorem record (s : Store α) (value : Buffer α) (rule : Rule α) (inputs : List NodeId) :
    Frame c s (s.record value rule inputs).2 := by
  unfold Store.record Store.leaf
  split <;> exact push _ rfl

/-- A node may be changed in what the scope says of it. -/
theorem modify {f : Node α → Node α} (hs : (f (s.node n)).value.shape = s.shape n)
    (hv : c.written n ∨ (f (s.node n)).value = s.value n)
    (hg : (f (s.node n)).gradient = s.gradient n ∨ ((f (s.node n)).gradient = none ∧ c.lost n))
    (ht : c.flagged n ∨ (f (s.node n)).tracked = s.tracked n) : Frame c s (s.modify n f) := by
  rcases Nat.lt_or_ge n s.nodes.size with hn | hn
  · have hnode := fun k => node_modify s n k f hn
    refine ⟨Nat.le_of_eq (size_modify ..).symm, fun k _ => ?_, fun k _ hw => ?_, fun k _ => ?_,
      fun k g hk => .inl ?_, fun k _ hf => ?_⟩
    · rw [shape_modify hn hs]
    all_goals by_cases e : k = n
    · rw [value, hnode, if_pos e, e]
      exact hv.resolve_left (e ▸ hw)
    · rw [value, hnode, if_neg e, value]
    · rw [gradient, hnode, if_pos e, e]
      exact hg.imp_right .inr
    · rw [gradient, hnode, if_neg e]
      exact .inl rfl
    · rw [gradient, hnode, if_pos e, e] at hk
      rcases hg with hg | ⟨hg, -⟩ <;> rw [hg] at hk
      · exact e ▸ hk
      · cases hk
    · rwa [gradient, hnode, if_neg e] at hk
    · rw [tracked, hnode, if_pos e, e]
      exact ht.resolve_left (e ▸ hf)
    · rw [tracked, hnode, if_neg e, tracked]
  · rw [modify_of_le f hn]
    exact refl s

theorem setValue {v : Buffer α} (hc : c.written n) (hv : v.shape = s.shape n) :
    Frame c s (s.setValue n v) := modify hv (.inl hc) (.inl rfl) (.inr rfl)

theorem clearGradient (hc : c.lost n) : Frame c s (s.clearGradient n) :=
  modify rfl (.inr rfl) (.inr ⟨rfl, hc⟩) (.inr rfl)

theorem setTracked {flag : Bool} (hc : c.flagged n) (hs : s.setTracked n flag = .ok s') :
    Frame c s s' := by
  unfold Store.setTracked at hs
  split at hs
  · cases hs
  · cases hs
    exact modify rfl (.inr rfl) (.inl rfl) (.inl hc)

/-! ## Operations -/

section

variable [Scalar α] {made : NodeId × Store α}

theorem binary {op : BinaryOp} {a b : NodeId} (h : s.binary op a b = .ok made) :
    Frame c s made.2 := by
  obtain ⟨y, -, h⟩ := Outcome.bind_eq_ok_iff.1 h
  cases h
  exact record ..

theorem unary {op : UnaryOp} {a : NodeId} (h : s.unary op a = .ok made) : Frame c s made.2 := by
  obtain ⟨y, -, h⟩ := Outcome.bind_eq_ok_iff.1 h
  cases h
  exact record ..

theorem applyLinear {layer : Linear} {x : NodeId} (h : s.applyLinear layer x = .ok made) :
    Frame c s made.2 := by
  obtain ⟨y, -, h⟩ := Outcome.bind_eq_ok_iff.1 h
  cases h
  exact record ..

theorem newLinear [Sampler α] {stream : Stream} {inputs outputs : Nat}
    {made : Linear × Store α × Stream} (h : s.newLinear stream inputs outputs = .ok made) :
    Frame {} s made.2.1 := by
  obtain ⟨-, -, _, _, _, -, -, -, hs⟩ := newLinear_inv h
  rw [hs]
  exact (push s rfl).trans (push _ rfl) (.inl nofun)

end

end Frame

end Store

/-! ## Optimizers -/

section Optimizers

open Store (Frame)

variable [Scalar α] {c : Scope} {s : Store α}

omit [Scalar α] in
/-- What each part writes in a scope all of them write in it, one after the other. -/
theorem Method.runAll_frame {P : Type} {m : Method α P} (hg : ∀ n, ¬c.gained n)
    (hone : ∀ s p, (s.gradient (m.parameter p) ≠ none → c.written (m.parameter p)) →
      Frame c s (m.part s p).2.2) {parts : List P}
    (hc : ∀ p ∈ parts, s.gradient (m.parameter p) ≠ none → c.written (m.parameter p)) :
    Frame c s (m.runAll parts s).2.2 := by
  induction parts generalizing s with
  | nil => exact .refl s
  | cons p rest ih =>
    obtain ⟨hp, hrest⟩ := List.forall_mem_cons.1 hc
    have hF := hone s p hp
    rw [← Method.gradient_part s p] at hrest
    rw [Method.runAll]
    rcases hpart : m.part s p with ⟨_ | _, q, s'⟩ <;> rw [hpart] at hF hrest
    · exact hF
    · exact hF.trans (ih hrest) (.inl hg)

/-- One parameter's part writes its value, if it has a gradient. -/
theorem Adam.stepOne_frame (rates : AdamRates α) (t : Nat) (s : Store α) (p : Moments α)
    (hc : s.gradient p.parameter ≠ none → c.written p.parameter) :
    Frame c s (stepOne rates t s p).2.2 := by
  unfold stepOne
  split
  · exact .refl s
  · exact .refl s
  · rename_i g hg
    have hn := hc (Store.gradient_of_decayedGradient hg)
    split
    · exact .refl s
    · dsimp only
      split
      · exact .refl s
      · split
        · exact .refl s
        · exact .setValue hn rfl

theorem Sgd.stepOne_frame (rates : SgdRates α) (s : Store α) (p : Velocity α)
    (hc : s.gradient p.parameter ≠ none → c.written p.parameter) :
    Frame c s (stepOne rates s p).2.2 := by
  unfold stepOne
  split
  · exact .refl s
  · exact .refl s
  · rename_i g hg
    have hn := hc (Store.gradient_of_decayedGradient hg)
    split
    · exact .refl s
    · exact .setValue hn rfl

/-- A step writes the values of the parameters that have a gradient. -/
theorem Optimizer.step_frame (opt : Optimizer α) (s : Store α) :
    Frame { written := fun n => n ∈ opt.parameters ∧ s.gradient n ≠ none } s (opt.step s).2.2 ∧
      (opt.step s).2.1.parameters = opt.parameters := by
  cases opt with
  | adam state =>
    by_cases ht : state.steps < Adam.lastStep
    · rw [Optimizer.step_adam state.rates ht]
      refine ⟨Method.runAll_frame ?_ (Adam.stepOne_frame _ _)
        fun p hp hn => ⟨List.mem_map_of_mem hp, hn⟩, ?_⟩
      · exact nofun
      · exact Method.parameters_runAll (m := Adam.method state.rates (state.steps + 1))
    · rw [Optimizer.step_adam_of_le state.rates ht]
      exact ⟨.refl s, rfl⟩
  | sgd state =>
    rw [Optimizer.step_sgd state.rates]
    refine ⟨Method.runAll_frame ?_ (Sgd.stepOne_frame _)
      fun p hp hn => ⟨List.mem_map_of_mem hp, hn⟩, ?_⟩
    · exact nofun
    · exact Method.parameters_runAll (m := Sgd.method state.rates)

omit [Scalar α] in
/-- Its parameters lose their gradients. -/
theorem Optimizer.clearGradients_frame (opt : Optimizer α) (s : Store α) :
    Frame { lost := (· ∈ opt.parameters) } s (opt.clearGradients s) := by
  have hall : ∀ (params : List NodeId) (s : Store α), (∀ n ∈ params, n ∈ opt.parameters) →
      Frame { lost := (· ∈ opt.parameters) } s (params.foldl Store.clearGradient s) := by
    intro params
    induction params with
    | nil => exact fun s _ => .refl s
    | cons n rest ih =>
      intro s hp
      obtain ⟨hn, hrest⟩ := List.forall_mem_cons.1 hp
      exact (Frame.clearGradient hn).trans (ih _ hrest) (.inl nofun)
  exact hall opt.parameters s fun _ h => h

omit [Scalar α] in
theorem Optimizer.gradient_clearGradients (opt : Optimizer α) (s : Store α) {n : NodeId}
    (hn : n ∈ opt.parameters) : (opt.clearGradients s).gradient n = none := by
  have hall : ∀ (params : List NodeId) (s : Store α), n ∈ params ∨ s.gradient n = none →
      (params.foldl Store.clearGradient s).gradient n = none := by
    intro params
    induction params with
    | nil =>
      intro s h
      exact h.resolve_left List.not_mem_nil
    | cons m rest ih =>
      intro s h
      refine ih _ ?_
      rw [Store.gradient_clearGradient]
      by_cases hm : n = m
      · exact .inr (if_pos hm)
      · rw [if_neg hm]
        exact h.imp_left fun h => (List.mem_cons.1 h).resolve_left hm
  exact hall opt.parameters s (.inl hn)

end Optimizers

namespace Store

/-! ## Differentiation -/

variable [Scalar α] {s s' s'' : Store α} {leaf : NodeId → Prop}

/-- What may change where gradients are added to those of certain leaves. -/
def gathering (s : Store α) (leaf : NodeId → Prop) : Scope where
  written n := ∃ m, leaf m ∧ s.gradient m = some n
  gained := leaf

/-- Gradients have been added to those of certain leaves. -/
structure Gathered (leaf : NodeId → Prop) (s s' : Store α) : Prop where
  frame : Frame (s.gathering leaf) s s'
  origin_eq : s'.origin = s.origin

omit [Scalar α] in
theorem Gathered.refl (s : Store α) : Gathered leaf s s := ⟨.refl s, rfl⟩

omit [Scalar α] in
theorem Gathered.trans (h : Gathered leaf s s') (h' : Gathered leaf s' s'') :
    Gathered leaf s s'' := by
  refine ⟨?_, h'.origin_eq.trans h.origin_eq⟩
  have hlt : ∀ n < s.nodes.size, n < s'.nodes.size :=
    fun n hn => Nat.lt_of_lt_of_le hn h.frame.size_le
  -- The second change may write gradients that the first has made, but these are new nodes.
  have hF : ∀ n < s.nodes.size,
      ¬(s.gathering leaf).written n → ¬(s'.gathering leaf).written n := by
    rintro n hn hw ⟨m, hm, hg⟩
    rcases h.frame.fresh m n hg with hg | hle
    · exact hw ⟨m, hm, hg⟩
    · exact Nat.not_le.2 hn hle
  refine ⟨Nat.le_trans h.frame.size_le h'.frame.size_le,
    fun n hn => (h'.frame.shape_eq n (hlt n hn)).trans (h.frame.shape_eq n hn),
    fun n hn hw => (h'.frame.value_eq n (hlt n hn) (hF n hn hw)).trans (h.frame.value_eq n hn hw),
    fun n hn => ?_, fun n g hg => ?_,
    fun n hn hf => (h'.frame.tracked_eq n (hlt n hn) hf).trans (h.frame.tracked_eq n hn hf)⟩
  · rcases h.frame.gradient_cases n hn with h1 | h1 | h1
    · rcases h'.frame.gradient_cases n (hlt n hn) with h2 | h2 | h2
      · exact .inl (h2.trans h1)
      · exact .inr (.inl ⟨h1 ▸ h2.1, h2.2⟩)
      · exact h2.2.elim
    · exact .inr (.inl h1)
    · exact h1.2.elim
  · rcases h'.frame.fresh n g hg with hg | hle
    · exact h.frame.fresh n g hg
    · exact .inr (Nat.le_trans h.frame.size_le hle)

omit [Scalar α] in
/-- A node that holds no gradient gets a new node for one. -/
theorem Frame.gain {c : Scope} {n : NodeId} (hc : c.gained n) (hn : s.gradient n = none)
    (v : Buffer α) : Frame c s
      ((s.leaf v).2.modify n fun node => { node with gradient := some s.nodes.size }) := by
  have hleaf : Frame c s (s.leaf v).2 := .push s rfl
  rcases Nat.lt_or_ge n (s.leaf v).2.nodes.size with hlt | hge
  · have hnode := fun k => node_modify (s.leaf v).2 n k
      (fun node => { node with gradient := some s.nodes.size }) hlt
    refine ⟨?_, fun k hk => ?_, fun k hk hw => ?_, fun k hk => ?_, fun k g hg => ?_,
      fun k hk hf => ?_⟩
    · rw [size_modify]
      exact hleaf.size_le
    · rw [shape_modify hlt rfl, hleaf.shape_eq k hk]
    · rw [value, hnode, ← hleaf.value_eq k hk hw]
      split <;> rfl
    · by_cases e : k = n
      · exact .inr (.inl (e ▸ ⟨hn, hc⟩))
      · rw [gradient, hnode, if_neg e]
        exact .inl (congrFun (gradient_push s rfl) k)
    · rw [gradient, hnode] at hg
      split at hg
      · exact .inr (Nat.le_of_eq (Option.some.inj hg))
      · exact hleaf.fresh k g hg
    · rw [tracked, hnode, ← hleaf.tracked_eq k hk hf]
      split <;> rfl
  · rw [modify_of_le _ hge]
    exact hleaf

theorem gathered_accumulate {n : NodeId} {g : Buffer α} (hn : leaf n)
    (h : s.accumulate n g = .ok s') : Gathered leaf s s' := by
  unfold Store.accumulate at h
  split at h
  · rename_i held hheld
    obtain ⟨v, hv, h⟩ := Outcome.bind_eq_ok_iff.1 h
    cases h
    have hshape : v.shape = s.shape held := by
      unfold Buffer.accumulate at hv
      split at hv
      · cases hv
        rfl
      · cases hv
    exact ⟨.setValue ⟨n, hn, hheld⟩ hshape, (kept_setValue hshape).origin_eq⟩
  · rename_i hnone
    cases h
    refine ⟨.gain hn hnone g, ?_⟩
    rw [← (kept_leaf s g).origin_eq]
    rcases Nat.lt_or_ge n (s.leaf g).2.nodes.size with hlt | hge
    · exact origin_modify hlt rfl
    · exact congrArg _ (modify_of_le _ hge)

theorem gathered_visit {known : NodeId → Bool} {n : NodeId} {g : Buffer α}
    {pending : Pending α} {new : Pending α × Store α} (hn : s.origin n = none → leaf n)
    (h : s.visit known n g pending = .ok new) : Gathered leaf s new.2 := by
  unfold Store.visit at h
  split at h
  · rename_i ho
    obtain ⟨s', hs, h⟩ := Outcome.bind_eq_ok_iff.1 h
    cases h
    exact gathered_accumulate (hn ho) hs
  · obtain ⟨grads, -, h⟩ := Outcome.bind_eq_ok_iff.1 h
    split at h
    · cases h
    · obtain ⟨pending', -, h⟩ := Outcome.bind_eq_ok_iff.1 h
      cases h
      exact .refl s

theorem gathered_sweep (known : NodeId → Bool) : ∀ (order : List NodeId) (s : Store α)
    (pending : Pending α), (∀ n ∈ order, s.origin n = none → leaf n) →
    Gathered leaf s (s.sweep known order pending).2
  | [], s, _, _ => .refl s
  | n :: rest, s, pending, h => by
    obtain ⟨hn, hrest⟩ := List.forall_mem_cons.1 h
    unfold sweep
    split
    · exact gathered_sweep known rest s pending hrest
    · split
      · exact .refl s
      · rename_i g _ new hv
        have hone := gathered_visit hn hv
        exact hone.trans (gathered_sweep known rest _ _ fun m hm => hone.origin_eq ▸ hrest m hm)

/-- The leaves that differentiation from `root` adds gradients to. -/
def ReachesLeaf (s : Store α) (root n : NodeId) : Prop :=
  s.Reaches root n ∧ s.tracked n = true ∧ s.isLeaf n = true

/-- Differentiation adds gradients to tracked leaves that the root was made from, and does nothing
else, even if it fails on the way. -/
theorem Healthy.backward_frame (h : s.Healthy) (root : NodeId) :
    Frame (s.gathering (s.ReachesLeaf root)) s (s.backward root).2 := by
  rw [Store.backward]
  rcases backwardBy_cases h.sound root Discovery.isToposort_toposort with
    ⟨cause, hb⟩ | ⟨-, ht, order, hT, hb⟩
  · rw [hb]
    exact .refl s
  · obtain ⟨-, hmem, -⟩ := topological_discover ht hT
    rw [hb, backwardAlong]
    split
    · exact .refl s
    · refine (gathered_sweep _ order s _ fun n hn ho => ?_).frame
      have hr := (hmem n).1 hn
      exact ⟨hr, hr.tracked ht, isLeaf_iff.2 ho⟩

end Store

end DiffTensor
