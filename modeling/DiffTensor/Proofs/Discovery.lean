import Mathlib.Data.Finite.Defs
import Mathlib.Data.Fintype.Card
import Mathlib.Data.Fintype.EquivFin
import Mathlib.Logic.Relation
import Mathlib.Order.WellFounded
import DiffTensor.Graph.Discovery
import DiffTensor.Proofs.Store

/-!
# What is discovered, and in which order it is sorted

`discover` indexes exactly the nodes that can be reached from the root along tracked inputs, each
of them once, and draws exactly the edges between them (`mem_index_discover`,
`mem_edges_discover`). The invariant of the worklist is `Explored`: whatever has been met and is
not on the stack any more has all of its edges.

Edges lead to older nodes, so they form no cycle. Sorting is only known by what it promises for
such graphs (`IsToposort`); the sorting of the model keeps that promise
(`isToposort_toposort`).
-/

namespace DiffTensor

namespace Discovery

/-! ## Drawing the edges of one node -/

theorem mem_draw {d : Discovery} {edge e : NodeId × NodeId} :
    e ∈ (d.draw edge).edges ↔ e ∈ d.edges ∨ e = edge := by
  unfold draw
  split
  · rename_i h
    exact ⟨Or.inl, fun h' => h'.elim id fun h' => h' ▸ h⟩
  · simp

theorem mem_index_meet {d : Discovery} {n k : NodeId} :
    k ∈ (d.meet n).index ↔ k ∈ d.index ∨ k = n := by
  simp [meet]

theorem mem_index_link {n k : NodeId} : ∀ (inputs stack : List NodeId) (d : Discovery),
    k ∈ (link n inputs stack d).2.index ↔ k ∈ d.index ∨ k ∈ inputs
  | [], _, _ => by simp [link]
  | m :: rest, stack, d => by
    unfold link
    split
    · rename_i hm
      rw [mem_index_link rest, index_draw, List.mem_cons]
      exact ⟨fun h => h.imp_right Or.inr, fun h => h.elim Or.inl fun h => h.elim
        (fun e => Or.inl (e ▸ hm)) Or.inr⟩
    · rw [mem_index_link rest, index_draw, mem_index_meet, List.mem_cons, or_assoc]

theorem mem_edges_link {n : NodeId} {e : NodeId × NodeId} :
    ∀ (inputs stack : List NodeId) (d : Discovery),
    e ∈ (link n inputs stack d).2.edges ↔ e ∈ d.edges ∨ ∃ m ∈ inputs, e = (n, m)
  | [], _, _ => by simp [link]
  | m :: rest, stack, d => by
    unfold link
    split <;> rw [mem_edges_link rest, mem_draw] <;> simp [meet, or_assoc]

/-- The stack gets what has been met for the first time. -/
theorem mem_stack_link {n k : NodeId} : ∀ (inputs stack : List NodeId) (d : Discovery),
    k ∈ (link n inputs stack d).1 ↔ k ∈ stack ∨ k ∈ inputs ∧ k ∉ d.index
  | [], _, _ => by simp [link]
  | m :: rest, stack, d => by
    unfold link
    split
    · rename_i hm
      rw [mem_stack_link rest, index_draw, List.mem_cons]
      refine or_congr_right (and_congr_left fun hk => ?_)
      exact (or_iff_right fun e : k = m => hk (e ▸ hm)).symm
    · rename_i hm
      rw [mem_stack_link rest, index_draw, mem_index_meet, List.mem_cons, List.mem_cons]
      by_cases e : k = m
      · simp [e, hm]
      · simp [e]

theorem nodup_link {n : NodeId} : ∀ (inputs stack : List NodeId) (d : Discovery),
    d.index.Nodup → (link n inputs stack d).2.index.Nodup
  | [], _, _, h => h
  | m :: rest, stack, d, h => by
    unfold link
    split
    · exact nodup_link rest _ _ (by rwa [index_draw])
    · rename_i hm
      refine nodup_link rest _ _ ?_
      rw [index_draw, meet, List.nodup_append]
      refine ⟨h, List.nodup_singleton m, fun a ha b hb e => hm ?_⟩
      rwa [← List.mem_singleton.1 hb, ← e]

end Discovery

namespace Store

variable {α : Type} {s : Store α} {law : RuleLaw α}

/-! ## Reachable nodes -/

/-- There is a way from `n` down to `m` along tracked inputs. -/
def Reaches (s : Store α) : NodeId → NodeId → Prop :=
  Relation.ReflTransGen fun n m => m ∈ s.trackedInputs n

theorem mem_trackedInputs {n m : NodeId} :
    m ∈ s.trackedInputs n ↔ m ∈ s.inputs n ∧ s.tracked m = true := by
  simp [trackedInputs]

theorem Reaches.tracked {root n : NodeId} (h : s.Reaches root n) (hr : s.tracked root = true) :
    s.tracked n = true := by
  cases h with
  | refl => exact hr
  | tail _ hm => exact (mem_trackedInputs.1 hm).2

/-- What holds of the worklist at any time. -/
structure Explored (s : Store α) (root : NodeId) (stack : List NodeId) (d : Discovery) :
    Prop where
  distinct : d.index.Nodup
  started : root ∈ d.index
  reached : ∀ n ∈ d.index, s.Reaches root n
  noted : ∀ n ∈ stack, n ∈ d.index
  real : ∀ n m, (n, m) ∈ d.edges → n ∈ d.index ∧ m ∈ s.trackedInputs n
  finished : ∀ n ∈ d.index, n ∉ stack → ∀ m ∈ s.trackedInputs n, m ∈ d.index ∧ (n, m) ∈ d.edges

theorem Explored.link {root n : NodeId} {stack : List NodeId} {d : Discovery}
    (h : s.Explored root (n :: stack) d) :
    s.Explored root (Discovery.link n (s.trackedInputs n) stack d).1
      (Discovery.link n (s.trackedInputs n) stack d).2 := by
  have hn : n ∈ d.index := h.noted n (by simp)
  refine ⟨Discovery.nodup_link _ _ _ h.distinct, ?_, fun k hk => ?_, fun k hk => ?_,
    fun k m hk => ?_, fun k hk hs m hm => ?_⟩
  · exact (Discovery.mem_index_link ..).2 (Or.inl h.started)
  · rcases (Discovery.mem_index_link ..).1 hk with hk | hk
    · exact h.reached k hk
    · exact (h.reached n hn).tail hk
  · rcases (Discovery.mem_stack_link ..).1 hk with hk | ⟨hk, -⟩ <;>
      rw [Discovery.mem_index_link]
    · exact Or.inl (h.noted k (by simp [hk]))
    · exact Or.inr hk
  · rw [Discovery.mem_index_link]
    rcases (Discovery.mem_edges_link ..).1 hk with hk | ⟨m', hm', e⟩
    · exact ⟨Or.inl (h.real k m hk).1, (h.real k m hk).2⟩
    · obtain ⟨rfl, rfl⟩ := Prod.mk.inj e
      exact ⟨Or.inl hn, hm'⟩
  · rw [Discovery.mem_index_link, Discovery.mem_edges_link]
    rw [Discovery.mem_stack_link, not_or, not_and, not_not] at hs
    by_cases e : k = n
    · subst e
      exact ⟨Or.inr hm, Or.inr ⟨m, hm, rfl⟩⟩
    · have hk' : k ∈ d.index := ((Discovery.mem_index_link ..).1 hk).elim id hs.2
      obtain ⟨h1, h2⟩ := h.finished k hk' (by simp [e, hs.1]) m hm
      exact ⟨Or.inl h1, Or.inl h2⟩

theorem Explored.explore {root : NodeId} : ∀ {stack : List NodeId} {d : Discovery},
    s.Explored root stack d → s.Explored root [] (s.explore stack d) := by
  intro stack d
  induction stack, d using Store.explore.induct s with
  | case1 d =>
    intro h
    rwa [Store.explore]
  | case2 n stack d ih =>
    intro h
    rw [Store.explore]
    exact ih h.link

theorem explored_discover (s : Store α) (root : NodeId) : s.Explored root [] (s.discover root) := by
  refine Explored.explore ⟨List.nodup_singleton root, by simp, fun n hn => ?_, by simp, by simp,
    fun n hn hs => ?_⟩
  · rw [List.mem_singleton.1 hn]
    exact .refl
  · exact absurd hn (by simpa using hs)

/-- Exactly the nodes that can be reached are indexed. -/
theorem mem_index_discover {root n : NodeId} :
    n ∈ (s.discover root).index ↔ s.Reaches root n := by
  have h := explored_discover s root
  refine ⟨h.reached n, fun hr => ?_⟩
  induction hr with
  | refl => exact h.started
  | tail _ hm ih => exact (h.finished _ ih (by simp) _ hm).1

theorem mem_edges_discover {root n m : NodeId} :
    (n, m) ∈ (s.discover root).edges ↔ s.Reaches root n ∧ m ∈ s.trackedInputs n := by
  have h := explored_discover s root
  refine ⟨fun he => ?_, fun ⟨hn, hm⟩ => ?_⟩
  · exact ⟨h.reached n (h.real n m he).1, (h.real n m he).2⟩
  · exact (h.finished n (mem_index_discover.2 hn) (by simp) m hm).2

end Store

/-! ## Sorting -/

namespace Discovery

/-- A directed graph without cycles: its nodes are distinct and its edges lie between them. -/
structure Acyclic (d : Discovery) : Prop where
  distinct : d.index.Nodup
  inside : ∀ n m, (n, m) ∈ d.edges → n ∈ d.index ∧ m ∈ d.index
  irreflexive : ∀ n, ¬ Relation.TransGen (fun a b => (a, b) ∈ d.edges) n n

/-- All nodes are listed once, and no edge leads back to an earlier one. -/
structure Topological (d : Discovery) (order : List NodeId) : Prop where
  perm : order.Perm d.index
  forward : order.Pairwise fun a b => (b, a) ∉ d.edges

/-- What sorting promises: some topological order of a graph without cycles. -/
def IsToposort (sort : Discovery → Option (List NodeId)) : Prop :=
  ∀ d : Discovery, d.Acyclic → ∃ order, sort d = some order ∧ d.Topological order

/-- Where there is no cycle, one of the remaining nodes is no input of another one. -/
theorem exists_source {edges : List (NodeId × NodeId)} {remaining : List NodeId}
    (h : ∀ n, ¬ Relation.TransGen (fun a b => (a, b) ∈ edges) n n) (hr : remaining ≠ []) :
    ∃ n ∈ remaining, ∀ m ∈ remaining, (m, n) ∉ edges := by
  let r : {n // n ∈ remaining} → {n // n ∈ remaining} → Prop := fun a b =>
    Relation.TransGen (fun a b => (a, b) ∈ edges) a.1 b.1
  have : IsTrans _ r := ⟨fun _ _ _ => Relation.TransGen.trans⟩
  have : Std.Irrefl r := ⟨fun a => h a.1⟩
  have wf : WellFounded r := Finite.wellFounded_of_trans_of_irrefl r
  obtain ⟨n, hn⟩ := List.exists_mem_of_ne_nil _ hr
  obtain ⟨⟨k, hk⟩, -, hmin⟩ := wf.has_min Set.univ ⟨⟨n, hn⟩, trivial⟩
  exact ⟨k, hk, fun m hm he => hmin ⟨m, hm⟩ trivial (.single he)⟩

theorem sortRemaining_spec {edges : List (NodeId × NodeId)}
    (h : ∀ n, ¬ Relation.TransGen (fun a b => (a, b) ∈ edges) n n) :
    ∀ remaining, ∃ order, sortRemaining edges remaining = some order ∧ order.Perm remaining ∧
      order.Pairwise fun a b => (b, a) ∉ edges := by
  intro remaining
  induction remaining using sortRemaining.induct edges with
  | case1 => exact ⟨[], by simp [sortRemaining], .nil, .nil⟩
  | case2 remaining hne hnone =>
    obtain ⟨n, hn, hsource⟩ := exists_source h hne
    have := List.find?_eq_none.1 hnone n hn
    exact absurd (by simpa using hsource) this
  | case3 remaining hne n hn ih =>
    obtain ⟨order, ho, hp, hpw⟩ := ih
    have hmem : n ∈ remaining := List.mem_of_find?_eq_some hn
    have hsource : ∀ m ∈ remaining, (m, n) ∉ edges := by simpa using List.find?_some hn
    refine ⟨n :: order, ?_, (hp.cons n).trans (List.perm_cons_erase hmem).symm,
      .cons (fun m hm => ?_) hpw⟩
    · rw [sortRemaining, if_neg hne]
      split
      · rename_i hnone
        rw [hn] at hnone
        cases hnone
      · rename_i k hk
        obtain rfl : n = k := Option.some.inj (hn.symm.trans hk)
        rw [ho, Option.map_some]
    · exact hsource m (List.mem_of_mem_erase (hp.subset hm))

/-- The sorting of the model sorts. -/
theorem isToposort_toposort : IsToposort toposort := by
  intro d hd
  obtain ⟨order, ho, hp, hpw⟩ := sortRemaining_spec hd.irreflexive
    (d.index.mergeSort fun a b => b ≤ a)
  exact ⟨order, ho, hp.trans (List.mergeSort_perm _ _), hpw⟩

end Discovery

namespace Store

variable {α : Type} {s : Store α} {law : RuleLaw α}

/-- Inputs are older than results, so there are no cycles. -/
theorem Sound.acyclic (h : s.Sound law) (root : NodeId) : (s.discover root).Acyclic := by
  refine ⟨(explored_discover s root).distinct, fun n m he => ?_, fun n hn => ?_⟩
  · obtain ⟨hn, hm⟩ := mem_edges_discover.1 he
    exact ⟨mem_index_discover.2 hn, mem_index_discover.2 (hn.tail hm)⟩
  · have down : ∀ a b, Relation.TransGen (fun a b => (a, b) ∈ (s.discover root).edges) a b →
        b < a := by
      intro a b hab
      induction hab with
      | single he =>
        exact h.older _ _ (mem_trackedInputs.1 (mem_edges_discover.1 he).2).1
      | tail _ he ih =>
        exact Nat.lt_trans (h.older _ _ (mem_trackedInputs.1 (mem_edges_discover.1 he).2).1) ih
    exact Nat.lt_irrefl n (down n n hn)

/-- A topological order of what is discovered lists the reachable nodes, and no node comes before
one that it is an input of. -/
theorem topological_discover {root : NodeId} {order : List NodeId}
    (hr : s.tracked root = true) (ho : (s.discover root).Topological order) :
    order.Nodup ∧ (∀ n, n ∈ order ↔ s.Reaches root n) ∧
      order.Pairwise fun a b => a ∉ s.inputs b := by
  have hmem : ∀ n, n ∈ order ↔ s.Reaches root n := fun n =>
    ho.perm.mem_iff.trans mem_index_discover
  refine ⟨ho.perm.nodup_iff.2 (explored_discover s root).distinct, hmem, ?_⟩
  refine ho.forward.imp_of_mem fun {a b} ha hb hab hin => hab ?_
  exact mem_edges_discover.2 ⟨(hmem b).1 hb,
    mem_trackedInputs.2 ⟨hin, ((hmem a).1 ha).tracked hr⟩⟩

end Store

end DiffTensor
