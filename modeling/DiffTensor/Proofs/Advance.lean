import DiffTensor.Proofs.Backward
import DiffTensor.Proofs.Reading

/-!
# How the graph of the library advances

A graph that was made by the library's own operations is `Healthy`: it is sound with rules that
fit, and no recorded operation holds a gradient. All that a call can do to it is to advance it to
another healthy graph in which the old nodes kept their origins and shapes (`Advanced`).

On a healthy graph differentiation from a single tracked element can only fail on products of
strides that leave the word (`Healthy.backward_result`).
-/

namespace DiffTensor.Store

variable {α : Type} [Scalar α] {s s' : Store α}

omit [Scalar α] in
/-- A graph as the operations of the library leave it. -/
structure Healthy (s : Store α) : Prop where
  sound : s.Sound Rule.Fits
  bare : s.Bare

omit [Scalar α] in
/-- The graph is still healthy, and old nodes are what they were. -/
structure Advanced (s s' : Store α) : Prop where
  healthy : s'.Healthy
  grown : s.Grown s'

omit [Scalar α] in
theorem Advanced.trans {s'' : Store α} (h : s.Advanced s') (h' : s'.Advanced s'') :
    s.Advanced s'' := ⟨h'.healthy, h.grown.trans h'.grown⟩

omit [Scalar α] in
theorem Bare.push (h : s.Bare) {node : Node α} (hg : node.gradient = none) :
    (s.push node).2.Bare := by
  intro n hn
  rw [origin, node_push] at hn
  rw [gradient, node_push]
  by_cases e : n = (s.push node).1
  · simp only [e, if_true]
    exact hg
  · simp only [e, if_false] at hn ⊢
    exact h n hn

omit [Scalar α] in
/-- It is enough that recorded operations get no gradients. -/
theorem Bare.kept (h : s.Bare) (ho : s'.origin = s.origin)
    (hg : ∀ n, s.origin n ≠ none → s'.gradient n = none ∨ s'.gradient n = s.gradient n) :
    s'.Bare := by
  intro n hn
  rw [ho] at hn
  rcases hg n hn with hg | hg
  · exact hg
  · rw [hg]
    exact h n hn

omit [Scalar α] in
theorem healthy_empty : ({} : Store α).Healthy := by
  refine ⟨sound_empty, fun n hn => ?_⟩
  obtain ⟨made, hm⟩ := Option.ne_none_iff_exists'.1 hn
  exact absurd (lt_size_of_origin hm) (Nat.not_lt_zero n)

namespace Healthy

section Changes

omit [Scalar α]

theorem refl (h : s.Healthy) : s.Advanced s := ⟨h, Grown.refl s⟩

theorem leaf (h : s.Healthy) {v : Buffer α} (hv : v.Sound) : s.Advanced (s.leaf v).2 :=
  ⟨⟨h.sound.leaf hv, h.bare.push rfl⟩, (kept_leaf s v).grown⟩

theorem parameter (h : s.Healthy) {v : Buffer α} (hv : v.Sound) :
    s.Advanced (s.parameter v).2 :=
  ⟨⟨h.sound.parameter hv, h.bare.push rfl⟩, grown_push ..⟩

theorem setTracked (h : s.Healthy) {n : NodeId} {flag : Bool}
    (hs : s.setTracked n flag = .ok s') : s.Advanced s' := by
  obtain ⟨ho, hsh⟩ := origin_shape_setTracked hs
  have hbare : s'.Bare := h.bare.kept ho fun k _ => Or.inr (gradient_setTracked hs k)
  refine ⟨⟨h.sound.setTracked hs, hbare⟩, size_setTracked hs, ?_, ?_⟩
  · intro k _
    rw [ho]
  · intro k _
    rw [hsh]

theorem setValue (h : s.Healthy) {n : NodeId} {v : Buffer α} (hv : v.Shaped (s.shape n)) :
    s.Advanced (s.setValue n v) := by
  have hk : s.Kept (s.setValue n v) := kept_setValue hv.2
  have hS := h.sound.setValue (hv.sound (h.sound.values n).proper) hv.2
  refine ⟨⟨hS, h.bare.kept hk.origin_eq fun k _ => Or.inr ?_⟩, hk.grown⟩
  rw [gradient_setValue]

theorem clearGradient (h : s.Healthy) (n : NodeId) : s.Advanced (s.clearGradient n) := by
  have hk : s.Kept (s.clearGradient n) := kept_clearGradient s n
  refine ⟨⟨h.sound.clearGradient n, h.bare.kept hk.origin_eq fun k _ => ?_⟩, hk.grown⟩
  rw [gradient_clearGradient]
  by_cases e : k = n
  · simp [e]
  · simp [e]

end Changes

/-- Running an operation advances the graph; the result is a node of the new one. -/
theorem run (h : s.Healthy) {r : Reading α} (hr : s.Reads r) {n : NodeId}
    (hs : s.run r = .ok (n, s')) : s.Advanced s' ∧ n < s'.nodes.size := by
  obtain ⟨⟨y, rule⟩, hk, e⟩ := Outcome.bind_eq_ok_iff.1 hs
  have hrec : s.record y rule (r.operands.map (·.1)) = (n, s') := Except.ok.inj e
  have hbare : (s.record y rule (r.operands.map (·.1))).2.Bare := by
    unfold record Store.leaf
    split
    · exact h.bare.push rfl
    · exact h.bare.push rfl
  have hlt := size_record s y rule (r.operands.map (·.1))
  have hgrown := grown_record s y rule (r.operands.map (·.1))
  have hfst := fst_record s y rule (r.operands.map (·.1))
  rw [hrec] at hbare hlt hgrown hfst
  simp only at hfst
  refine ⟨⟨⟨h.sound.run hr hs, hbare⟩, hgrown⟩, ?_⟩
  rw [hfst, hlt]
  exact Nat.lt_succ_self _

/-- Differentiation advances the graph even if it fails. -/
theorem backward (h : s.Healthy) (root : NodeId) : s.Advanced (s.backward root).2 := by
  obtain ⟨hS, hk, hg⟩ := backwardBy_kept RuleLaw.fits_serves h.sound root
    Discovery.isToposort_toposort
  exact ⟨⟨hS, h.bare.kept hk.origin_eq fun n hn => Or.inr (hg n hn)⟩, hk.grown⟩

/-- From a single tracked element, differentiation succeeds unless strides of a shape that it meets
leave the word. -/
theorem backward_result (h : s.Healthy) {root : NodeId} (h1 : (s.value root).size = 1)
    (ht : s.tracked root = true) :
    (s.backward root).1 = .ok () ∨ (s.backward root).1 = .error overflow ∧ s.Unsteady root := by
  obtain ⟨order, -, hT, hb⟩ := backwardBy_eq h.sound h1 ht Discovery.isToposort_toposort
  rw [Store.backward, hb]
  cases he : (s.backwardAlong root order).1 with
  | ok _ => exact .inl rfl
  | error e =>
    obtain ⟨rfl, hbad⟩ := h.sound.unsteady_of_failed ht hT (Prod.ext he rfl)
    exact .inr ⟨rfl, hbad⟩

/-- Differentiation that fails has changed nothing, if the strides of all shapes that it meets can
be computed. -/
theorem backward_failed (h : s.Healthy) {root : NodeId} (hs : ¬s.Unsteady root)
    {e : Failure} (he : (s.backward root).1 = .error e) : (s.backward root).2 = s := by
  rw [Store.backward] at he ⊢
  rcases backwardBy_cases h.sound root Discovery.isToposort_toposort with
    ⟨cause, hb⟩ | ⟨-, ht, order, hT, hb⟩
  · rw [hb]
  · rw [hb] at he
    exact absurd (h.sound.unsteady_of_failed ht hT (Prod.ext he rfl)).2 hs

end Healthy

end DiffTensor.Store
