import Mathlib.Algebra.Order.Ring.Rat
import DiffTensor.Proofs.Adjoint
import DiffTensor.Proofs.Recording

/-!
# Reverse mode is forward mode

`Recording` builds a graph with the operations of the library, and keeps for each result what the
operation read when it ran. `forward` goes through the graph from the oldest node to the newest
and runs every recorded operation once more, on dual numbers: the values are those that were
read, the tangents those computed for the operands. Leaves have given tangents if they are
tracked, and none otherwise.

Differentiation adds amounts to the gradients of the tracked leaves. Whatever tangents the leaves
have, these amounts times the tangents sum up to the tangent of the root
(`backwardBy_eq_forward`).
-/

namespace DiffTensor

open Finset

/-- The operation once more, on operands of another type of numbers. -/
def Reading.rerun {α β : Type} [Scalar β] (lift : NodeId → Buffer α → Buffer β) :
    Reading α → Outcome (Buffer β)
  | unary op a x => op.value (lift a x)
  | binary op a b x y => op.value (lift a x) (lift b y)
  | linear layer a x weight bias => do
    let (_, y) ← Linear.value layer.inputs layer.outputs (lift a x) (lift layer.weight weight)
      (lift layer.bias bias)
    return y

variable {K : Type} [Field K] [LinearOrder K] [Elementary K]

/-- Run on dual numbers, an operation gives a result that its rule is adjoint to. -/
theorem Reading.adjoint {r : Reading K} {y : Buffer K} {rule : Rule K} (hr : r.Sound)
    (hk : r.kept = .ok (y, rule)) (tangent : NodeId → Buffer K) :
    ∃ d, r.rerun (fun n x => x.dual (tangent n)) = .ok d ∧
      Adjoint d rule y.shape (r.operands.map fun q => tangent q.1) := by
  cases r with
  | unary op a x =>
    obtain ⟨y', hy, e⟩ := Outcome.bind_eq_ok_iff.1 hk
    obtain ⟨rfl, rfl⟩ := Prod.mk.inj (Except.ok.inj e)
    have hx := hr.values (a, x) (by simp [operands])
    cases op with
    | transpose => exact adjoint_transpose hy (tangent a)
    | relu =>
      obtain rfl := Except.ok.inj hy
      exact ⟨_, rfl, adjoint_relu hx (tangent a)⟩
    | sigmoid =>
      obtain rfl := Except.ok.inj hy
      exact ⟨_, rfl, adjoint_sigmoid hx (tangent a)⟩
    | sum =>
      obtain rfl := Except.ok.inj hy
      exact ⟨_, rfl,
        adjoint_scaled hx (tangent a) (by rw [tangent_sum_dual]; exact (one_mul _).symm)⟩
    | mean =>
      obtain rfl := Except.ok.inj hy
      exact ⟨_, rfl, adjoint_scaled hx (tangent a) (tangent_mean_dual hx (tangent a))⟩
  | binary op a b x y =>
    obtain ⟨z, hz, e⟩ := Outcome.bind_eq_ok_iff.1 hk
    obtain ⟨rfl, rfl⟩ := Prod.mk.inj (Except.ok.inj e)
    have hx := hr.values (a, x) (by simp [operands])
    have hy := hr.values (b, y) (by simp [operands])
    cases op with
    | add => exact adjoint_add hx hy hz (tangent a) (tangent b)
    | sub => exact adjoint_sub hx hy hz (tangent a) (tangent b)
    | mul => exact adjoint_mul hx hy hz (tangent a) (tangent b)
    | matmul => exact adjoint_matmul hx hy hz (tangent a) (tangent b)
  | linear layer a x weight bias =>
    obtain ⟨⟨matrix, z⟩, hz, e⟩ := Outcome.bind_eq_ok_iff.1 hk
    obtain ⟨rfl, rfl⟩ := Prod.mk.inj (Except.ok.inj e)
    obtain ⟨hw, hb⟩ := hr.parameters layer a x weight bias rfl
    obtain ⟨m, d, hd, hA⟩ := adjoint_linear (hr.values (a, x) (by simp [operands]))
      (hr.values (layer.weight, weight) (by simp [operands])) hw hb hz (tangent a)
      (tangent layer.weight) (tangent layer.bias)
    exact ⟨d, by simp [rerun, hd], hA⟩

/-! ## Going forward -/

namespace Store

/-- The tangent that a leaf starts with: only tracked ones move. -/
def leafTangent (s : Store K) (u : NodeId → Nat → K) (n : NodeId) : Buffer K :=
  ⟨s.shape n, Array.ofFn fun k : Fin (s.shape n).prod => if s.tracked n then u n k else 0⟩

/-- The tangent of a node from those of older ones. What was recorded is run on the values that were
read then. -/
def tangentOf (s : Store K) (t : History K) (u : NodeId → Nat → K) (older : NodeId → Buffer K)
    (n : NodeId) : Outcome (Buffer K) :=
  match s.origin n, t n with
  | some _, some r => do return (← r.rerun fun m x => x.dual (older m)).tangents
  | _, _ => .ok (s.leafTangent u n)

/-- The tangents after the oldest nodes have been gone through. -/
def forwardBelow (s : Store K) (t : History K) (u : NodeId → Nat → K) :
    Nat → Outcome (NodeId → Buffer K)
  | 0 => .ok (s.leafTangent u)
  | n + 1 => do
    let older ← s.forwardBelow t u n
    let d ← s.tangentOf t u older n
    return fun k => if k = n then d else older k

/-- The tangents of all nodes, given those of the tracked leaves. -/
def forward (s : Store K) (t : History K) (u : NodeId → Nat → K) :
    Outcome (NodeId → Buffer K) := s.forwardBelow t u s.nodes.size

variable {s s' : Store K} {t : History K} {u : NodeId → Nat → K}

theorem tabulates_leafTangent (s : Store K) (u : NodeId → Nat → K) (n : NodeId) :
    (s.leafTangent u n).Tabulates (s.shape n) fun k => if s.tracked n then u n k else 0 :=
  Buffer.tabulates_ofFn rfl fun k => if s.tracked n then u n k else 0

/-- Tangents of the oldest nodes: given at leaves, and for recorded operations such that the rule
is adjoint to what was computed. -/
structure Forward (s : Store K) (u : NodeId → Nat → K) (below : Nat)
    (dx : NodeId → Buffer K) : Prop where
  leaves : ∀ n, s.origin n = none → dx n = s.leafTangent u n
  recorded : ∀ n < below, ∀ made, s.origin n = some made → ∃ d, dx n = d.tangents ∧
    Adjoint d made.rule (s.shape n) (made.inputs.map dx)

omit [Field K] [LinearOrder K] [Elementary K] in
/-- The tangents of inputs do not depend on nodes that are not older. -/
theorem map_inputs_congr (hS : s.Sound Rule.Fits) {n m : NodeId} (hn : n ≤ m) {made : Recorded K}
    (ho : s.origin n = some made) (dx : NodeId → Buffer K) (d : Buffer K) :
    made.inputs.map (fun k => if k = m then d else dx k) = made.inputs.map dx :=
  List.map_congr_left fun k hk => if_neg fun e => by
    have := hS.older n k (by rwa [inputs_of_origin ho])
    exact Nat.not_lt.2 hn (e ▸ this)

/-- One more node. -/
theorem Forward.step (h : s.Faithful t) {n : Nat} {dx : NodeId → Buffer K}
    (hf : s.Forward u n dx) :
    ∃ d, s.tangentOf t u dx n = .ok d ∧
      s.Forward u (n + 1) fun k => if k = n then d else dx k := by
  cases ho : s.origin n with
  | none =>
    have hsame : (fun k => if k = n then s.leafTangent u n else dx k) = dx := by
      funext k
      split
      · rename_i e
        rw [e, hf.leaves n ho]
      · rfl
    refine ⟨s.leafTangent u n, by simp [tangentOf, ho], ?_⟩
    rw [hsame]
    refine ⟨hf.leaves, fun k hk made hm => ?_⟩
    rcases Nat.lt_succ_iff_lt_or_eq.1 hk with hk | rfl
    · exact hf.recorded k hk made hm
    · rw [ho] at hm
      cases hm
  | some made =>
    obtain ⟨r, y, ht, hr, hkept, hshape, hin, -⟩ := h.noted n made ho
    obtain ⟨d, hd, hA⟩ := Reading.adjoint hr hkept dx
    have htan : r.operands.map (fun q => dx q.1) = made.inputs.map dx := by
      rw [← hin, List.map_map]
      rfl
    rw [htan, hshape] at hA
    refine ⟨d.tangents, by simp [tangentOf, ho, ht, hd], fun k hk => ?_, fun k hk made' hm => ?_⟩
    · have hne : k ≠ n := fun e => by simp [e, ho] at hk
      rw [if_neg hne, hf.leaves k hk]
    · rw [map_inputs_congr h.sound (Nat.lt_succ_iff.1 hk) hm]
      rcases Nat.lt_succ_iff_lt_or_eq.1 hk with hk | rfl
      · rw [if_neg (Nat.ne_of_lt hk)]
        exact hf.recorded k hk made' hm
      · obtain rfl : made = made' := Option.some.inj (ho.symm.trans hm)
        exact ⟨d, if_pos rfl, hA⟩

/-- Going forward never fails: everything that was recorded has run before, on the same values. -/
theorem Faithful.forwardBelow (h : s.Faithful t) (u : NodeId → Nat → K) :
    ∀ n, ∃ dx, s.forwardBelow t u n = .ok dx ∧ s.Forward u n dx
  | 0 => ⟨s.leafTangent u, rfl, fun _ _ => rfl, fun _ hn => absurd hn (Nat.not_lt_zero _)⟩
  | n + 1 => by
    obtain ⟨dx, hdx, hf⟩ := h.forwardBelow u n
    obtain ⟨d, hd, hf'⟩ := hf.step h
    exact ⟨_, by simp [Store.forwardBelow, hdx, hd], hf'⟩

/-! ## Both ways agree -/

theorem weigh_map (inputs : List NodeId) (grads : List (Buffer K)) (dx : NodeId → Buffer K) :
    weigh grads (inputs.map dx) = ((inputs.zip grads).map fun q => q.2.dot (dx q.1)).sum := by
  rw [weigh, List.zip_map_right, List.map_map, ← List.zip_swap, List.map_map]
  rfl

/-- The product with the tangents is conserved: what a node sends weighs as much against the
tangents of its inputs as what it had collected does against its own. -/
theorem Forward.conserved (h : s.Sound Rule.Fits) {dx : NodeId → Buffer K}
    (hf : s.Forward u s.nodes.size dx) (root : NodeId) :
    s.Conserved root fun n g => g.dot (dx n) := by
  refine ⟨fun n _ a b ha hb => Buffer.dot_plus ha hb (dx n),
    fun n _ g hg made grads ho hgr hall => ?_⟩
  obtain ⟨d, hd, hA⟩ := hf.recorded n (lt_size_of_origin ho) made ho
  rw [hd, hA.2 g grads hg hgr, weigh_map, sum_filter_map]
  refine congrArg List.sum (List.map_congr_left fun q hq => ?_)
  split
  · rfl
  · -- an input that is not tracked is a leaf that does not move
    rename_i ht
    have hleaf : s.origin q.1 = none := by
      cases hq' : s.origin q.1 with
      | none => rfl
      | some made' => exact absurd (h.recorded _ made' hq') ht
    have hT := tabulates_leafTangent s u q.1
    simp only [ht, Bool.false_eq_true, if_false] at hT
    rw [Buffer.dot, (shaped_of_mem_zip hall q hq).2, hf.leaves _ hleaf]
    exact sum_eq_zero fun k hk => by rw [hT.entry_eq k (mem_range.1 hk), mul_zero]

theorem gradientEntry_gather {n : NodeId} {g : Buffer K} (h : s.Sound Rule.Fits)
    (hg : g.Shaped (s.shape n)) (hs : s'.grad n = some (gather (s.grad n) g)) (i : Nat) :
    s'.gradientEntry n i - s.gradientEntry n i = g.entry i := by
  rw [gradientEntry, gradientEntry, hs]
  cases hh : s.grad n with
  | none => exact sub_zero _
  | some held =>
    change (held.plus g).entry i - held.entry i = g.entry i
    rw [Buffer.entry_plus (h.grad_shaped hh) hg, add_sub_cancel_left]

/-- The leaves that take part in differentiation. -/
def trackedLeaves (s : Store K) : Finset NodeId :=
  (range s.nodes.size).filter fun n => s.isLeaf n = true ∧ s.tracked n = true

/-- What the leaves gain, against their tangents, is what the leaves among the turns collected. -/
theorem Differentiated.sum_gained {root : NodeId} {order : List NodeId}
    {turns : List (NodeId × Buffer K)} (h : s.Differentiated root order turns s')
    (hS : s.Sound Rule.Fits) (ht : s.tracked root = true) {dx : NodeId → Buffer K}
    (hf : s.Forward u s.nodes.size dx) :
    ∑ n ∈ s.trackedLeaves, ∑ i ∈ range (s.shape n).prod,
        (s'.gradientEntry n i - s.gradientEntry n i) * u n i =
      ((turns.filter fun q => s.isLeaf q.1).map fun q => q.2.dot (dx q.1)).sum := by
  let gain := fun n => ∑ i ∈ range (s.shape n).prod,
    (s'.gradientEntry n i - s.gradientEntry n i) * u n i
  have hturn : ∀ q ∈ turns.filter fun q => s.isLeaf q.1, gain q.1 = q.2.dot (dx q.1) := by
    intro q hq
    obtain ⟨hq, hl⟩ := List.mem_filter.1 hq
    rw [isLeaf_iff] at hl
    have hsh := h.shaped q hq
    have htr : s.tracked q.1 = true := (h.reaches hq).tracked ht
    have hT := tabulates_leafTangent s u q.1
    rw [Buffer.dot, hsh.2, hf.leaves _ hl]
    refine sum_congr rfl fun i hi => ?_
    rw [gradientEntry_gather hS hsh (h.delivered q hq hl), hT.entry_eq i (mem_range.1 hi),
      if_pos htr]
  have hsub : (order.filter s.isLeaf).toFinset ⊆ s.trackedLeaves := fun n hn => by
    obtain ⟨hn, hl⟩ := List.mem_filter.1 (List.mem_toFinset.1 hn)
    have htr := ((h.mem_order n).1 hn).tracked ht
    exact mem_filter.2 ⟨mem_range.2 (lt_size_of_tracked htr), hl, htr⟩
  have hzero : ∀ n ∈ s.trackedLeaves, n ∉ (order.filter s.isLeaf).toFinset → gain n = 0 := by
    intro n hn hout
    have hl := (mem_filter.1 hn).2.1
    have hun : ¬ (s.Reaches root n ∧ s.origin n = none) := fun hr =>
      hout (List.mem_toFinset.2 (List.mem_filter.2 ⟨(h.mem_order n).2 hr.1, hl⟩))
    refine sum_eq_zero fun i _ => ?_
    rw [gradientEntry, gradientEntry, (h.untouched n hun).2, sub_self, zero_mul]
  calc ∑ n ∈ s.trackedLeaves, gain n
      = ∑ n ∈ (order.filter s.isLeaf).toFinset, gain n := (sum_subset hsub hzero).symm
    _ = ((order.filter s.isLeaf).map gain).sum := List.sum_toFinset _ (h.distinct.filter _)
    _ = ((turns.filter fun q => s.isLeaf q.1).map fun q => gain q.1).sum := by
        rw [← h.once, List.filter_map, List.map_map]
        rfl
    _ = _ := congrArg List.sum (List.map_congr_left hturn)

theorem dot_ones {root : NodeId} (h : s.Sound Rule.Fits) (h1 : (s.value root).size = 1)
    (b : Buffer K) : (s.ones root).dot b = b.entry 0 := by
  have hT := tabulates_ones s root
  have hp : (s.shape root).prod = 1 := (h.values root).full.symm.trans h1
  rw [Buffer.dot, hT.shape_eq, hp, sum_range_one, hT.entry_eq 0 (by omega), one_mul]

/-- Differentiation from a tracked node with a single element: what it adds to the gradients of
the tracked leaves, against any tangents of these, is the tangent that the root gets from them
going forward. It only fails if the strides of a shape that it meets leave the word. -/
theorem backwardBy_eq_forward (h : Recording s t) {root : NodeId}
    (h1 : (s.value root).size = 1) (ht : s.tracked root = true)
    {sort : Discovery → Option (List NodeId)} (hsort : Discovery.IsToposort sort) :
    ∃ result s', s.backwardBy sort root = (result, s') ∧
      (result = .error overflow ∧ s.Unsteady root ∨ result = .ok () ∧ ∀ u : NodeId → Nat → K,
        ∃ dx, s.forward t u = .ok dx ∧
          ∑ n ∈ s.trackedLeaves, ∑ i ∈ range (s.shape n).prod,
            (s'.gradientEntry n i - s.gradientEntry n i) * u n i = (dx root).entry 0) := by
  have hF := h.faithful
  obtain ⟨order, -, hT, hb⟩ := backwardBy_eq hF.sound h1 ht hsort
  rcases backwardAlong_spec RuleLaw.fits_serves hF.sound ht hT with
    ⟨s', hs', -, hD⟩ | ⟨e, s', hs', -⟩
  · refine ⟨.ok (), s', hb.trans hs', Or.inr ⟨rfl, fun u => ?_⟩⟩
    obtain ⟨dx, hdx, hf⟩ := hF.forwardBelow u s.nodes.size
    refine ⟨dx, hdx, ?_⟩
    rw [hD.sum_gained hF.sound ht hf, hD.balance ht (hf.conserved hF.sound root),
      dot_ones hF.sound h1]
  · obtain ⟨rfl, hbad⟩ := hF.sound.unsteady_of_failed ht hT hs'
    exact ⟨_, s', hb.trans hs', Or.inl ⟨rfl, hbad⟩⟩

/-- Two numbers, each multiplied by itself, and summed up. -/
theorem squares_backward_eq_forward :
    let _ := Elementary.plain ℚ
    ∃ (s s' : Store ℚ) (t : History ℚ),
      Recording s t ∧ (s.value 2).size = 1 ∧ s.tracked 2 = true ∧
        s.backward 2 = (.ok (), s') ∧ ∀ u : NodeId → Nat → ℚ,
          ∃ dx, s.forward t u = .ok dx ∧
            ∑ n ∈ s.trackedLeaves, ∑ i ∈ range (s.shape n).prod,
              (s'.gradientEntry n i - s.gradientEntry n i) * u n i = (dx 2).entry 0 := by
  intro _
  have hv : (⟨[2], #[2, 3]⟩ : Buffer ℚ).Sound := ⟨Extent.proper_one (by decide), rfl⟩
  have h := Recording.parameter .empty hv
  have h := @Recording.binary ℚ _ _ _ _ _ _ .mul 0 0 _ h (by decide) (by decide) rfl
  have h := @Recording.unary ℚ _ _ _ _ _ _ .sum 1 _ h (by decide) rfl
  obtain ⟨result, s', hb, ⟨-, hbad⟩ | ⟨rfl, hu⟩⟩ :=
    @backwardBy_eq_forward ℚ _ _ _ _ _ h 2 rfl rfl _ Discovery.isToposort_toposort
  · exact absurd hbad (not_unsteady (by decide) 2)
  · exact ⟨_, s', _, h, rfl, rfl, hb, hu⟩

end Store

end DiffTensor
