import DiffTensor.Proofs.Broadcasting
import DiffTensor.Proofs.Training

/-!
# Combining tensors and differentiating the result

Two tensors whose shapes have a join can be combined unless index arithmetic leaves the word: that
is a matter of the dimensions behind the last zero of the operands, and of those in front of the
first zero of the result (`addressable_iff`). Sums and differences that could be computed can be
differentiated as well. A product reads the gradient of the result through the shape of the result,
and fails if the strides of that cannot be computed (`carries_elementwise`, `mul_crashes`).

A rule `Carries` if no gradient of the right shape makes it fail, a node if all rules behind it do.
Differentiation from a single tracked element succeeds if it carries.
-/

namespace DiffTensor

/-! ## Shapes -/

namespace Layout

theorem filter_prod_pos (dims : List Nat) : 0 < (dims.filter (· ≠ 0)).prod :=
  Nat.pos_of_ne_zero fun h0 => by simpa using List.prod_eq_zero_iff.1 h0

theorem filter_prod_le : ∀ {source dims : List Nat},
    List.Forall₂ (fun d t => d = 1 ∨ d = t) source dims →
    (source.filter (· ≠ 0)).prod ≤ (dims.filter (· ≠ 0)).prod
  | _, _, .nil => Nat.le_refl _
  | d :: source, t :: dims, .cons hd h => by
    have ih := filter_prod_le h
    rcases Nat.eq_zero_or_pos t with rfl | ht
    · rcases hd with rfl | rfl
      · simpa using ih
      · simpa using ih
    · have htail : (source.filter (· ≠ 0)).prod ≤ t * (dims.filter (· ≠ 0)).prod :=
        Nat.le_trans ih (Nat.le_mul_of_pos_left _ ht)
      rcases hd with rfl | rfl
      · simpa [ht.ne'] using htail
      · simpa [ht.ne'] using Nat.mul_le_mul_left d ih

/-- What broadcasts onto a moderate shape is moderate. -/
theorem Moderate.of_onto {source target : List Nat} (h : Moderate target)
    (ho : Onto source target) : Moderate source := by
  refine Nat.lt_of_le_of_lt (Nat.le_trans (filter_prod_le ho.2) ?_) h
  conv_rhs => rw [← List.take_append_drop (target.length - source.length) target,
    List.filter_append, List.prod_append]
  exact Nat.le_mul_of_pos_left _ (filter_prod_pos _)

theorem Moderate.leading_lt {dims : List Nat} (h : Moderate dims) :
    Extent.leading dims < Extent.wordLimit :=
  Nat.lt_of_le_of_lt (Extent.leading_le_filter_prod dims) (Nat.lt_trans h (by decide))

end Layout

variable {α : Type} [Scalar α]

/-! ## Rules -/

/-- Whatever function it applies, an operation other than the matrix product combines its
operands. -/
theorem BinaryOp.exists_combine {op : BinaryOp} (h : op ≠ .matmul) :
    ∃ name f, ∀ x y : Buffer α, op.value x y = x.combine name y f := by
  cases op with
  | add => exact ⟨_, _, fun _ _ => rfl⟩
  | sub => exact ⟨_, _, fun _ _ => rfl⟩
  | mul => exact ⟨_, _, fun _ _ => rfl⟩
  | matmul => exact absurd rfl h

theorem Buffer.reduce_shaped {g : Buffer α} {shape t : List Nat} (hg : g.Shaped t)
    (ht : Extent.Proper t) (hs : Extent.Proper shape) (ho : Layout.Onto shape t)
    (hc : t = shape ∨ Layout.Steady shape) : ∃ c, g.reduce shape = .ok c ∧ c.Shaped shape := by
  obtain ⟨c, hr, hcs, hcf⟩ := Buffer.reduce_eq (hg.sound ht) hs (hg.2 ▸ ho) (hg.2 ▸ hc)
  exact ⟨c, hr, hcf, hcs⟩

namespace Rule

/-- The rule never fails on a gradient of the result. -/
def Carries (rule : Rule α) (output : List Nat) : Prop :=
  ∀ g : Buffer α, g.Shaped output → ∃ grads, rule.gradients g = .ok grads

theorem carries_sum {input : List Nat} (h : Extent.Proper input) (scale : α) :
    (sum input scale).Carries [] := by
  intro g _
  obtain ⟨c, hc, -⟩ := Buffer.full_eq h (g.sum * scale)
  exact ⟨[c], by simp only [gradients, hc, Outcome.ok_bind, Outcome.pure_eq]⟩

variable {x y : Buffer α} {t : List Nat}

/-- What could be combined can be differentiated, if the strides of the result can be computed. They
are only needed for products of different shapes. -/
theorem carries_elementwise {op : BinaryOp} (hop : op ≠ .matmul) (hx : x.Sound) (hy : y.Sound)
    (hj : Shape.join x.shape y.shape = some t) (ht : Extent.Proper t)
    (hc : Buffer.Combinable x.shape y.shape)
    (hm : op = .mul → x.shape = y.shape ∨ Layout.Steady t) : (op.rule x y).Carries t := by
  obtain ⟨ox, oy⟩ := Layout.onto_of_join hj
  -- Of equal shapes, the join is the shape of both.
  have hself (he : x.shape = y.shape) : t = x.shape := by
    rw [← he, Layout.join_self] at hj
    exact (Option.some.inj hj).symm
  have hreduce {a b : Buffer α} (ha : a.Shaped t) (hb : b.Shaped t) :
      ∃ grads, (do return [← a.reduce x.shape, ← b.reduce y.shape] : Outcome _) = .ok grads := by
    obtain ⟨c, hac, -⟩ := Buffer.reduce_shaped ha ht hx.proper ox (hc.imp hself And.left)
    obtain ⟨d, hbd, -⟩ := Buffer.reduce_shaped hb ht hy.proper oy
      (hc.imp (fun he => (hself he).trans he) And.right)
    exact ⟨[c, d], by simp only [hac, hbd, Outcome.ok_bind, Outcome.pure_eq]⟩
  intro g hg
  cases op with
  | add => exact hreduce hg hg
  | sub => exact hreduce hg ⟨Buffer.wellShaped_map hg.1 _, hg.2⟩
  | mul =>
    have hmul {z : Buffer α} (hz : z.Sound) (oz : Layout.Onto z.shape t)
        (hcz : t = z.shape ∨ Layout.Steady t ∧ Layout.Steady z.shape) :
        ∃ c, g.combine "mul" z (· * ·) = .ok c ∧ c.Shaped t := by
      have hjz : Shape.join g.shape z.shape = some t := by rw [hg.2, Layout.join_absorb oz]
      have hcz : Buffer.Combinable g.shape z.shape := by rwa [hg.2]
      obtain ⟨c, hc, hT⟩ := Buffer.combine_eq hg.1 hz.full hjz (hcz.addressable ht) "mul" (· * ·)
      exact ⟨c, hc, hT.shaped⟩
    have hcx : t = x.shape ∨ Layout.Steady t ∧ Layout.Steady x.shape := by
      rcases hm rfl with he | hs
      · exact .inl (hself he)
      · exact hc.imp hself fun h => ⟨hs, h.1⟩
    have hcy : t = y.shape ∨ Layout.Steady t ∧ Layout.Steady y.shape := by
      rcases hm rfl with he | hs
      · exact .inl ((hself he).trans he)
      · exact hc.imp (fun he => (hself he).trans he) fun h => ⟨hs, h.2⟩
    obtain ⟨a, ha, haS⟩ := hmul hy oy hcy
    obtain ⟨b, hb, hbS⟩ := hmul hx ox hcx
    obtain ⟨grads, hgr⟩ := hreduce haS hbS
    exact ⟨grads, by simpa only [BinaryOp.rule, gradients, ha, hb, Outcome.ok_bind] using hgr⟩
  | matmul => exact absurd rfl hop

/-- A product of different shapes is not differentiated, if the strides of the result cannot be
computed. -/
theorem mul_crashes (hj : Shape.join x.shape y.shape = some t) (hne : x.shape ≠ y.shape)
    (ht : ¬Layout.Steady t) {g : Buffer α} (hg : g.Shaped t) :
    ∃ cause, (mul x y).gradients g = crash cause := by
  obtain ⟨ox, oy⟩ := Layout.onto_of_join hj
  have hcrash {z : Buffer α} (oz : Layout.Onto z.shape t) (hz : t ≠ z.shape) :
      ∃ cause, g.combine "mul" z (· * ·) = crash cause := by
    have hjz : Shape.join g.shape z.shape = some t := by rw [hg.2, Layout.join_absorb oz]
    have hA : ¬Buffer.Addressable g.shape z.shape t := by
      rw [hg.2]
      rintro (he | ⟨hs, -⟩)
      · exact hz he
      · exact ht hs
    exact Buffer.exists_crash_combine hjz hA "mul" (· * ·)
  by_cases hy : t = y.shape
  · -- The gradient has the shape of `y`, but not that of `x`.
    obtain ⟨cause, hc⟩ := hcrash ox fun hx => hne (hx.symm.trans hy)
    have hg' : g.shape = y.shape := hg.2.trans hy
    obtain ⟨c, hok⟩ : ∃ c, g.combine "mul" y (· * ·) = .ok c := by
      simp only [Buffer.combine, hg', Layout.join_self, if_true, Buffer.zipMap]
      exact ⟨_, rfl⟩
    exact ⟨cause, by simp only [gradients, hok, hc, Outcome.ok_bind, Outcome.crash_bind]⟩
  · obtain ⟨cause, hc⟩ := hcrash oy hy
    exact ⟨cause, by simp only [gradients, hc, Outcome.crash_bind]⟩

end Rule

/-! ## Graphs -/

namespace Store

variable {s s' : Store α} {law : RuleLaw α}

/-- No rule behind the node ever fails on a gradient. -/
def Carries (s : Store α) (n : NodeId) : Prop :=
  ∀ m, s.Reaches n m → ∀ made, s.origin m = some made → made.rule.Carries (s.shape m)

omit [Scalar α] in
theorem reaches_of_leaf {n m : NodeId} (h : s.origin n = none) (hr : s.Reaches n m) : m = n := by
  rcases Relation.ReflTransGen.cases_head hr with rfl | ⟨k, hk, -⟩
  · rfl
  · rw [mem_trackedInputs, inputs_of_leaf h] at hk
    cases hk.1

theorem carries_of_leaf {n : NodeId} (h : s.origin n = none) : s.Carries n := by
  intro m hr made hm
  rw [reaches_of_leaf h hr, h] at hm
  cases hm

omit [Scalar α] in
/-- Where the old nodes are what they were, they reach what they reached. -/
theorem Sound.reaches_old (h : s.Sound law) (hold : ∀ n < s.nodes.size, s'.node n = s.node n)
    {n m : NodeId} (hn : n < s.nodes.size) (hr : s'.Reaches n m) :
    m < s.nodes.size ∧ s.Reaches n m := by
  induction hr with
  | refl => exact ⟨hn, .refl⟩
  | @tail k m _ hm ih =>
    obtain ⟨hk, hr⟩ := ih
    obtain ⟨hin, ht⟩ := mem_trackedInputs.1 hm
    have hin : m ∈ s.inputs k := by rwa [inputs, origin, hold k hk] at hin
    have hlt : m < s.nodes.size := Nat.lt_trans (h.older k m hin) hk
    rw [tracked, hold m hlt] at ht
    exact ⟨hlt, hr.tail (mem_trackedInputs.2 ⟨hin, ht⟩)⟩

theorem Sound.carries_old (h : s.Sound law) (hold : ∀ n < s.nodes.size, s'.node n = s.node n)
    {n : NodeId} (hn : n < s.nodes.size) (hc : s.Carries n) : s'.Carries n := by
  intro m hr made hm
  obtain ⟨hlt, hr⟩ := h.reaches_old hold hn hr
  rw [origin, hold m hlt] at hm
  rw [shape, value, hold m hlt]
  exact hc m hr made hm

/-- A new node carries if its rule and its inputs do. -/
theorem Sound.carries_record (h : s.Sound law) {v : Buffer α} {rule : Rule α}
    {inputs : List NodeId} (hi : ∀ m ∈ inputs, m < s.nodes.size ∧ s.Carries m)
    (hr : rule.Carries v.shape) : (s.record v rule inputs).2.Carries s.nodes.size := by
  obtain ⟨s', hs', -, hold, hnew⟩ := s.record_eq v rule inputs
  rw [hs']
  have horigin : ∀ made, s'.origin s.nodes.size = some made → made = ⟨rule, inputs⟩ := by
    intro made hm
    rw [origin, hnew] at hm
    simp only at hm
    split at hm
    · exact (Option.some.inj hm).symm
    · cases hm
  intro m hreach made hm
  rcases Relation.ReflTransGen.cases_head hreach with rfl | ⟨k, hk, hreach⟩
  · obtain rfl := horigin made hm
    rwa [shape, value, hnew]
  · have hk : k ∈ inputs := by
      cases ho : s'.origin s.nodes.size with
      | none => simp [mem_trackedInputs, inputs_of_leaf ho] at hk
      | some made' =>
        obtain rfl := horigin made' ho
        rw [mem_trackedInputs, inputs_of_origin ho] at hk
        exact hk.1
    exact h.carries_old hold (hi k hk).1 (hi k hk).2 m hreach made hm

/-- Differentiation from a single tracked element succeeds if the element carries. -/
theorem Healthy.backward_of_carries (h : s.Healthy) {root : NodeId}
    (h1 : (s.value root).size = 1) (ht : s.tracked root = true) (hc : s.Carries root) :
    (s.backward root).1 = .ok () := by
  obtain ⟨order, -, hT, hb⟩ := backwardBy_eq h.sound h1 ht Discovery.isToposort_toposort
  rw [Store.backward, hb]
  cases he : (s.backwardAlong root order).1 with
  | ok x => rfl
  | error e =>
    obtain ⟨n, made, g, hn, hmade, hg, hr⟩ := backwardAlong_failed RuleLaw.fits_serves h.sound ht hT
      (Prod.ext he rfl : s.backwardAlong root order = (.error e, _))
    obtain ⟨grads, hgr⟩ := hc n hn made hmade g hg
    cases hgr.symm.trans hr

/-- It breaks off at a rule that carries no gradient at all. -/
theorem Healthy.backward_of_crash (h : s.Healthy) {root n : NodeId}
    (h1 : (s.value root).size = 1) (ht : s.tracked root = true) (hr : s.Reaches root n)
    {made : Recorded α} (hm : s.origin n = some made)
    (hc : ∀ g : Buffer α, g.Shaped (s.shape n) → ∃ cause, made.rule.gradients g = crash cause) :
    (s.backward root).1 = .error overflow := by
  refine ((h.backward_result h1 ht).resolve_left fun hok => ?_).1
  obtain ⟨order, -, hT, hb⟩ := backwardBy_eq h.sound h1 ht Discovery.isToposort_toposort
  rw [Store.backward, hb] at hok
  rcases backwardAlong_spec RuleLaw.fits_serves h.sound ht hT with
    ⟨s', -, -, hD⟩ | ⟨e, s', hs', -⟩
  · -- Every node that is reached had its turn, and its rule went through.
    have hmem : n ∈ (s.turnsAlong root order).map (·.1) := by
      rw [hD.once]
      exact (hD.mem_order n).2 hr
    obtain ⟨turn, hturn, rfl⟩ := List.mem_map.1 hmem
    obtain ⟨grads, hgr, -⟩ := hD.served turn hturn made hm
    obtain ⟨cause, hcrash⟩ := hc turn.2 (hD.shaped turn hturn)
    cases hgr.symm.trans hcrash
  · rw [hs'] at hok
    cases hok

/-- Node `c` has been made by combining two nodes. If they carry, so does it, unless it is a product
of different shapes and the strides of its own shape cannot be computed: then it never does. -/
structure Combined (s s' : Store α) (op : BinaryOp) (a b c : NodeId) (t : List Nat) : Prop where
  healthy : s'.Healthy
  lt_size : c < s'.nodes.size
  shape_eq : s'.shape c = t
  tracked_eq : s'.tracked c = (s.tracked a || s.tracked b)
  carries : s.Carries a → s.Carries b →
    (op = .mul → s.shape a = s.shape b ∨ Layout.Steady t) → s'.Carries c
  crashes : s'.tracked c = true → op = .mul → s.shape a ≠ s.shape b → ¬Layout.Steady t →
    ∃ made, s'.origin c = some made ∧
      ∀ g : Buffer α, g.Shaped (s'.shape c) → ∃ cause, made.rule.gradients g = crash cause

/-- Two nodes can be combined where index arithmetic stays in the word. -/
theorem Healthy.binary_spec (h : s.Healthy) {op : BinaryOp} (hop : op ≠ .matmul) {a b : NodeId}
    (ha : a < s.nodes.size) (hb : b < s.nodes.size) {t : List Nat}
    (hj : Shape.join (s.shape a) (s.shape b) = some t)
    (hA : Buffer.Addressable (s.shape a) (s.shape b) t) :
    ∃ c s', s.binary op a b = .ok (c, s') ∧ s.Combined s' op a b c t := by
  have hx := h.sound.values a
  have hy := h.sound.values b
  obtain ⟨name, f, hf⟩ := BinaryOp.exists_combine (α := α) hop
  obtain ⟨v, hv, hT⟩ := Buffer.combine_eq hx.full hy.full hj hA name f
  rw [← hf] at hv
  have hvs : v.shape = t := hT.shape_eq
  have hproper : Extent.Proper t := hvs ▸ (Reading.binary_fits hx hy hv).1.proper
  have hrun : s.binary op a b =
      .ok (s.record v (op.rule (s.value a) (s.value b)) [a, b]) := by
    simp only [binary, hv, Outcome.ok_bind, Outcome.pure_eq]
  obtain ⟨s', hs', hlt, hold, hnew⟩ := s.record_eq v (op.rule (s.value a) (s.value b)) [a, b]
  rw [hs'] at hrun
  have hhealthy : s'.Healthy := by
    have hr := hrun
    rw [binary_eq_run] at hr
    exact (h.run (reads_binary op ha hb) hr).1.healthy
  have hany : s'.tracked s.nodes.size = (s.tracked a || s.tracked b) := by
    rw [tracked, hnew]
    simp
  have hshape : s'.shape s.nodes.size = t := by
    rw [shape, value, hnew, hvs]
  refine ⟨_, s', hrun, hhealthy, hlt, hshape, hany, fun hca hcb hm => ?_, fun ht hm hne hst => ?_⟩
  · have hrule : (op.rule (s.value a) (s.value b)).Carries t :=
      Rule.carries_elementwise hop hx hy hj hproper hA.combinable hm
    have hinputs : ∀ m ∈ [a, b], m < s.nodes.size ∧ s.Carries m :=
      List.forall_mem_cons.2 ⟨⟨ha, hca⟩, List.forall_mem_singleton.2 ⟨hb, hcb⟩⟩
    have := h.sound.carries_record hinputs (hvs ▸ hrule)
    rwa [hs'] at this
  · have horigin : s'.origin s.nodes.size =
        some ⟨op.rule (s.value a) (s.value b), [a, b]⟩ := by
      rw [tracked, hnew] at ht
      rw [origin, hnew]
      exact if_pos ht
    subst hm
    exact ⟨_, horigin, fun g hg => Rule.mul_crashes hj hne hst (hshape ▸ hg)⟩

theorem binary_crash (s : Store α) {op : BinaryOp} (hop : op ≠ .matmul) {a b : NodeId}
    {t : List Nat} (hj : Shape.join (s.shape a) (s.shape b) = some t)
    (hA : ¬Buffer.Addressable (s.shape a) (s.shape b) t) :
    ∃ cause, s.binary op a b = crash cause := by
  obtain ⟨name, f, hf⟩ := BinaryOp.exists_combine (α := α) hop
  obtain ⟨cause, hv⟩ := Buffer.exists_crash_combine hj hA name f
  rw [← hf] at hv
  exact ⟨cause, by simp only [binary, hv, Outcome.crash_bind]⟩

theorem unary_sum (s : Store α) (c : NodeId) : s.unary .sum c =
    .ok (s.record (.scalar (s.value c).sum) (.sum (s.shape c) 1) [c]) := rfl

/-- The sum of a node is tracked as the node is, and behind it is what is behind the node. -/
theorem Healthy.sum_spec (h : s.Healthy) {c : NodeId} (hc : c < s.nodes.size)
    (ht : s.tracked c = true) : ∃ r s', s.unary .sum c = .ok (r, s') ∧ s'.Healthy ∧
      (s'.value r).size = 1 ∧ s'.tracked r = true ∧ s'.Reaches r c ∧
      s'.origin c = s.origin c ∧ s'.shape c = s.shape c ∧ (s.Carries c → s'.Carries r) := by
  have hrun := s.unary_sum c
  obtain ⟨s', hs', -, hold, hnew⟩ :=
    s.record_eq (.scalar (s.value c).sum) (.sum (s.shape c) 1) [c]
  have hany : [c].any s.tracked = true := by rw [List.any_cons, ht, Bool.true_or]
  rw [hany] at hnew
  rw [hs'] at hrun
  have hhealthy : s'.Healthy := by
    rw [unary_eq_run] at hrun
    exact (h.run (reads_unary .sum hc) hrun).1.healthy
  refine ⟨_, s', s.unary_sum c |>.trans (congrArg _ hs'), hhealthy, ?_, ?_, ?_, ?_, ?_,
    fun hcar => ?_⟩
  · rw [value, hnew]
    rfl
  · rw [tracked, hnew]
  · refine .single (mem_trackedInputs.2 ⟨?_, ?_⟩)
    · rw [inputs, origin, hnew]
      exact List.mem_singleton_self c
    · rw [tracked, hold c hc]
      exact ht
  · rw [origin, hold c hc, origin]
  · rw [shape, value, hold c hc, shape, value]
  · have hrule : (Rule.sum (s.shape c) (1 : α)).Carries (Buffer.scalar (s.value c).sum).shape :=
      Rule.carries_sum (h.sound.values c).proper 1
    have hinputs : ∀ m ∈ [c], m < s.nodes.size ∧ s.Carries m :=
      List.forall_mem_singleton.2 ⟨hc, hcar⟩
    have := h.sound.carries_record hinputs hrule
    rwa [hs'] at this

end Store

/-! ## Calls -/

namespace Engine

variable [Sampler α] {e : Engine α}

/-- What was made is behind the handle of the answer, in the graph that was made. -/
theorem answer_create_ok {c : Creation α Handle} {new : Object α × Store α × Stream}
    (h : e.build c = .ok new) :
    (e.answer (.create c true)).1 = ⟨some .success, some e.objects.size⟩ ∧
    (e.answer (.create c true)).2.1.store = new.2.1 ∧
    (e.answer (.create c true)).2.1.object? e.objects.size = some new.1 := by
  obtain ⟨hr, he⟩ := e.answer_create c
  rw [h] at hr he
  have he : (e.answer (.create c true)).2.1.hushed = (e.made new).hushed := he
  refine ⟨hr, congrArg Engine.store he, ?_⟩
  rw [← object?_hushed, he, object?_hushed, object?_made_new]

/-- Differentiation answers as it goes in the graph. -/
theorem answer_backward {handle : Option Handle} {n : NodeId} (h : e.tensor handle = .ok n) :
    (e.answer (.command (.backward handle))).1 =
      statusOf ((e.store.backward n).1.mapError Failure.status) := by
  rw [(e.answer_command _).1]
  simp only [run, h]

/-- Differentiation from the sum of a tracked tensor succeeds if the tensor carries, and fails if
its rule never does. -/
theorem answer_backward_sum (hG : e.store.Healthy) {handle : Option Handle} {c : NodeId}
    (hc : e.tensor handle = .ok c) (hlt : c < e.store.nodes.size) :
    let summed := e.answer (.create (.unary .sum handle) true)
    let differentiated := summed.2.1.answer (.command (.backward summed.1.handle))
    summed.1.status = some .success ∧ (e.store.tracked c = true →
      (e.store.Carries c → differentiated.1 = .success) ∧
      ∀ made, e.store.origin c = some made →
        (∀ g : Buffer α, g.Shaped (e.store.shape c) →
          ∃ cause, made.rule.gradients g = crash cause) →
        differentiated.1 = .internal) := by
  intro summed differentiated
  obtain ⟨new, hnew⟩ : ∃ new, e.build (.unary .sum handle) = .ok new := by
    simp only [build, hc, Outcome.ok_bind, Store.unary_sum, Outcome.pure_eq]
    exact ⟨_, rfl⟩
  obtain ⟨hreply, hstore, hobject⟩ := answer_create_ok hnew
  refine ⟨by rw [hreply], fun ht => ?_⟩
  obtain ⟨r, s', hsum, hhealthy, h1, htr, hreach, horigin, hshape, hcar⟩ := hG.sum_spec hlt ht
  obtain rfl : (.tensor r, s', e.stream) = new := by
    simp only [build, hc, Outcome.ok_bind, hsum, Outcome.pure_eq] at hnew
    exact Except.ok.inj hnew
  have htensor : summed.2.1.tensor summed.1.handle = .ok r := by
    rw [show summed.1.handle = some e.objects.size from congrArg Created.handle hreply]
    exact tensor_of_object? hobject
  have hback : differentiated.1 = statusOf ((s'.backward r).1.mapError Failure.status) := by
    rw [answer_backward htensor, hstore]
  refine ⟨fun hcarries => ?_, fun made hmade hcrash => ?_⟩
  · rw [hback, hhealthy.backward_of_carries h1 htr (hcar hcarries)]
    rfl
  · rw [hback, hhealthy.backward_of_crash h1 htr hreach (horigin.trans hmade)
      (hshape ▸ hcrash)]
    rfl

/-- Combining two tensors answers with a handle of the result, where index arithmetic stays in the
word. -/
theorem Sound.answer_binary (h : e.Sound) {op : BinaryOp} (hop : op ≠ .matmul)
    {x y : Option Handle} {a b : NodeId} (ha : e.tensor x = .ok a) (hb : e.tensor y = .ok b)
    {t : List Nat} (hj : Shape.join (e.store.shape a) (e.store.shape b) = some t)
    (hA : Buffer.Addressable (e.store.shape a) (e.store.shape b) t) :
    let made := e.answer (.create (.binary op x y) true)
    made.1.status = some .success ∧ ∃ c, made.2.1.tensor made.1.handle = .ok c ∧
      e.store.Combined made.2.1.store op a b c t := by
  intro made
  obtain ⟨c, s', hbin, hcomb⟩ := h.graph.binary_spec hop (h.tensor ha) (h.tensor hb) hj hA
  have hbuild : e.build (.binary op x y) = .ok (.tensor c, s', e.stream) := by
    simp only [build, ha, hb, hbin, Outcome.ok_bind, Outcome.pure_eq]
  obtain ⟨hreply, hstore, hobject⟩ := answer_create_ok hbuild
  refine ⟨congrArg Created.status hreply, c, ?_, hstore ▸ hcomb⟩
  rw [show made.1.handle = some e.objects.size from congrArg Created.handle hreply]
  exact tensor_of_object? hobject

theorem answer_binary_crash (e : Engine α) {op : BinaryOp} (hop : op ≠ .matmul)
    {x y : Option Handle} {a b : NodeId} (ha : e.tensor x = .ok a) (hb : e.tensor y = .ok b)
    {t : List Nat} (hj : Shape.join (e.store.shape a) (e.store.shape b) = some t)
    (hA : ¬Buffer.Addressable (e.store.shape a) (e.store.shape b) t) :
    (e.answer (.create (.binary op x y) true)).1 = ⟨some .internal, none⟩ := by
  obtain ⟨cause, hc⟩ := e.store.binary_crash hop hj hA
  have hbuild : e.build (.binary op x y) = crash cause := by
    simp only [build, ha, hb, hc, Outcome.ok_bind, Outcome.crash_bind]
  have := (e.answer_create (.binary op x y)).1
  rw [hbuild] at this
  exact this

/-- Tensors of compatible shapes, with room for the elements of their join. They are combined
exactly if the strides of both and the number of elements of the result can be computed; and then
differentiation from the sum of the result succeeds exactly if no product of different shapes needs
the strides of the result, or these can be computed as well. Whatever is before the operands is
taken to carry: before leaves there is nothing (`Store.carries_of_leaf`). In particular all of it
succeeds if the dimensions of the result that are not zero do not multiply to too much. -/
theorem Reachable.compatible (h : Reachable e) {op : BinaryOp} (hop : op ≠ .matmul)
    {x y : Option Handle} {a b : NodeId} (ha : e.tensor x = .ok a) (hb : e.tensor y = .ok b)
    {t : List Nat} (hj : Shape.join (e.store.shape a) (e.store.shape b) = some t)
    (ht : t.prod < Extent.allocationLimit) :
    let inWord := e.store.shape a = e.store.shape b ∨
      Extent.trailing (e.store.shape a) < Extent.wordLimit ∧
      Extent.trailing (e.store.shape b) < Extent.wordLimit ∧
      Extent.leading t < Extent.wordLimit
    let made := e.answer (.create (.binary op x y) true)
    let summed := made.2.1.answer (.create (.unary .sum made.1.handle) true)
    let differentiated := summed.2.1.answer (.command (.backward summed.1.handle))
    (made.1.status = some .success ↔ inWord) ∧
    (¬inWord → made.1 = ⟨some .internal, none⟩) ∧
    (inWord →
      (∃ c, made.2.1.tensor made.1.handle = .ok c ∧ made.2.1.store.shape c = t) ∧
      summed.1.status = some .success ∧
      (e.store.tracked a = true ∨ e.store.tracked b = true →
        e.store.Carries a → e.store.Carries b →
          (differentiated.1 = .success ↔ op ≠ .mul ∨ e.store.shape a = e.store.shape b ∨
            Extent.trailing t < Extent.wordLimit) ∧
          (differentiated.1 = .success ∨ differentiated.1 = .internal))) ∧
    ((t.filter (· ≠ 0)).prod < Extent.allocationLimit →
      inWord ∧ Extent.trailing t < Extent.wordLimit) := by
  intro inWord made summed differentiated
  have hadd : Buffer.Addressable (e.store.shape a) (e.store.shape b) t ↔ inWord := by
    simp only [Buffer.addressable_iff, ht, and_true, inWord]
  have hcrash (hn : ¬inWord) : made.1 = ⟨some .internal, none⟩ :=
    e.answer_binary_crash hop ha hb hj (mt hadd.1 hn)
  have hmade (hin : inWord) := h.sound.answer_binary hop ha hb hj (hadd.2 hin)
  refine ⟨⟨fun hs => ?_, fun hin => (hmade hin).1⟩, hcrash, fun hin => ?_, fun hm => ?_⟩
  · by_contra hn
    rw [hcrash hn] at hs
    cases hs
  · obtain ⟨-, c, hc, hcomb⟩ := hmade hin
    obtain ⟨hsum, hback⟩ := answer_backward_sum hcomb.healthy hc hcomb.lt_size
    refine ⟨⟨c, hc, hcomb.shape_eq⟩, hsum, fun htr hca hcb => ?_⟩
    have htc : made.2.1.store.tracked c = true := by rwa [hcomb.tracked_eq, Bool.or_eq_true]
    obtain ⟨hyes, hno⟩ := hback htc
    by_cases hm : op ≠ .mul ∨ e.store.shape a = e.store.shape b ∨
        Extent.trailing t < Extent.wordLimit
    · have hs := hyes (hcomb.carries hca hcb fun he =>
        (hm.resolve_left fun hne => hne he).imp_right Layout.steady_iff.2)
      exact ⟨iff_of_true hs hm, .inl hs⟩
    · obtain ⟨hop', hm'⟩ := not_or.1 hm
      obtain ⟨hne, hst⟩ := not_or.1 hm'
      obtain ⟨made', ho, hf⟩ := hcomb.crashes htc (not_not.1 hop') hne (mt Layout.steady_iff.1 hst)
      have hs := hno made' ho hf
      refine ⟨iff_of_false (fun hs' => ?_) hm, .inr hs⟩
      exact (by decide : Status.internal ≠ Status.success) (hs.symm.trans hs')
  · have hm : Layout.Moderate t := hm
    obtain ⟨oa, ob⟩ := Layout.onto_of_join hj
    exact ⟨.inr ⟨Layout.steady_iff.1 (hm.of_onto oa).steady,
      Layout.steady_iff.1 (hm.of_onto ob).steady, hm.leading_lt⟩, Layout.steady_iff.1 hm.steady⟩

/-- A tracked column of two times a row of three. -/
theorem compatible_column :
    let e : Engine Float := (ofSeed 7).after
      [.create (.filled .zeros (some [2, 1]) 2) true, .command (.setTracked (some 0) true),
        .create (.filled .zeros (some [3]) 1) true]
    let made := e.answer (.create (.binary .mul (some 0) (some 1)) true)
    let summed := made.2.1.answer (.create (.unary .sum made.1.handle) true)
    e.Reachable ∧ e.tensor (some 0) = .ok 0 ∧ e.tensor (some 1) = .ok 1 ∧
      e.store.shape 0 = [2, 1] ∧ e.store.shape 1 = [3] ∧ e.store.tracked 0 = true ∧
      made.1.status = some .success ∧
      (summed.2.1.answer (.command (.backward summed.1.handle))).1 = .success := by
  intro e
  have he : e.Reachable := (Reachable.start 7).after (by decide)
  have hx : e.tensor (some 0) = .ok 0 := rfl
  have hy : e.tensor (some 1) = .ok 1 := rfl
  have hsx : e.store.shape 0 = [2, 1] := by decide +kernel
  have hsy : e.store.shape 1 = [3] := by decide +kernel
  have htr : e.store.tracked 0 = true := by decide +kernel
  have hlx : e.store.origin 0 = none := Store.isLeaf_iff.1 (by decide +kernel)
  have hly : e.store.origin 1 = none := Store.isLeaf_iff.1 (by decide +kernel)
  have hj : Shape.join (e.store.shape 0) (e.store.shape 1) = some [2, 3] := by
    rw [hsx, hsy]
    decide
  obtain ⟨hmade, -, hrest, hmod⟩ :=
    he.compatible (by decide : BinaryOp.mul ≠ .matmul) hx hy hj (by decide)
  obtain ⟨hin, hst⟩ := hmod (by decide)
  have hback := (hrest hin).2.2 (.inl htr) (Store.carries_of_leaf hlx) (Store.carries_of_leaf hly)
  exact ⟨he, hx, hy, hsx, hsy, htr, hmade.2 hin, hback.1.2 (.inr (.inr hst))⟩

/-- Tensors without elements that are accepted, and whose joins have no elements either, but which
are not added up: once because the elements of the join are not counted, and once because the
strides of an operand are not computed. -/
theorem incompatible_empty :
    (let e : Engine Float := (ofSeed 7).after
      [.create (.filled .zeros (some [1099511627776, 1, 0]) 3) true,
        .create (.filled .zeros (some [1, 1099511627776, 0]) 3) true]
    e.store.shape 0 = [1099511627776, 1, 0] ∧ e.store.shape 1 = [1, 1099511627776, 0] ∧
      Shape.join [1099511627776, 1, 0] [1, 1099511627776, 0] =
        some [1099511627776, 1099511627776, 0] ∧
      [1099511627776, 1099511627776, 0].prod = 0 ∧
      (e.answer (.create (.binary .add (some 0) (some 1)) true)).1 = ⟨some .internal, none⟩) ∧
    let e : Engine Float := (ofSeed 7).after
      [.create (.filled .zeros (some [0, 1099511627776, 1099511627776]) 3) true,
        .create (.filled .zeros (some [1]) 1) true]
    e.store.shape 0 = [0, 1099511627776, 1099511627776] ∧ e.store.shape 1 = [1] ∧
      Shape.join [0, 1099511627776, 1099511627776] [1] =
        some [0, 1099511627776, 1099511627776] ∧
      [0, 1099511627776, 1099511627776].prod = 0 ∧
      (e.answer (.create (.binary .add (some 0) (some 1)) true)).1 = ⟨some .internal, none⟩ := by
  decide +kernel

end Engine

end DiffTensor
