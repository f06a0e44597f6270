import DiffTensor.Proofs.StoreFrame

/-!
# What one differentiation adds to gradients

The gradients that nodes hold have no part in differentiation: a sweep takes the same turns whatever
they are (`turns_eq`). So what differentiation from a root adds to the gradient of a node is what it
would leave there if no node held a gradient: its `contribution`. It is added onto the gradient that
the node holds, or becomes a new one, even if differentiation fails on its way
(`Healthy.backward_grad`).
-/

namespace DiffTensor.Store

variable {α : Type} {s s' t : Store α} {law : RuleLaw α} {excuse : Failure → Prop}

/-- The graph without any gradients. -/
def cleared (s : Store α) : Store α :=
  { s with nodes := s.nodes.map fun node => { node with gradient := none } }

/-! ## Without gradients -/

theorem node_cleared (s : Store α) (n : NodeId) :
    s.cleared.node n = { s.node n with gradient := none } := by
  simp only [node, cleared, Array.getD_eq_getD_getElem?, Array.getElem?_map]
  cases s.nodes[n]? <;> rfl

@[simp] theorem value_cleared (s : Store α) : s.cleared.value = s.value := by
  funext n
  rw [value, node_cleared, value]

@[simp] theorem shape_cleared (s : Store α) : s.cleared.shape = s.shape := by
  funext n
  rw [shape, value_cleared, shape]

@[simp] theorem tracked_cleared (s : Store α) : s.cleared.tracked = s.tracked := by
  funext n
  rw [tracked, node_cleared, tracked]

@[simp] theorem origin_cleared (s : Store α) : s.cleared.origin = s.origin := by
  funext n
  rw [origin, node_cleared, origin]

@[simp] theorem gradient_cleared (s : Store α) (n : NodeId) : s.cleared.gradient n = none := by
  rw [gradient, node_cleared]

@[simp] theorem grad_cleared (s : Store α) (n : NodeId) : s.cleared.grad n = none := by
  rw [grad, gradient_cleared, Option.map_none]

@[simp] theorem inputs_cleared (s : Store α) : s.cleared.inputs = s.inputs := by
  funext n
  rw [inputs, origin_cleared, inputs]

@[simp] theorem trackedInputs_cleared (s : Store α) :
    s.cleared.trackedInputs = s.trackedInputs := by
  funext n
  rw [trackedInputs, inputs_cleared, tracked_cleared, trackedInputs]

theorem Sound.cleared (h : s.Sound law) : s.cleared.Sound law where
  values n := by simpa using h.values n
  older n := by simpa using h.older n
  recorded n made := by simpa using h.recorded n made
  lawful n made := by simpa using h.lawful n made
  held n g hg := by simp at hg
  apart n k g hg := by simp at hg

/-- The nodes that differentiation concerns do not depend on gradients. -/
theorem explore_cleared (s : Store α) (stack : List NodeId) (d : Discovery) :
    s.cleared.explore stack d = s.explore stack d := by
  fun_induction s.explore stack d with
  | case1 d => rw [explore]
  | case2 d n stack ih => rw [explore, trackedInputs_cleared, ih]

theorem discover_cleared (s : Store α) (root : NodeId) :
    s.cleared.discover root = s.discover root :=
  explore_cleared ..

/-! ## The turns of a sweep -/

variable [Scalar α] {known : NodeId → Bool}

/-- Only nodes in the order have turns. -/
theorem mem_order_of_turns : ∀ (order : List NodeId) (s : Store α) (pending : Pending α),
    ∀ turn ∈ s.turns known order pending, turn.1 ∈ order
  | [], _, _, _, h => by simp [turns] at h
  | n :: rest, s, pending, turn, h => by
    unfold turns at h
    cases hn : pending n with
    | none =>
      simp only [hn] at h
      exact List.mem_cons_of_mem _ (mem_order_of_turns rest s pending turn h)
    | some g =>
      cases hv : s.visit known n g (pending.set n none) with
      | error e =>
        simp only [hn, hv, List.mem_singleton] at h
        rw [h]
        exact List.mem_cons_self
      | ok new =>
        simp only [hn, hv, List.mem_cons] at h
        rcases h with rfl | h
        · exact List.mem_cons_self
        · exact List.mem_cons_of_mem _ (mem_order_of_turns rest new.2 new.1 turn h)

/-- Graphs that differ in nothing but gradients have the same turns. -/
theorem turns_eq (hl : law.Serves excuse) : ∀ (order : List NodeId) {s t : Store α}
    {pending : Pending α}, s.Sound law → t.Sound law → s.Ready known order pending →
    t.Ready known order pending → s.origin = t.origin →
    s.turns known order pending = t.turns known order pending
  | [], _, _, _, _, _, _, _, _ => rfl
  | n :: rest, s, t, pending, h, h', hR, hR', ho => by
    unfold turns
    cases hn : pending n with
    | none => exact turns_eq hl rest h h' (hR.skip hn) (hR'.skip hn) ho
    | some g =>
      have hlt := hR.existing n List.mem_cons_self
      have hlt' := hR'.existing n List.mem_cons_self
      have hg := hR.fitted n g hn
      have hg' := hR'.fitted n g hn
      rcases visit_spec hl h known hlt hg hR.fitted_set with
        ⟨p, s₁, hv, hS, hV⟩ | ⟨e, hv, -⟩ <;>
      rcases visit_spec hl h' known hlt' hg' hR'.fitted_set with
        ⟨p', t₁, hv', hT, hV'⟩ | ⟨e', hv', -⟩
      · have hcon : s.contributions n g = t.contributions n g := by
          rw [contributions, contributions, ho]
        have hp : p = p' := by
          funext k
          rw [hV.sent, hV'.sent, hcon]
        subst hp
        simp only [hv, hv']
        congr 1
        exact turns_eq hl rest hS hT (hR.rest hV.kept hV.fitted (hV.waiting h hR))
          (hR'.rest hV'.kept hV'.fitted (hV'.waiting h' hR'))
          (hV.kept.origin_eq.trans (ho.trans hV'.kept.origin_eq.symm))
      · obtain ⟨made, hmade, he⟩ := visit_failed hl h' hlt' hg' hR'.fitted_set hv'
        obtain ⟨grads, hok, -⟩ := hV.served made (ho ▸ hmade)
        rw [he] at hok
        cases hok
      · obtain ⟨made, hmade, he⟩ := visit_failed hl h hlt hg hR.fitted_set hv
        obtain ⟨grads, hok, -⟩ := hV'.served made (ho ▸ hmade)
        rw [he] at hok
        cases hok
      · simp only [hv, hv']

/-- A sweep adds to the gradients of the leaves that have a turn, even if it stops on its way, and
to no others. -/
structure Delivered (s : Store α) (turns : List (NodeId × Buffer α)) (s' : Store α) : Prop where
  gained : ∀ turn ∈ turns, s.origin turn.1 = none →
    s'.grad turn.1 = some (gather (s.grad turn.1) turn.2)
  untouched : ∀ n, n ∉ turns.map (·.1) ∨ s.origin n ≠ none → s'.grad n = s.grad n

theorem sweep_delivered (hl : law.Serves excuse) : ∀ (order : List NodeId) {s : Store α}
    {pending : Pending α}, s.Sound law → s.Ready known order pending →
    s.Delivered (s.turns known order pending) (s.sweep known order pending).2
  | [], s, _, _, _ => ⟨by simp [turns], fun _ _ => rfl⟩
  | n :: rest, s, pending, h, hR => by
    unfold turns sweep
    cases hn : pending n with
    | none => exact sweep_delivered hl rest h (hR.skip hn)
    | some g =>
      have hlt := hR.existing n List.mem_cons_self
      have hg := hR.fitted n g hn
      rcases visit_spec hl h known hlt hg hR.fitted_set with ⟨p, s₁, hv, hS, hV⟩ | ⟨e, hv, -⟩
      · have ih := sweep_delivered hl rest hS (hR.rest hV.kept hV.fitted (hV.waiting h hR))
        have hnot : n ∉ rest := (List.nodup_cons.1 hR.distinct).1
        have hmem : ∀ turn ∈ s₁.turns known rest p, turn.1 ∈ rest := mem_order_of_turns rest s₁ p
        simp only [hv]
        refine ⟨fun turn ht ho => ?_, fun k hk => ?_⟩
        · rcases List.mem_cons.1 ht with rfl | ht
          · have hout : n ∉ (s₁.turns known rest p).map (·.1) := by
              intro hin
              obtain ⟨other, ho, heq⟩ := List.mem_map.1 hin
              exact hnot (heq ▸ hmem other ho)
            rw [ih.untouched _ (.inl hout), (hV.leaf ho).here]
          · have hne : turn.1 ≠ n := fun e => hnot (e ▸ hmem turn ht)
            rw [ih.gained turn ht (hV.kept.origin_eq ▸ ho), (hV.elsewhere (.inl hne)).2]
        · rw [List.map_cons, List.mem_cons, not_or] at hk
          rw [ih.untouched k (hk.imp (fun hk => hk.2) fun hk => hV.kept.origin_eq ▸ hk),
            (hV.elsewhere (hk.imp_left fun hk => hk.1)).2]
      · obtain ⟨made, hmade, -⟩ := visit_failed hl h hlt hg hR.fitted_set hv
        simp only [hv]
        refine ⟨fun turn ht ho => ?_, fun _ _ => rfl⟩
        rw [List.mem_singleton.1 ht, hmade] at ho
        cases ho

/-! ## Differentiation -/

/-- What a node holds after something may have been added onto what it held. -/
def gather? (held : Option (Buffer α)) : Option (Buffer α) → Option (Buffer α)
  | none => held
  | some g => some (gather held g)

/-- Onto nothing a buffer is added as it is. -/
theorem gather?_none (added : Option (Buffer α)) : gather? none added = added := by
  cases added <;> rfl

/-- What differentiation from `root` adds to the gradient of a node, if anything: what it would
leave there if no node held a gradient. -/
def contribution (s : Store α) (root n : NodeId) : Option (Buffer α) :=
  (s.cleared.backward root).2.grad n

theorem ones_cleared (s : Store α) (root : NodeId) : s.cleared.ones root = s.ones root := by
  rw [ones, shape_cleared, ones]

/-- Along a topological order, the turns are those without gradients. -/
theorem turnsAlong_cleared (hl : law.Serves excuse) (h : s.Sound law) {root : NodeId}
    (ht : s.tracked root = true) {order : List NodeId} (ho : (s.discover root).Topological order) :
    s.cleared.turnsAlong root order = s.turnsAlong root order := by
  have ht' : s.cleared.tracked root = true := by rwa [tracked_cleared]
  have ho' : (s.cleared.discover root).Topological order := by rwa [discover_cleared]
  have hR' := ready_start ht' ho'
  unfold turnsAlong
  rw [discover_cleared, ones_cleared] at hR' ⊢
  exact turns_eq hl order h.cleared h hR' (ready_start ht ho) (origin_cleared s)

/-- Along a topological order, every leaf with a turn gets what was collected for it. -/
theorem backwardAlong_delivered (hl : law.Serves excuse) (h : s.Sound law) {root : NodeId}
    (ht : s.tracked root = true) {order : List NodeId} (ho : (s.discover root).Topological order) :
    s.Delivered (s.turnsAlong root order) (s.backwardAlong root order).2 := by
  unfold backwardAlong
  rw [full_ones h root]
  exact sweep_delivered hl order h (ready_start ht ho)

/-- Differentiation is refused, or gives what it has collected to the leaves that have a turn, just
as it does without gradients. -/
theorem Healthy.backward_cases (h : s.Healthy) (root : NodeId) :
    (∃ e, s.backward root = (.error e, s) ∧ s.cleared.backward root = (.error e, s.cleared)) ∨
    s.tracked root = true ∧ ∃ order, (s.discover root).Topological order ∧
      s.backward root = s.backwardAlong root order ∧
      s.Delivered (s.turnsAlong root order) (s.backward root).2 ∧
      s.cleared.Delivered (s.turnsAlong root order) (s.cleared.backward root).2 := by
  have hl : RuleLaw.Serves (α := α) Rule.Fits Rule.Overflows := RuleLaw.fits_serves
  by_cases h1 : (s.value root).size = 1
  · by_cases ht : s.tracked root = true
    · have h1' : (s.cleared.value root).size = 1 := by rwa [value_cleared]
      have ht' : s.cleared.tracked root = true := by rwa [tracked_cleared]
      obtain ⟨order, ho, hT, hb⟩ := backwardBy_eq h.sound h1 ht Discovery.isToposort_toposort
      obtain ⟨order', ho', hT', hb'⟩ :=
        backwardBy_eq h.sound.cleared h1' ht' Discovery.isToposort_toposort
      obtain rfl : order = order' := by
        rw [discover_cleared, ho] at ho'
        exact Option.some.inj ho'
      refine .inr ⟨ht, order, hT, hb, ?_, ?_⟩
      · rw [Store.backward, hb]
        exact backwardAlong_delivered hl h.sound ht hT
      · rw [Store.backward, hb', ← turnsAlong_cleared hl h.sound ht hT]
        exact backwardAlong_delivered hl h.sound.cleared ht' hT'
    · refine .inl ⟨.refused .untracked, ?_, ?_⟩ <;>
        simp [Store.backward, backwardBy, backwardOrder, h1, ht, refuse]
  · refine .inl ⟨.refused (.notScalar (s.shape root)), ?_, ?_⟩ <;>
      simp [Store.backward, backwardBy, backwardOrder, h1, refuse]

/-- Differentiation adds to each gradient its contribution. -/
theorem Healthy.backward_grad (h : s.Healthy) (root n : NodeId) :
    (s.backward root).2.grad n = gather? (s.grad n) (s.contribution root n) := by
  unfold contribution
  rcases h.backward_cases root with ⟨e, hb, hb'⟩ | ⟨-, order, -, -, hD, hD'⟩
  · rw [hb, hb', grad_cleared, gather?]
  · by_cases hn : n ∈ (s.turnsAlong root order).map (·.1) ∧ s.origin n = none
    · obtain ⟨⟨turn, hturn, rfl⟩, ho⟩ := And.imp_left List.mem_map.1 hn
      rw [hD.gained turn hturn ho, hD'.gained turn hturn (by rwa [origin_cleared]), grad_cleared]
      rfl
    · have hout : n ∉ (s.turnsAlong root order).map (·.1) ∨ s.origin n ≠ none := by
        rwa [not_and_or] at hn
      rw [hD.untouched n hout, hD'.untouched n (by rwa [origin_cleared]), grad_cleared, gather?]

/-- Where it succeeds, it has something for the tracked leaves that the root was made from, and for
no other nodes. -/
theorem Healthy.contribution_ne_none (h : s.Healthy) {root : NodeId}
    (hok : (s.backward root).1 = .ok ()) (n : NodeId) :
    s.contribution root n ≠ none ↔ s.ReachesLeaf root n := by
  unfold contribution
  rcases h.backward_cases root with ⟨e, hb, -⟩ | ⟨ht, order, hT, hb, -, hD'⟩
  · rw [hb] at hok
    cases hok
  · rcases backwardAlong_spec RuleLaw.fits_serves h.sound ht hT with
      ⟨s', hs', -, hF⟩ | ⟨e, s', hs', -⟩
    · have hmem : n ∈ (s.turnsAlong root order).map (·.1) ↔ s.Reaches root n := by
        rw [hF.once, hF.mem_order]
      constructor
      · intro hne
        by_contra hn
        refine hne ((hD'.untouched n ?_).trans (grad_cleared s n))
        by_cases hr : s.Reaches root n
        · exact .inr fun ho => hn ⟨hr, hr.tracked ht, isLeaf_iff.2 (by rwa [← origin_cleared])⟩
        · exact .inl fun hin => hr (hmem.1 hin)
      · rintro ⟨hr, -, hleaf⟩
        obtain ⟨turn, hturn, rfl⟩ := List.mem_map.1 (hmem.2 hr)
        rw [hD'.gained turn hturn (by rw [origin_cleared]; exact isLeaf_iff.1 hleaf)]
        exact Option.some_ne_none _
    · rw [hb, hs'] at hok
      cases hok

end DiffTensor.Store
