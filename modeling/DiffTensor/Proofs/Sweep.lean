import DiffTensor.Graph.Backward
import DiffTensor.Proofs.Discovery

/-!
# What a sweep does

A sweep goes along an order in which results come before their inputs. `turns` is the trace of
it: the nodes that had their turn, each with the gradient that was collected for it.

The result is `Swept`: every node that was sent something has exactly one turn, and what it has
collected by then is everything that the turns before and after have sent to it, in the order
of the turns (`sweep_spec`). Leaves keep what they collected; no other gradient changes. This
holds for numbers of any kind, since nothing is added up in another order than the sweep's.
-/

namespace DiffTensor

variable {α : Type} [Scalar α]

/-! ## Collecting -/

omit [Scalar α] in
/-- What was sent to node `n`, in order. -/
def received (mail : List (NodeId × Buffer α)) (n : NodeId) : List (Buffer α) :=
  (mail.filter (·.1 = n)).map (·.2)

omit [Scalar α] in
theorem received_append (a b : List (NodeId × Buffer α)) (n : NodeId) :
    received (a ++ b) n = received a n ++ received b n := by
  simp [received]

omit [Scalar α] in
theorem received_eq_nil {mail : List (NodeId × Buffer α)} {n : NodeId}
    (h : ∀ p ∈ mail, p.1 ≠ n) : received mail n = [] := by
  simpa [received] using fun m g hm => h (m, g) hm

omit [Scalar α] in
theorem received_cons (p : NodeId × Buffer α) (mail : List (NodeId × Buffer α)) (n : NodeId) :
    received (p :: mail) n = if p.1 = n then p.2 :: received mail n else received mail n := by
  unfold received
  by_cases h : p.1 = n <;> simp [h]

/-- Buffers added one after the other onto what was there. -/
def collect (start : Option (Buffer α)) (buffers : List (Buffer α)) : Option (Buffer α) :=
  buffers.foldl (fun held g => some (Store.gather held g)) start

theorem collect_append (start : Option (Buffer α)) (a b : List (Buffer α)) :
    collect start (a ++ b) = collect (collect start a) b := by
  simp [collect]

theorem collect_cons (start : Option (Buffer α)) (g : Buffer α) (rest : List (Buffer α)) :
    collect start (g :: rest) = collect (some (Store.gather start g)) rest := rfl

theorem collect_eq_none_iff {start : Option (Buffer α)} : ∀ {buffers : List (Buffer α)},
    collect start buffers = none ↔ start = none ∧ buffers = []
  | [] => by simp [collect]
  | g :: rest => by
    rw [collect_cons, collect_eq_none_iff]
    simp

namespace Pending

/-- Everything that waits has the shape of the node that it waits for. -/
def Fitted (shape : NodeId → List Nat) (p : Pending α) : Prop :=
  ∀ n g, p n = some g → g.Shaped (shape n)

theorem add_eq {shape : NodeId → List Nat} {p : Pending α} (hp : p.Fitted shape) {n : NodeId}
    {g : Buffer α} (hg : g.Shaped (shape n)) :
    p.add n g = .ok (p.set n (some (Store.gather (p n) g))) := by
  unfold add
  cases h : p n with
  | none => rfl
  | some held =>
    have hs : held.shape = g.shape := (hp n held h).2.trans hg.2.symm
    simp [Buffer.accumulate_eq hs, Store.gather]

omit [Scalar α] in
theorem Fitted.set {shape : NodeId → List Nat} {p : Pending α} (hp : p.Fitted shape) {n : NodeId}
    {g : Buffer α} (hg : g.Shaped (shape n)) : (p.set n (some g)).Fitted shape := by
  intro k b hk
  by_cases e : k = n
  · subst e
    rw [set_self] at hk
    exact Option.some.inj hk ▸ hg
  · exact hp k b (by rwa [set_of_ne _ _ e] at hk)

/-- Spreading hands every known node what is sent to it. -/
theorem spread_eq {shape : NodeId → List Nat} (known : NodeId → Bool) :
    ∀ (mail : List (NodeId × Buffer α)) {p : Pending α}, p.Fitted shape →
    (∀ q ∈ mail, q.2.Shaped (shape q.1)) →
    ∃ p', p.spread known mail = .ok p' ∧ p'.Fitted shape ∧
      ∀ k, p' k = if known k then collect (p k) (received mail k) else p k
  | [], p, hp, _ => ⟨p, rfl, hp, fun k => by simp [received, collect]⟩
  | (n, g) :: rest, p, hp, h => by
    have hg : g.Shaped (shape n) := h (n, g) (by simp)
    have hr : ∀ q ∈ rest, q.2.Shaped (shape q.1) := fun q hq => h q (by simp [hq])
    unfold spread
    by_cases hn : known n = true
    · have hgather : (Store.gather (p n) g).Shaped (shape n) := Store.shaped_gather (hp n) hg
      obtain ⟨p', h1, h2, h3⟩ := spread_eq known rest (hp.set hgather) hr
      refine ⟨p', by simp [hn, add_eq hp hg, h1], h2, fun k => ?_⟩
      rw [h3 k, received_cons]
      by_cases e : k = n
      · subst e
        simp [set_self, collect_cons, hn]
      · simp [set_of_ne _ _ e, Ne.symm e]
    · obtain ⟨p', h1, h2, h3⟩ := spread_eq known rest hp hr
      refine ⟨p', by simp [hn, h1], h2, fun k => ?_⟩
      rw [h3 k, received_cons]
      by_cases e : n = k
      · subst e
        simp [hn]
      · simp [e]

end Pending

namespace Store

variable {s s' : Store α} {law : RuleLaw α} {excuse : Failure → Prop} {known : NodeId → Bool}

/-- What a node sends to its inputs when it has collected `g`. -/
def contributions (s : Store α) (n : NodeId) (g : Buffer α) : List (NodeId × Buffer α) :=
  match s.origin n with
  | none => []
  | some made =>
    match made.rule.gradients g with
    | .ok grads => made.inputs.zip grads
    | .error _ => []

/-- Everything that is sent in the given turns. -/
def mail (s : Store α) (turns : List (NodeId × Buffer α)) : List (NodeId × Buffer α) :=
  turns.flatMap fun turn => s.contributions turn.1 turn.2

/-- The turns of a sweep: each node that is visited, with the gradient collected for it. -/
def turns (s : Store α) (known : NodeId → Bool) :
    List NodeId → Pending α → List (NodeId × Buffer α)
  | [], _ => []
  | n :: rest, pending =>
    match pending n with
    | none => s.turns known rest pending
    | some g =>
      match s.visit known n g (pending.set n none) with
      | .error _ => [(n, g)]
      | .ok (pending, s) => (n, g) :: s.turns known rest pending

/-- Takes the given turns. -/
def replay (s : Store α) (known : NodeId → Bool) :
    List (NodeId × Buffer α) → Pending α → Outcome Unit × Store α
  | [], _ => (.ok (), s)
  | (n, g) :: rest, pending =>
    match s.visit known n g (pending.set n none) with
    | .error e => (.error e, s)
    | .ok (pending, s) => s.replay known rest pending

/-- A sweep takes its turns, and does nothing else. -/
theorem sweep_eq_replay (known : NodeId → Bool) : ∀ (order : List NodeId) (s : Store α)
    (pending : Pending α),
    s.sweep known order pending = s.replay known (s.turns known order pending) pending
  | [], _, _ => rfl
  | n :: rest, s, pending => by
    unfold sweep turns
    cases hp : pending n with
    | none => exact sweep_eq_replay known rest s pending
    | some g =>
      cases hv : s.visit known n g (pending.set n none) with
      | error e => simp [replay, hv]
      | ok next => simpa [replay, hv] using sweep_eq_replay known rest next.2 next.1

theorem mem_inputs_of_contributions {n : NodeId} {g : Buffer α} {p : NodeId × Buffer α}
    (h : p ∈ s.contributions n g) : p.1 ∈ s.inputs n := by
  unfold contributions at h
  cases ho : s.origin n with
  | none => simp [ho] at h
  | some made =>
    rw [inputs_of_origin ho]
    cases hg : made.rule.gradients g with
    | error e => simp [ho, hg] at h
    | ok grads =>
      simp only [ho, hg] at h
      exact (List.of_mem_zip h).1

theorem Kept.mail_eq (h : s.Kept s') : s'.mail = s.mail := by
  funext turns
  refine List.flatMap_congr fun turn _ => ?_
  rw [contributions, h.origin_eq, contributions]

/-! ## One turn -/

/-- What one turn does. -/
structure Visited (s : Store α) (known : NodeId → Bool) (n : NodeId) (g : Buffer α)
    (pending pending' : Pending α) (s' : Store α) : Prop where
  fitted : pending'.Fitted s.shape
  sent : ∀ k, pending' k =
    if known k then collect (pending k) (received (s.contributions n g) k) else pending k
  leaf : s.origin n = none → s.Gained n g s'
  result : s.origin n ≠ none → s' = s
  served : ∀ made, s.origin n = some made → ∃ grads, made.rule.gradients g = .ok grads ∧
    AllShaped grads (made.inputs.map s.shape)

theorem Visited.kept {n : NodeId} {g : Buffer α} {pending pending' : Pending α}
    (h : s.Visited known n g pending pending' s') : s.Kept s' := by
  by_cases ho : s.origin n = none
  · exact (h.leaf ho).kept
  · exact h.result ho ▸ Kept.refl s

theorem Visited.elsewhere {n : NodeId} {g : Buffer α} {pending pending' : Pending α}
    (h : s.Visited known n g pending pending' s') {k : NodeId} (hk : k ≠ n ∨ s.origin k ≠ none) :
    s'.gradient k = s.gradient k ∧ s'.grad k = s.grad k := by
  by_cases ho : s.origin n = none
  · exact (h.leaf ho).elsewhere k fun e => hk.elim (fun hk => hk e) fun hk => hk (e ▸ ho)
  · rw [h.result ho]
    exact ⟨rfl, rfl⟩

omit [Scalar α] in
theorem shaped_of_mem_zip : ∀ {inputs : List NodeId} {grads : List (Buffer α)},
    AllShaped grads (inputs.map s.shape) →
    ∀ q ∈ inputs.zip grads, q.2.Shaped (s.shape q.1)
  | m :: inputs, g :: grads, .cons hg h, q, hq => by
    rcases List.mem_cons.1 hq with rfl | hq
    · exact hg
    · exact shaped_of_mem_zip h q hq

/-- A turn succeeds unless the node's rule has an excuse. -/
theorem visit_spec (hl : law.Serves excuse) (h : s.Sound law) (known : NodeId → Bool) {n : NodeId}
    (hn : n < s.nodes.size) {g : Buffer α} (hg : g.Shaped (s.shape n)) {pending : Pending α}
    (hp : pending.Fitted s.shape) :
    (∃ pending' s', s.visit known n g pending = .ok (pending', s') ∧ s'.Sound law ∧
      s.Visited known n g pending pending' s') ∨
    ∃ e, s.visit known n g pending = .error e ∧ excuse e := by
  unfold visit
  cases ho : s.origin n with
  | none =>
    obtain ⟨s', ha, hS, hG⟩ := h.accumulate hn hg
    refine Or.inl ⟨pending, s', by simp [ha], hS, hp, fun k => ?_, fun _ => hG, fun hne => ?_,
      fun made hm => ?_⟩
    · simp [contributions, ho, received, collect]
    · exact absurd ho hne
    · rw [ho] at hm
      cases hm
  | some made =>
    rcases hl _ _ _ (h.values n).proper (h.lawful n made ho) g hg with
      ⟨grads, hgr, hall⟩ | ⟨e, he, hx⟩
    · have hlen : grads.length = made.inputs.length := by simpa using hall.length_eq
      obtain ⟨pending', h1, h2, h3⟩ := Pending.spread_eq known
        (made.inputs.zip grads) hp (shaped_of_mem_zip hall)
      refine Or.inl ⟨pending', s, by simp [hgr, hlen, h1], h, h2, fun k => ?_, fun hn => ?_,
        fun _ => rfl, fun made' hm => ?_⟩
      · simp only [h3 k, contributions, ho, hgr]
      · rw [ho] at hn
        cases hn
      · obtain rfl : made = made' := Option.some.inj (ho.symm.trans hm)
        exact ⟨grads, hgr, hall⟩
    · exact Or.inr ⟨e, by simp [he], hx⟩

/-- A turn that fails has come to a rule that fails. -/
theorem visit_failed (hl : law.Serves excuse) (h : s.Sound law) {n : NodeId}
    (hn : n < s.nodes.size) {g : Buffer α} (hg : g.Shaped (s.shape n)) {pending : Pending α}
    (hp : pending.Fitted s.shape) {e : Failure} (hv : s.visit known n g pending = .error e) :
    ∃ made, s.origin n = some made ∧ made.rule.gradients g = .error e := by
  unfold visit at hv
  cases ho : s.origin n with
  | none =>
    obtain ⟨s', ha, -⟩ := h.accumulate hn hg
    simp [ho, ha] at hv
  | some made =>
    refine ⟨made, rfl, ?_⟩
    rcases hl _ _ _ (h.values n).proper (h.lawful n made ho) g hg with
      ⟨grads, hgr, hall⟩ | ⟨e', he, -⟩
    · have hlen : grads.length = made.inputs.length := by simpa using hall.length_eq
      obtain ⟨pending', h1, -, -⟩ := Pending.spread_eq known
        (made.inputs.zip grads) hp (shaped_of_mem_zip hall)
      simp [ho, hgr, hlen, h1] at hv
    · simp only [ho, he, Outcome.error_bind, Except.error.injEq] at hv
      rw [he, hv]

/-! ## The whole sweep -/

/-- The rest of the order can be swept: it lists distinct known nodes, none of them before one
that it is an input of, together with all of their known inputs and everything that waits. -/
structure Ready (s : Store α) (known : NodeId → Bool) (order : List NodeId)
    (pending : Pending α) : Prop where
  existing : ∀ n ∈ order, n < s.nodes.size
  listed : ∀ n ∈ order, known n = true
  distinct : order.Nodup
  forward : order.Pairwise fun a b => a ∉ s.inputs b
  closed : ∀ n ∈ order, ∀ m ∈ s.inputs n, known m = true → m ∈ order
  waiting : ∀ n g, pending n = some g → n ∈ order
  fitted : pending.Fitted s.shape

/-- What a sweep along `order` leaves behind: its turns and the graph afterwards. -/
structure Swept (s : Store α) (order : List NodeId) (pending : Pending α)
    (turns : List (NodeId × Buffer α)) (s' : Store α) : Prop where
  kept : s.Kept s'
  inOrder : (turns.map (·.1)).Sublist order
  reached : ∀ n ∈ order, pending n ≠ none ∨ received (s.mail turns) n ≠ [] →
    n ∈ turns.map (·.1)
  collected : ∀ turn ∈ turns,
    some turn.2 = collect (pending turn.1) (received (s.mail turns) turn.1)
  shaped : ∀ turn ∈ turns, turn.2.Shaped (s.shape turn.1)
  served : ∀ turn ∈ turns, ∀ made, s.origin turn.1 = some made →
    ∃ grads, made.rule.gradients turn.2 = .ok grads ∧ AllShaped grads (made.inputs.map s.shape)
  delivered : ∀ turn ∈ turns, s.origin turn.1 = none →
    s'.grad turn.1 = some (gather (s.grad turn.1) turn.2)
  untouched : ∀ n, n ∉ turns.map (·.1) ∨ s.origin n ≠ none →
    s'.gradient n = s.gradient n ∧ s'.grad n = s.grad n

/-- Nothing is sent to a node by those that it is no input of. -/
theorem received_mail_eq_nil {turns : List (NodeId × Buffer α)} {n : NodeId}
    (h : ∀ k ∈ turns.map (·.1), n ∉ s.inputs k) : received (s.mail turns) n = [] := by
  refine received_eq_nil fun p hp e => ?_
  obtain ⟨turn, ht, hp⟩ := List.mem_flatMap.1 hp
  exact h turn.1 (List.mem_map_of_mem ht) (e ▸ mem_inputs_of_contributions hp)

omit [Scalar α] in
/-- After the first node, the rest of the order is ready again. -/
theorem Ready.rest {n : NodeId} {rest : List NodeId} {pending pending' : Pending α}
    (h : s.Ready known (n :: rest) pending) (hk : s.Kept s') (hp : pending'.Fitted s.shape)
    (hw : ∀ k g, pending' k = some g → k ∈ rest) : s'.Ready known rest pending' := by
  have hlt : ∀ k ∈ rest, k < s.nodes.size := fun k hk => h.existing k (by simp [hk])
  obtain ⟨hno, hpw⟩ := List.pairwise_cons.1 h.forward
  refine ⟨fun k hk' => Nat.lt_of_lt_of_le (hlt k hk') hk.size_le,
    fun k hk' => h.listed k (by simp [hk']), (List.nodup_cons.1 h.distinct).2,
    hk.inputs_eq ▸ hpw,
    fun k hk' m hm hkm => ?_, hw, fun k g hg => ?_⟩
  · rw [hk.inputs_eq] at hm
    rcases List.mem_cons.1 (h.closed k (by simp [hk']) m hm hkm) with rfl | hmr
    · exact absurd hm (hno k hk')
    · exact hmr
  · rw [hk.shape_eq k (hlt k (hw k g hg))]
    exact hp k g hg

omit [Scalar α] in
/-- A node that nothing waits for is passed over. -/
theorem Ready.skip {n : NodeId} {rest : List NodeId} {pending : Pending α}
    (h : s.Ready known (n :: rest) pending) (hn : pending n = none) :
    s.Ready known rest pending := by
  refine h.rest (Kept.refl s) h.fitted fun k g hk => ?_
  rcases List.mem_cons.1 (h.waiting k g hk) with rfl | hk'
  · rw [hn] at hk
    cases hk
  · exact hk'

omit [Scalar α] in
theorem Ready.fitted_set {n : NodeId} {rest : List NodeId} {pending : Pending α}
    (h : s.Ready known (n :: rest) pending) :
    (pending.set n none).Fitted s.shape := fun k b hk => by
  by_cases e : k = n
  · rw [e, Pending.set_self] at hk
    cases hk
  · exact h.fitted k b (by rwa [Pending.set_of_ne _ _ e] at hk)

/-- After the first turn, only nodes of the rest wait. -/
theorem Visited.waiting {n : NodeId} {rest : List NodeId} {pending pending' : Pending α}
    {g : Buffer α} (hV : s.Visited known n g (pending.set n none) pending' s') (h : s.Sound law)
    (hR : s.Ready known (n :: rest) pending) : ∀ k b, pending' k = some b → k ∈ rest := by
  intro k b hk
  have old : ∀ c, pending.set n none k = some c → k ∈ rest := fun c hc => by
    by_cases e : k = n
    · rw [e, Pending.set_self] at hc
      cases hc
    · rw [Pending.set_of_ne _ _ e] at hc
      exact (List.mem_cons.1 (hR.waiting k c hc)).resolve_left e
  rw [hV.sent k] at hk
  split at hk
  · rename_i hkn
    cases hc : pending.set n none k with
    | some c => exact old c hc
    | none =>
      have hne : received (s.contributions n g) k ≠ [] := fun h0 => by
        rw [hc, h0] at hk
        cases hk
      obtain ⟨d, hd⟩ := List.exists_mem_of_ne_nil _ hne
      simp only [received, List.mem_map, List.mem_filter, decide_eq_true_eq] at hd
      obtain ⟨q, ⟨hq, rfl⟩, -⟩ := hd
      have hin := mem_inputs_of_contributions hq
      refine (List.mem_cons.1 (hR.closed n (by simp) _ hin hkn)).resolve_left fun e => ?_
      exact Nat.lt_irrefl n (h.older n n (e ▸ hin))
  · exact old b hk

theorem Swept.skip {n : NodeId} {rest : List NodeId} {pending : Pending α}
    {turns : List (NodeId × Buffer α)} (h : s.Ready known (n :: rest) pending)
    (hn : pending n = none) (hS : s.Swept rest pending turns s') :
    s.Swept (n :: rest) pending turns s' := by
  refine { hS with inOrder := hS.inOrder.cons n, reached := fun k hk hr => ?_ }
  rcases List.mem_cons.1 hk with rfl | hk
  · have := received_mail_eq_nil (s := s) (n := k) fun j hj =>
      (List.pairwise_cons.1 h.forward).1 j (hS.inOrder.subset hj)
    simp [hn, this] at hr
  · exact hS.reached k hk hr

/-- The first node of an order is sent nothing any more. -/
theorem Ready.received_first {n : NodeId} {rest : List NodeId} {pending : Pending α}
    {turns : List (NodeId × Buffer α)} (hR : s.Ready known (n :: rest) pending)
    (h : s.Sound law) (ht : (turns.map (·.1)).Sublist rest) (g : Buffer α) :
    received (s.mail ((n, g) :: turns)) n = [] := by
  refine received_mail_eq_nil fun k hk => ?_
  rcases List.mem_cons.1 hk with rfl | hk
  · exact fun hself => Nat.lt_irrefl _ (h.older _ _ hself)
  · exact (List.pairwise_cons.1 hR.forward).1 k (ht.subset hk)

/-- What waits for a later node after the first turn has been collected from all that waited before
and all that was sent. -/
theorem Visited.collect_eq {n k : NodeId} {rest : List NodeId} {pending pending' : Pending α}
    {g : Buffer α} (hV : s.Visited known n g (pending.set n none) pending' s')
    (hR : s.Ready known (n :: rest) pending) (hk : k ∈ rest) (turns : List (NodeId × Buffer α)) :
    collect (pending' k) (received (s.mail turns) k) =
      collect (pending k) (received (s.mail ((n, g) :: turns)) k) := by
  have hne : k ≠ n := fun e => (List.nodup_cons.1 hR.distinct).1 (e ▸ hk)
  have hall : s.mail ((n, g) :: turns) = s.contributions n g ++ s.mail turns := rfl
  rw [hV.sent k, if_pos (hR.listed k (List.mem_cons_of_mem _ hk)), Pending.set_of_ne _ _ hne, hall,
    received_append, collect_append]

/-- A first turn, and the sweep of the rest, make a sweep. -/
theorem Swept.cons {n : NodeId} {rest : List NodeId} {pending pending' : Pending α} {g : Buffer α}
    {turns : List (NodeId × Buffer α)} {s₁ : Store α}
    (h : s.Sound law) (hR : s.Ready known (n :: rest) pending) (hn : pending n = some g)
    (hV : s.Visited known n g (pending.set n none) pending' s₁)
    (hS : s₁.Swept rest pending' turns s') :
    s.Swept (n :: rest) pending ((n, g) :: turns) s' := by
  have hin : ∀ turn ∈ turns, turn.1 ∈ rest := fun turn ht =>
    hS.inOrder.subset (List.mem_map_of_mem ht)
  have hne : ∀ k ∈ rest, k ≠ n := fun k hk e => (List.nodup_cons.1 hR.distinct).1 (e ▸ hk)
  have horigin : s₁.origin = s.origin := hV.kept.origin_eq
  have hmail : s₁.mail = s.mail := hV.kept.mail_eq
  constructor
  case kept => exact hV.kept.trans hS.kept
  case inOrder => exact hS.inOrder.cons_cons n
  case reached =>
    intro k hk hr
    rcases List.mem_cons.1 hk with rfl | hk
    · exact List.mem_cons_self
    · refine List.mem_cons_of_mem _ (hS.reached k hk ?_)
      by_contra hno
      simp only [ne_eq, not_or, not_not] at hno
      rw [hmail, ← collect_eq_none_iff, hV.collect_eq hR hk, collect_eq_none_iff] at hno
      simp [hno] at hr
  case collected =>
    refine List.forall_mem_cons.2 ⟨?_, fun turn ht => ?_⟩
    · rw [hR.received_first h hS.inOrder, hn]
      rfl
    · rw [hS.collected turn ht, hmail, hV.collect_eq hR (hin turn ht)]
  case shaped =>
    refine List.forall_mem_cons.2 ⟨hR.fitted n g hn, fun turn ht => ?_⟩
    rw [← hV.kept.shape_eq _ (hR.existing _ (List.mem_cons_of_mem _ (hin turn ht)))]
    exact hS.shaped turn ht
  case served =>
    refine List.forall_mem_cons.2 ⟨hV.served, fun turn ht made hm => ?_⟩
    rw [← h.map_shape_inputs hV.kept.grown hm]
    exact hS.served turn ht made (horigin ▸ hm)
  case delivered =>
    refine List.forall_mem_cons.2 ⟨fun ho => ?_, fun turn ht ho => ?_⟩
    · obtain ⟨-, hlater⟩ := hS.untouched n (.inl fun hk => hne n (hS.inOrder.subset hk) rfl)
      rw [hlater, (hV.leaf ho).here]
    · rw [hS.delivered turn ht (horigin ▸ ho), (hV.elsewhere (.inl (hne _ (hin turn ht)))).2]
  case untouched =>
    intro k hk
    have hfirst : k ≠ n ∨ s.origin k ≠ none :=
      hk.imp_left fun hk e => hk (e ▸ List.mem_cons_self)
    have hlater : k ∉ turns.map (·.1) ∨ s₁.origin k ≠ none :=
      hk.imp (fun hk h => hk (List.mem_cons_of_mem _ h)) fun ho => horigin ▸ ho
    obtain ⟨hgradient, hgrad⟩ := hS.untouched k hlater
    obtain ⟨hgradient', hgrad'⟩ := hV.elsewhere hfirst
    exact ⟨hgradient.trans hgradient', hgrad.trans hgrad'⟩

/-- A sweep gives everything that was sent something its turn, or stops with an excuse. Either way
the graph stays sound and no recorded operation gets a gradient. -/
theorem sweep_spec (hl : law.Serves excuse) : ∀ (order : List NodeId) {s : Store α}
    {pending : Pending α}, s.Sound law → s.Ready known order pending →
    (∃ s', s.sweep known order pending = (.ok (), s') ∧ s'.Sound law ∧
      s.Swept order pending (s.turns known order pending) s') ∨
    ∃ e s', s.sweep known order pending = (.error e, s') ∧ excuse e ∧ s'.Sound law ∧
      s.Kept s' ∧ ∀ n, s.origin n ≠ none → s'.gradient n = s.gradient n
  | [], s, pending, h, _ =>
    Or.inl ⟨s, rfl, h, Kept.refl s, .slnil, nofun, nofun, nofun, nofun, nofun,
      fun _ _ => ⟨rfl, rfl⟩⟩
  | n :: rest, s, pending, h, hR => by
    unfold sweep turns
    cases hn : pending n with
    | none =>
      rcases sweep_spec hl rest h (hR.skip hn) with ⟨s', h1, h2, h3⟩ | herr
      · exact Or.inl ⟨s', h1, h2, h3.skip hR hn⟩
      · exact Or.inr herr
    | some g =>
      rcases visit_spec hl h known (hR.existing n (by simp)) (hR.fitted n g hn) hR.fitted_set with
        ⟨pending', s₁, hv, hS, hV⟩ | ⟨e, hv, he⟩
      · have hw := hV.waiting h hR
        simp only [hv]
        rcases sweep_spec hl rest hS (hR.rest hV.kept hV.fitted hw) with
          ⟨s', h1, h2, h3⟩ | ⟨e, s', h1, h2, h3, h4, h5⟩
        · exact Or.inl ⟨s', h1, h2, .cons h hR hn hV h3⟩
        · refine Or.inr ⟨e, s', h1, h2, h3, hV.kept.trans h4, fun k hk => ?_⟩
          rw [h5 k (hV.kept.origin_eq ▸ hk), (hV.elsewhere (Or.inr hk)).1]
      · exact Or.inr ⟨e, s, by simp only [hv], he, h, Kept.refl s, fun _ _ => rfl⟩

/-- A sweep that stops has come to a node whose rule fails on a gradient of the node's shape. -/
theorem sweep_failed (hl : law.Serves excuse) : ∀ (order : List NodeId) {s s' : Store α}
    {pending : Pending α} {e : Failure}, s.Sound law → s.Ready known order pending →
    s.sweep known order pending = (.error e, s') →
    ∃ n ∈ order, ∃ made g, s.origin n = some made ∧ g.Shaped (s.shape n) ∧
      made.rule.gradients g = .error e
  | [], _, _, _, _, _, _, hs => nomatch hs
  | n :: rest, s, s', pending, e, h, hR, hs => by
    unfold sweep at hs
    cases hn : pending n with
    | none =>
      simp only [hn] at hs
      obtain ⟨m, hm, hfound⟩ := sweep_failed hl rest h (hR.skip hn) hs
      exact ⟨m, List.mem_cons_of_mem _ hm, hfound⟩
    | some g =>
      have hlt := hR.existing n List.mem_cons_self
      have hg := hR.fitted n g hn
      rcases visit_spec hl h known hlt hg hR.fitted_set with
        ⟨pending', s₁, hv, hS, hV⟩ | ⟨e', hv, -⟩
      · simp only [hn, hv] at hs
        have hrest := hR.rest hV.kept hV.fitted (hV.waiting h hR)
        obtain ⟨m, hm, made, g', hmade, hg', hr⟩ := sweep_failed hl rest hS hrest hs
        refine ⟨m, List.mem_cons_of_mem _ hm, made, g', hV.kept.origin_eq ▸ hmade, ?_, hr⟩
        rwa [hV.kept.shape_eq m (hR.existing m (List.mem_cons_of_mem _ hm))] at hg'
      · simp only [hn, hv, Prod.mk.injEq, Except.error.injEq] at hs
        obtain ⟨made, hmade, hr⟩ := visit_failed hl h hlt hg hR.fitted_set hv
        exact ⟨n, List.mem_cons_self, made, g, hmade, hg, hs.1 ▸ hr⟩

end Store

end DiffTensor
