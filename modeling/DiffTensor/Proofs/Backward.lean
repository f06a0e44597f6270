import DiffTensor.Proofs.Sweep

/-!
# What differentiation does

Started at a tracked node with a single element, along any topological order of what was
discovered, differentiation gives every reachable node exactly one turn (`Differentiated`), unless
a rule has an excuse. What a node has collected by its turn is everything that the nodes made
from it send, and the root has collected ones.

Leaves among the reachable nodes gain what they collected. The gradients of all other nodes stay
as they are.
-/

namespace DiffTensor.Store

variable {α : Type} [Scalar α] {s s' : Store α} {law : RuleLaw α} {excuse : Failure → Prop}

/-- An element of the gradient of a node; zero where there is none. -/
def gradientEntry (s : Store α) (n : NodeId) (i : Nat) : α := (s.grad n).elim 0 (·.entry i)

/-- The gradient that differentiation starts from. -/
def ones (s : Store α) (root : NodeId) : Buffer α :=
  ⟨s.shape root, Array.replicate (s.shape root).prod 1⟩

/-- The turns of differentiation along a given order. -/
def turnsAlong (s : Store α) (root : NodeId) (order : List NodeId) : List (NodeId × Buffer α) :=
  s.turns (s.discover root).index.contains order (.single root (s.ones root))

theorem full_ones (h : s.Sound law) (root : NodeId) :
    Buffer.full (s.shape root) (1 : α) = .ok (s.ones root) := by
  have hp : Extent.Proper (s.shape root) := (h.values root).proper
  have hr := hp.room
  simp [Buffer.full, hp.saturated, hr, ones]

/-- Along a given order, differentiation takes the turns that this order comes to. -/
theorem backwardAlong_eq_replay (h : s.Sound law) (root : NodeId) (order : List NodeId) :
    s.backwardAlong root order = s.replay (s.discover root).index.contains
      (s.turnsAlong root order) (.single root (s.ones root)) := by
  rw [backwardAlong, full_ones h root]
  exact sweep_eq_replay _ order s _

theorem tabulates_ones (s : Store α) (root : NodeId) :
    (s.ones root).Tabulates (s.shape root) fun _ => 1 := by
  refine ⟨rfl, by simp [Buffer.WellShaped, ones], fun k hk => ?_⟩
  rw [Buffer.entry_of_lt (by simpa [ones] using hk)]
  simp [ones]

/-- What differentiation from `root` along `order` leaves behind. -/
structure Differentiated (s : Store α) (root : NodeId) (order : List NodeId)
    (turns : List (NodeId × Buffer α)) (s' : Store α) : Prop where
  kept : s.Kept s'
  distinct : order.Nodup
  mem_order : ∀ n, n ∈ order ↔ s.Reaches root n
  once : turns.map (·.1) = order
  collected : ∀ turn ∈ turns,
    some turn.2 = collect none (received ((root, s.ones root) :: s.mail turns) turn.1)
  shaped : ∀ turn ∈ turns, turn.2.Shaped (s.shape turn.1)
  served : ∀ turn ∈ turns, ∀ made, s.origin turn.1 = some made →
    ∃ grads, made.rule.gradients turn.2 = .ok grads ∧ AllShaped grads (made.inputs.map s.shape)
  delivered : ∀ turn ∈ turns, s.origin turn.1 = none →
    s'.grad turn.1 = some (gather (s.grad turn.1) turn.2)
  untouched : ∀ n, ¬ (s.Reaches root n ∧ s.origin n = none) →
    s'.gradient n = s.gradient n ∧ s'.grad n = s.grad n

/-- At the start, only the root waits, and everything it was made from lies ahead. -/
theorem ready_start {root : NodeId} (ht : s.tracked root = true)
    {order : List NodeId} (ho : (s.discover root).Topological order) :
    s.Ready (s.discover root).index.contains order (.single root (s.ones root)) := by
  obtain ⟨hd, hmem, hf⟩ := topological_discover ht ho
  have hindex : ∀ n, (s.discover root).index.contains n = true ↔ s.Reaches root n := fun n =>
    List.contains_iff_mem.trans mem_index_discover
  refine ⟨fun n hn => lt_size_of_tracked (((hmem n).1 hn).tracked ht),
    fun n hn => (hindex n).2 ((hmem n).1 hn), hd, hf,
    fun n _ m _ hk => (hmem m).2 ((hindex m).1 hk), fun n g hg => ?_, fun n g hg => ?_⟩
  · unfold Pending.single at hg
    split at hg
    · rename_i e
      exact (hmem n).2 (e ▸ .refl)
    · cases hg
  · unfold Pending.single at hg
    split at hg
    · rename_i e
      cases hg
      exact e ▸ (tabulates_ones s root).shaped
    · cases hg

/-- A node with a turn sends something to each of its inputs. -/
theorem received_ne_nil {turns : List (NodeId × Buffer α)} {turn : NodeId × Buffer α}
    (ht : turn ∈ turns) {m : NodeId} (hm : m ∈ s.inputs turn.1)
    (hs : ∀ made, s.origin turn.1 = some made →
      ∃ grads, made.rule.gradients turn.2 = .ok grads ∧ AllShaped grads (made.inputs.map s.shape)) :
    received (s.mail turns) m ≠ [] := by
  cases ho : s.origin turn.1 with
  | none => simp [inputs_of_leaf ho] at hm
  | some made =>
    obtain ⟨grads, hg, hall⟩ := hs made ho
    rw [inputs_of_origin ho] at hm
    obtain ⟨p, hp, rfl⟩ := List.getElem_of_mem hm
    have hlen : grads.length = made.inputs.length := by simpa using hall.length_eq
    have hmem : (made.inputs[p], grads[p]) ∈ s.mail turns := by
      refine List.mem_flatMap.2 ⟨turn, ht, ?_⟩
      simp only [contributions, ho, hg]
      rw [← List.getElem_zip (h := by simp [hlen, hp])]
      exact List.getElem_mem _
    intro hnil
    have : grads[p] ∈ received (s.mail turns) made.inputs[p] :=
      List.mem_map.2 ⟨_, List.mem_filter.2 ⟨hmem, by simp⟩, rfl⟩
    rw [hnil] at this
    cases this

/-- Differentiation along a topological order of what was discovered. -/
theorem backwardAlong_spec (hl : law.Serves excuse) (h : s.Sound law) {root : NodeId}
    (ht : s.tracked root = true) {order : List NodeId}
    (ho : (s.discover root).Topological order) :
    (∃ s', s.backwardAlong root order = (.ok (), s') ∧ s'.Sound law ∧
      s.Differentiated root order (s.turnsAlong root order) s') ∨
    ∃ e s', s.backwardAlong root order = (.error e, s') ∧ excuse e ∧ s'.Sound law ∧
      s.Kept s' ∧ ∀ n, s.origin n ≠ none → s'.gradient n = s.gradient n := by
  obtain ⟨hd, hmem, -⟩ := topological_discover ht ho
  unfold backwardAlong
  rw [full_ones h root]
  rcases sweep_spec hl order h (ready_start ht ho) with ⟨s', h1, h2, h3⟩ | herr
  · refine Or.inl ⟨s', h1, h2, ?_⟩
    have hall : ∀ n, s.Reaches root n → n ∈ (s.turnsAlong root order).map (·.1) := fun n hn => by
      induction hn with
      | refl =>
        exact h3.reached root ((hmem root).2 .refl) (Or.inl (by simp [Pending.single]))
      | @tail c m hc hm ih =>
        obtain ⟨turn, hturn, rfl⟩ := List.mem_map.1 ih
        refine h3.reached m ((hmem m).2 (hc.tail hm)) (Or.inr ?_)
        exact received_ne_nil hturn (mem_trackedInputs.1 hm).1 (h3.served turn hturn)
    have honce : (s.turnsAlong root order).map (·.1) = order :=
      h3.inOrder.eq_of_length_le
        (hd.subperm fun n hn => hall n ((hmem n).1 hn)).length_le
    refine ⟨h3.kept, hd, hmem, honce, fun turn hturn => ?_, h3.shaped, h3.served, h3.delivered,
      fun n hn => h3.untouched n ?_⟩
    · rw [show some turn.2 = _ from h3.collected turn hturn, received_cons]
      by_cases e : turn.1 = root
      · simp [Pending.single, e, collect_cons, gather, turnsAlong]
      · simp [Pending.single, e, Ne.symm e, turnsAlong]
    · rw [show s.turns _ order _ = s.turnsAlong root order from rfl, honce, hmem]
      by_cases hr : s.Reaches root n
      · exact Or.inr fun h0 => hn ⟨hr, h0⟩
      · exact Or.inl hr
  · exact Or.inr herr

/-- Differentiation along such an order only fails at a rule. -/
theorem backwardAlong_failed (hl : law.Serves excuse) (h : s.Sound law) {root : NodeId}
    (ht : s.tracked root = true) {order : List NodeId}
    (ho : (s.discover root).Topological order) {e : Failure}
    (hb : s.backwardAlong root order = (.error e, s')) :
    ∃ n made g, s.Reaches root n ∧ s.origin n = some made ∧ g.Shaped (s.shape n) ∧
      made.rule.gradients g = .error e := by
  obtain ⟨-, hmem, -⟩ := topological_discover ht ho
  unfold backwardAlong at hb
  rw [full_ones h root] at hb
  obtain ⟨n, hn, made, g, hfound⟩ := sweep_failed hl order h (ready_start ht ho) hb
  exact ⟨n, made, g, (hmem n).1 hn, hfound⟩

/-- Behind `root` there is a recorded operation with a shape, its own or that of an input, whose
strides leave the word. -/
def Unsteady (s : Store α) (root : NodeId) : Prop :=
  ∃ n made, s.Reaches root n ∧ s.origin n = some made ∧
    ∃ m ∈ n :: made.inputs, ¬Layout.Steady (s.shape m)

/-- With rules of the library, it is such a shape that differentiation fails on. -/
theorem Sound.unsteady_of_failed (h : s.Sound Rule.Fits) {root : NodeId}
    (ht : s.tracked root = true) {order : List NodeId}
    (ho : (s.discover root).Topological order) {e : Failure}
    (hb : s.backwardAlong root order = (.error e, s')) : e = overflow ∧ s.Unsteady root := by
  obtain ⟨n, made, g, hn, hmade, hg, hr⟩ := backwardAlong_failed RuleLaw.fits_serves h ht ho hb
  rcases Rule.serves_of_fits (h.values n).proper (h.lawful n made hmade) g hg with
    ⟨grads, hgr, -⟩ | ⟨e', he, hcause, shape, hm, hbad⟩
  · cases hgr.symm.trans hr
  · obtain rfl : e' = e := Except.error.inj (he.symm.trans hr)
    obtain ⟨m, hmem, rfl⟩ : ∃ m ∈ n :: made.inputs, s.shape m = shape := List.mem_map.1 hm
    exact ⟨hcause, n, made, hn, hmade, m, hmem, hbad⟩

omit [Scalar α] in
/-- No strides leave the word where all dimensions, zeros aside, multiply to something moderate. -/
theorem not_unsteady (h : ∀ n < s.nodes.size, Layout.Moderate (s.shape n)) (root : NodeId) :
    ¬s.Unsteady root := by
  rintro ⟨n, made, -, -, m, -, hbad⟩
  exact hbad (moderate_shape h m).steady

/-- Differentiation from a tracked node with a single element goes along the order that sorting
finds. -/
theorem backwardBy_eq (h : s.Sound law) {root : NodeId} (h1 : (s.value root).size = 1)
    (ht : s.tracked root = true) {sort : Discovery → Option (List NodeId)}
    (hsort : Discovery.IsToposort sort) :
    ∃ order, sort (s.discover root) = some order ∧ (s.discover root).Topological order ∧
      s.backwardBy sort root = s.backwardAlong root order := by
  obtain ⟨order, ho, hT⟩ := hsort _ (h.acyclic root)
  exact ⟨order, ho, hT, by simp [backwardBy, backwardOrder, h1, ht, ho]⟩

/-- Differentiation that cannot begin is refused and changes nothing. -/
theorem backwardBy_cases (h : s.Sound law) (root : NodeId)
    {sort : Discovery → Option (List NodeId)} (hsort : Discovery.IsToposort sort) :
    (∃ cause, s.backwardBy sort root = (.error (.refused cause), s)) ∨
      (s.value root).size = 1 ∧ s.tracked root = true ∧ ∃ order,
        (s.discover root).Topological order ∧
          s.backwardBy sort root = s.backwardAlong root order := by
  by_cases h1 : (s.value root).size = 1
  · by_cases ht : s.tracked root = true
    · obtain ⟨order, -, hT, hb⟩ := backwardBy_eq h h1 ht hsort
      exact .inr ⟨h1, ht, order, hT, hb⟩
    · exact .inl ⟨.untracked, by simp [backwardBy, backwardOrder, h1, ht, refuse]⟩
  · exact .inl ⟨.notScalar (s.shape root), by simp [backwardBy, backwardOrder, h1, refuse]⟩

/-- Whatever differentiation comes to, the invariant still holds, and no recorded operation has got
a gradient. -/
theorem backwardBy_kept (hl : law.Serves excuse) (h : s.Sound law) (root : NodeId)
    {sort : Discovery → Option (List NodeId)} (hsort : Discovery.IsToposort sort) :
    (s.backwardBy sort root).2.Sound law ∧ s.Kept (s.backwardBy sort root).2 ∧
      ∀ n, s.origin n ≠ none → (s.backwardBy sort root).2.gradient n = s.gradient n := by
  rcases backwardBy_cases h root hsort with ⟨cause, hb⟩ | ⟨-, ht, order, hT, hb⟩
  · rw [hb]
    exact ⟨h, Kept.refl s, fun _ _ => rfl⟩
  · rw [hb]
    rcases backwardAlong_spec hl h ht hT with ⟨s', hs', hS, hD⟩ | ⟨e, s', hs', -, hS, hk, hg⟩
    · rw [hs']
      exact ⟨hS, hD.kept, fun n hn => (hD.untouched n fun h0 => hn h0.2).1⟩
    · rw [hs']
      exact ⟨hS, hk, hg⟩

end DiffTensor.Store
