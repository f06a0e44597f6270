import DiffTensor.Proofs.Exact
import DiffTensor.Proofs.Backward

/-!
# What differentiation conserves

Give every buffer at a node a worth, additive in the buffer. If what a node sends to its tracked
inputs is worth as much as what it had collected (`Conserved`), then what the leaves gain is worth
as much as the ones that the root started with (`Differentiated.balance`).

Both theorems about the result of differentiation come from here: once the worth of a gradient is
one element of what arrives along all paths to a leaf, once it is the product with a tangent.
-/

namespace DiffTensor.Store

open Finset

variable {K : Type} [Field K] [LinearOrder K] [Elementary K] {s s' : Store K}

/-- A worth of gradients that no turn changes. -/
structure Conserved (s : Store K) (root : NodeId) (worth : NodeId → Buffer K → K) : Prop where
  plus : ∀ n, s.Reaches root n → ∀ a b : Buffer K, a.Shaped (s.shape n) → b.Shaped (s.shape n) →
    worth n (a.plus b) = worth n a + worth n b
  sent : ∀ n, s.Reaches root n → ∀ g : Buffer K, g.Shaped (s.shape n) →
    ∀ made grads, s.origin n = some made → made.rule.gradients g = .ok grads →
    AllShaped grads (made.inputs.map s.shape) →
    worth n g = (((made.inputs.zip grads).filter fun q => s.tracked q.1).map
      fun q => worth q.1 q.2).sum

/-- What is sent to listed nodes, summed up by receiver. -/
theorem sum_received {order : List NodeId} (hd : order.Nodup) (f : NodeId → Buffer K → K) :
    ∀ mail : List (NodeId × Buffer K),
    (order.map fun n => ((received mail n).map (f n)).sum).sum =
      ((mail.filter (·.1 ∈ order)).map fun q => f q.1 q.2).sum
  | [] => by simp [received]
  | q :: mail => by
    have hq : ∀ n, ((received (q :: mail) n).map (f n)).sum =
        (if q.1 = n then f q.1 q.2 else 0) + ((received mail n).map (f n)).sum := fun n => by
      rw [received_cons]
      by_cases e : q.1 = n
      · subst e
        simp
      · simp [e]
    have hone : (order.map fun n => if q.1 = n then f q.1 q.2 else 0).sum =
        if q.1 ∈ order then f q.1 q.2 else 0 := by
      rw [← List.sum_toFinset _ hd, sum_ite_eq]
      simp
    simp only [hq]
    rw [List.sum_map_add, hone, sum_received hd f mail]
    by_cases e : q.1 ∈ order <;> simp [e]

omit [Field K] [LinearOrder K] [Elementary K] in
/-- The inputs of a reachable node that are reachable are its tracked ones. -/
theorem reaches_input_iff {root n m : NodeId} (ht : s.tracked root = true) (hn : s.Reaches root n)
    (hm : m ∈ s.inputs n) : s.Reaches root m ↔ s.tracked m = true :=
  ⟨fun h => h.tracked ht, fun h => hn.tail (mem_trackedInputs.2 ⟨hm, h⟩)⟩

namespace Differentiated

variable {root : NodeId} {order : List NodeId} {turns : List (NodeId × Buffer K)}
  {worth : NodeId → Buffer K → K}

theorem reaches (h : s.Differentiated root order turns s') {turn : NodeId × Buffer K}
    (ht : turn ∈ turns) : s.Reaches root turn.1 :=
  (h.mem_order _).1 (h.once ▸ List.mem_map_of_mem ht)

/-- Everything that is sent has the shape of its receiver. -/
theorem shaped_mail (h : s.Differentiated root order turns s') :
    ∀ q ∈ (root, s.ones root) :: s.mail turns, q.2.Shaped (s.shape q.1) := by
  intro q hq
  rcases List.mem_cons.1 hq with rfl | hq
  · exact (tabulates_ones s root).shaped
  · obtain ⟨turn, ht, hq⟩ := List.mem_flatMap.1 hq
    cases ho : s.origin turn.1 with
    | none => simp [contributions, ho] at hq
    | some made =>
      obtain ⟨grads, hg, hall⟩ := h.served turn ht made ho
      simp only [contributions, ho, hg] at hq
      exact shaped_of_mem_zip hall q hq

/-- An additive function of what a node has collected is the sum over what was sent to it. -/
theorem collected_sum (h : s.Differentiated root order turns s') {turn : NodeId × Buffer K}
    (ht : turn ∈ turns) {f : Buffer K → K}
    (hf : ∀ a b : Buffer K, a.Shaped (s.shape turn.1) → b.Shaped (s.shape turn.1) →
      f (a.plus b) = f a + f b) :
    f turn.2 = ((received ((root, s.ones root) :: s.mail turns) turn.1).map f).sum := by
  have hs : ∀ b ∈ received ((root, s.ones root) :: s.mail turns) turn.1,
      b.Shaped (s.shape turn.1) := fun b hb => by
    simp only [received, List.mem_map, List.mem_filter, decide_eq_true_eq] at hb
    obtain ⟨q, ⟨hq, e⟩, rfl⟩ := hb
    exact e ▸ h.shaped_mail q hq
  rw [map_collect hf _ hs (fun b hb => by cases hb) (h.collected turn ht).symm]
  exact zero_add _

/-- What a turn sends to reachable nodes is worth what was collected for it; a leaf sends
nothing. -/
theorem worth_sent (h : s.Differentiated root order turns s') (ht : s.tracked root = true)
    (hw : s.Conserved root worth) {turn : NodeId × Buffer K} (hturn : turn ∈ turns) :
    (((s.contributions turn.1 turn.2).filter (·.1 ∈ order)).map fun q => worth q.1 q.2).sum =
      if s.isLeaf turn.1 then 0 else worth turn.1 turn.2 := by
  have hr := h.reaches hturn
  cases ho : s.origin turn.1 with
  | none => simp [contributions, ho, isLeaf]
  | some made =>
    obtain ⟨grads, hg, hall⟩ := h.served turn hturn made ho
    have hfilter : (made.inputs.zip grads).filter (·.1 ∈ order) =
        (made.inputs.zip grads).filter fun q => s.tracked q.1 :=
      List.filter_congr fun q hq => by
        have hin : q.1 ∈ s.inputs turn.1 := inputs_of_origin ho ▸ (List.of_mem_zip hq).1
        rw [Bool.eq_iff_iff, decide_eq_true_eq, h.mem_order, reaches_input_iff ht hr hin]
    simp only [contributions, ho, hg, isLeaf, Option.isNone_some, Bool.false_eq_true, if_false]
    rw [hfilter, ← hw.sent _ hr _ (h.shaped turn hturn) made grads ho hg hall]

/-- What the leaves have collected is worth what the root started with. -/
theorem balance (h : s.Differentiated root order turns s') (ht : s.tracked root = true)
    (hw : s.Conserved root worth) :
    ((turns.filter fun t => s.isLeaf t.1).map fun t => worth t.1 t.2).sum =
      worth root (s.ones root) := by
  have hroot : root ∈ order := (h.mem_order root).2 .refl
  -- by receivers, everything that was sent is what was collected
  have hall : (turns.map fun t => worth t.1 t.2).sum =
      worth root (s.ones root) +
        (turns.map fun t => if s.isLeaf t.1 then 0 else worth t.1 t.2).sum := calc
    (turns.map fun t => worth t.1 t.2).sum
      = (order.map fun n =>
          ((received ((root, s.ones root) :: s.mail turns) n).map (worth n)).sum).sum := by
        rw [← h.once, List.map_map]
        exact congrArg List.sum (List.map_congr_left fun t hturn =>
          h.collected_sum hturn (hw.plus _ (h.reaches hturn)))
    _ = worth root (s.ones root) +
        (((s.mail turns).filter (·.1 ∈ order)).map fun q => worth q.1 q.2).sum := by
        rw [sum_received h.distinct]
        simp [hroot]
    _ = _ := by
        rw [mail, List.filter_flatMap, List.map_flatMap, List.flatMap_def, List.sum_flatten,
          List.map_map]
        exact congrArg _ (congrArg List.sum (List.map_congr_left fun t hturn =>
          h.worth_sent ht hw hturn))
  have hsplit : (turns.map fun t => worth t.1 t.2).sum =
      (turns.map fun t => if s.isLeaf t.1 then worth t.1 t.2 else 0).sum +
        (turns.map fun t => if s.isLeaf t.1 then 0 else worth t.1 t.2).sum := by
    rw [← List.sum_map_add]
    refine congrArg List.sum (List.map_congr_left fun t _ => ?_)
    split <;> simp
  rw [sum_filter_map]
  exact add_right_cancel (hsplit.symm.trans hall)

/-- Among turns of distinct nodes, a sum over those of one node has one term. -/
theorem sum_turn {n : NodeId} {g : Buffer K} (f : Buffer K → K) :
    ∀ {turns : List (NodeId × Buffer K)}, (turns.map (·.1)).Nodup → (n, g) ∈ turns →
    (turns.map fun t => if t.1 = n then f t.2 else 0).sum = f g
  | t :: turns, hd, h => by
    rw [List.map_cons, List.nodup_cons] at hd
    rcases List.mem_cons.1 h with rfl | h
    · have hz : (turns.map fun t => if t.1 = n then f t.2 else 0) = turns.map fun _ => 0 :=
        List.map_congr_left fun t ht => if_neg fun e => hd.1 (List.mem_map.2 ⟨t, ht, e⟩)
      simp [hz]
    · have hne : t.1 ≠ n := fun e => hd.1 (List.mem_map.2 ⟨_, h, e.symm⟩)
      rw [List.map_cons, List.sum_cons, if_neg hne, zero_add, sum_turn f hd.2 h]

theorem exists_turn (h : s.Differentiated root order turns s') {n : NodeId}
    (hn : s.Reaches root n) : ∃ g, (n, g) ∈ turns := by
  have hmem : n ∈ turns.map (·.1) := h.once ▸ (h.mem_order n).2 hn
  obtain ⟨⟨_, g⟩, hg, rfl⟩ := List.mem_map.1 hmem
  exact ⟨g, hg⟩

end Differentiated

end DiffTensor.Store
