import Mathlib.Algebra.Order.Ring.Rat
import DiffTensor.Proofs.Balance

/-!
# Differentiation as a sum over paths

Graphs are built here from rules given from outside, of which only this is known: they return one
gradient for each input, and sums for sums (`Rule.Regular`).

A path leads from a node down to another one; it is given by the positions of the operands that
it goes through, so an operand that occurs twice makes two paths. `carry` applies the rules along
a path. Differentiation adds to each leaf the sum over all paths of what they carry, whatever
order the nodes are sorted into (`backwardBy_eq_pathSum`).
-/

namespace DiffTensor

/-- The rule returns one gradient for each input, and a sum for a sum. -/
structure Rule.Regular {α : Type} [Scalar α] (rule : Rule α) (inputs : List (List Nat))
    (output : List Nat) : Prop where
  serves : rule.Serves (fun _ => False) inputs output
  additive : ∀ a b : Buffer α, a.Shaped output → b.Shaped output → ∀ x y,
    rule.gradients a = .ok x → rule.gradients b = .ok y →
    rule.gradients (a.plus b) = .ok (List.zipWith Buffer.plus x y)

namespace Store

section Paths

variable {α : Type} {s : Store α} {law : RuleLaw α}

/-- The path leads from `n` to `target`: each of its positions is that of a tracked operand. -/
inductive Leads (s : Store α) : NodeId → List Nat → NodeId → Prop where
  | here (n : NodeId) : Leads s n [] n
  | down {n m target : NodeId} {p : Nat} {path : List Nat} :
    (s.inputs n)[p]? = some m → s.tracked m = true → Leads s m path target →
    Leads s n (p :: path) target

/-- All paths from `n` to `target`. -/
def paths (s : Store α) (target n : NodeId) : List (List Nat) :=
  if n = target then [[]]
  else
    (s.inputs n).zipIdx.flatMap fun (m, p) =>
      if _older : m < n ∧ s.tracked m = true then (s.paths target m).map (p :: ·) else []
termination_by n
decreasing_by exact _older.1

theorem Leads.le (h : s.Sound law) {n target : NodeId} {path : List Nat}
    (hp : s.Leads n path target) : target ≤ n := by
  induction hp with
  | here => exact Nat.le_refl _
  | down hm _ _ ih => exact Nat.le_trans ih (Nat.le_of_lt (h.older _ _ (List.mem_of_getElem? hm)))

/-- A path that goes anywhere ends at an older node. -/
theorem Leads.lt (h : s.Sound law) {n target : NodeId} {p : Nat} {path : List Nat}
    (hp : s.Leads n (p :: path) target) : target < n := by
  cases hp with
  | down hm _ hp => exact Nat.lt_of_le_of_lt (hp.le h) (h.older _ _ (List.mem_of_getElem? hm))

/-- Exactly the paths that lead to the target are listed. -/
theorem mem_paths (h : s.Sound law) {target : NodeId} : ∀ {n : NodeId} {path : List Nat},
    path ∈ s.paths target n ↔ s.Leads n path target := by
  intro n
  induction n using Nat.strongRecOn with
  | ind n ih =>
    intro path
    rw [paths]
    split
    · rename_i e
      subst e
      rw [List.mem_singleton]
      refine ⟨fun e => e ▸ .here n, fun hp => ?_⟩
      cases path with
      | nil => rfl
      | cons p path => exact absurd (hp.lt h) (Nat.lt_irrefl n)
    · rename_i hne
      rw [List.mem_flatMap]
      constructor
      · rintro ⟨⟨m, p⟩, hmem, hpath⟩
        simp only at hpath
        split at hpath
        · rename_i hold
          obtain ⟨rest, hrest, rfl⟩ := List.mem_map.1 hpath
          exact .down (List.mem_zipIdx_iff_getElem?.1 hmem) hold.2 ((ih m hold.1).1 hrest)
        · cases hpath
      · intro hp
        cases hp with
        | here => exact absurd rfl hne
        | down hm ht hrest =>
          rename_i m p rest
          have hlt : m < n := h.older n m (List.mem_of_getElem? hm)
          refine ⟨(m, p), List.mem_zipIdx_iff_getElem?.2 hm, ?_⟩
          dsimp only
          rw [dif_pos ⟨hlt, ht⟩]
          exact List.mem_map.2 ⟨rest, (ih m hlt).2 hrest, rfl⟩

/-- Every path is listed once. -/
theorem nodup_paths (s : Store α) (target n : NodeId) : (s.paths target n).Nodup := by
  induction n using Nat.strongRecOn with
  | ind n ih =>
    rw [paths]
    split
    · exact List.nodup_singleton _
    · rw [List.nodup_flatMap]
      refine ⟨fun ⟨m, p⟩ _ => ?_, ?_⟩
      · dsimp only
        split
        · rename_i hold
          exact (ih m hold.1).map fun _ _ e => (List.cons.inj e).2
        · exact List.nodup_nil
      · have hpos : (s.inputs n).zipIdx.Pairwise fun a b => a.2 ≠ b.2 := by
          rw [← List.pairwise_map (R := (· ≠ ·)), List.zipIdx_map_snd]
          exact List.nodup_range'
        refine hpos.imp fun {a b} hab path ha hb => hab ?_
        dsimp only at ha hb
        split at ha
        · split at hb
          · obtain ⟨_, -, rfl⟩ := List.mem_map.1 ha
            obtain ⟨_, -, e⟩ := List.mem_map.1 hb
            exact (List.cons.inj e).1.symm
          · cases hb
        · cases ha

end Paths

section Carrying

variable {α : Type} [Scalar α] {s : Store α}

/-- What arrives at the end of a path when `g` starts at node `n`: the rules on the way, one
after the other. -/
def carry (s : Store α) : List Nat → NodeId → Buffer α → Buffer α
  | [], _, g => g
  | p :: path, n, g =>
    match (s.contributions n g)[p]? with
    | some (m, d) => s.carry path m d
    | none => g

/-- With regular rules, a node with inputs sends one buffer to each of them. -/
theorem Sound.sends (h : s.Sound Rule.Regular) {n : NodeId} {made : Recorded α}
    (ho : s.origin n = some made) {g : Buffer α} (hg : g.Shaped (s.shape n)) :
    ∃ grads, made.rule.gradients g = .ok grads ∧ AllShaped grads (made.inputs.map s.shape) := by
  rcases (h.lawful n made ho).serves g hg with hgr | ⟨_, _, he⟩
  · exact hgr
  · exact he.elim

/-- Going down one operand. -/
theorem carry_down {n m : NodeId} {p : Nat} {made : Recorded α} (ho : s.origin n = some made)
    {g : Buffer α} {grads : List (Buffer α)} (hg : made.rule.gradients g = .ok grads)
    (hall : AllShaped grads (made.inputs.map s.shape)) (hm : (s.inputs n)[p]? = some m) :
    ∃ d, grads[p]? = some d ∧ d.Shaped (s.shape m) ∧
      ∀ path, s.carry (p :: path) n g = s.carry path m d := by
  rw [inputs_of_origin ho] at hm
  have hlen : grads.length = made.inputs.length := by simpa using hall.length_eq
  obtain ⟨hp, rfl⟩ := List.getElem?_eq_some_iff.1 hm
  have hp' : p < grads.length := hlen ▸ hp
  have hzip : (made.inputs.zip grads)[p]? = some (made.inputs[p], grads[p]) := by
    rw [List.getElem?_eq_getElem (by simp [hlen, hp]), List.getElem_zip]
  refine ⟨grads[p], List.getElem?_eq_getElem hp', ?_, fun path => ?_⟩
  · exact shaped_of_mem_zip hall (made.inputs[p], grads[p]) (List.mem_of_getElem? hzip)
  · simp only [carry, contributions, ho, hg, hzip]

/-- What arrives at the end of a path has the shape of the node there. -/
theorem shaped_carry (h : s.Sound Rule.Regular) {n target : NodeId} {path : List Nat}
    (hp : s.Leads n path target) : ∀ {g : Buffer α}, g.Shaped (s.shape n) →
    (s.carry path n g).Shaped (s.shape target) := by
  induction hp with
  | here => exact fun hg => hg
  | @down n m target p path hm ht hp ih =>
    intro g hg
    cases ho : s.origin n with
    | none => simp [inputs_of_leaf ho] at hm
    | some made =>
      obtain ⟨grads, hgr, hall⟩ := h.sends ho hg
      obtain ⟨d, -, hd, hc⟩ := carry_down ho hgr hall hm
      exact hc path ▸ ih hd

/-- Along a path, sums are carried to sums. -/
theorem carry_plus (h : s.Sound Rule.Regular) {n target : NodeId} {path : List Nat}
    (hp : s.Leads n path target) : ∀ {a b : Buffer α}, a.Shaped (s.shape n) →
    b.Shaped (s.shape n) →
    s.carry path n (a.plus b) = (s.carry path n a).plus (s.carry path n b) := by
  induction hp with
  | here => exact fun _ _ => rfl
  | @down n m target p path hm ht hp ih =>
    intro a b ha hb
    cases ho : s.origin n with
    | none => simp [inputs_of_leaf ho] at hm
    | some made =>
      obtain ⟨x, hx, hallx⟩ := h.sends ho ha
      obtain ⟨y, hy, hally⟩ := h.sends ho hb
      obtain ⟨z, hz, hallz⟩ := h.sends ho (ha.plus hb)
      obtain rfl : List.zipWith Buffer.plus x y = z :=
        Except.ok.inj (((h.lawful n made ho).additive a b ha hb x y hx hy).symm.trans hz)
      obtain ⟨d, hd, hds, hcd⟩ := carry_down ho hx hallx hm
      obtain ⟨e, he, hes, hce⟩ := carry_down ho hy hally hm
      obtain ⟨f, hf, hfs, hcf⟩ := carry_down ho hz hallz hm
      obtain rfl : d.plus e = f := by
        rw [List.getElem?_zipWith, hd, he] at hf
        exact Option.some.inj hf
      rw [hcf, hcd, hce, ih hds hes]

end Carrying

/-! ## Graphs built from any rules -/

section Building

variable {α : Type} [Scalar α] {s : Store α}

/-- The graphs that can be built from regular rules, with any leaves tracked, gradients of their
nodes' shapes stored or forgotten, and values replaced by others of the same shape. -/
inductive Built : Store α → Prop where
  | empty : Built {}
  | leaf {s : Store α} {v : Buffer α} : Built s → v.Sound → Built (s.leaf v).2
  | parameter {s : Store α} {v : Buffer α} : Built s → v.Sound → Built (s.parameter v).2
  | record {s : Store α} {v : Buffer α} {rule : Rule α} {inputs : List NodeId} : Built s →
    v.Sound → (∀ m ∈ inputs, m < s.nodes.size) → rule.Regular (inputs.map s.shape) v.shape →
    Built (s.record v rule inputs).2
  | setTracked {s s' : Store α} {n : NodeId} {flag : Bool} : Built s →
    s.setTracked n flag = .ok s' → Built s'
  | accumulate {s s' : Store α} {n : NodeId} {g : Buffer α} : Built s → n < s.nodes.size →
    g.Shaped (s.shape n) → s.accumulate n g = .ok s' → Built s'
  | clearGradient {s : Store α} {n : NodeId} : Built s → Built (s.clearGradient n)
  | setValue {s : Store α} {n : NodeId} {v : Buffer α} : Built s → v.Sound →
    v.shape = s.shape n → Built (s.setValue n v)

theorem Built.sound (h : Built s) : s.Sound Rule.Regular := by
  induction h with
  | empty => exact sound_empty
  | leaf _ hv ih => exact ih.leaf hv
  | parameter _ hv ih => exact ih.parameter hv
  | record _ hv hi hr ih => exact ih.record hv hi hr
  | setTracked _ hs ih => exact ih.setTracked hs
  | accumulate _ hn hg ha ih =>
    obtain ⟨s', hs', hS, -⟩ := ih.accumulate hn hg
    obtain rfl := Except.ok.inj (ha.symm.trans hs')
    exact hS
  | clearGradient _ ih => exact ih.clearGradient _
  | setValue _ hv hs ih => exact ih.setValue hv hs

theorem serves_of_regular : RuleLaw.Serves (α := α) Rule.Regular fun _ => False :=
  fun _ _ _ _ h => h.serves

end Building

/-! ## The sum over paths -/

section PathSum

variable {K : Type} [Field K] [LinearOrder K] [Elementary K] {s s' : Store K}

/-- One element of what arrives at `target` along all paths when `g` starts at `n`. -/
def pathSum (s : Store K) (target : NodeId) (i : Nat) (n : NodeId) (g : Buffer K) : K :=
  ((s.paths target n).map fun path => (s.carry path n g).entry i).sum

/-- From a leaf, only the empty path leads anywhere. -/
theorem pathSum_of_leaf {target n : NodeId} (hn : s.origin n = none) (i : Nat) (g : Buffer K) :
    s.pathSum target i n g = if n = target then g.entry i else 0 := by
  unfold pathSum
  rw [paths]
  split
  · simp [carry]
  · simp [inputs_of_leaf hn]

theorem conserved_pathSum (h : s.Sound Rule.Regular) (root : NodeId) {target : NodeId}
    (ht : s.origin target = none) (i : Nat) : s.Conserved root (s.pathSum target i) := by
  refine ⟨fun n _ a b ha hb => ?_, fun n _ g hg made grads ho hgr hall => ?_⟩
  · unfold pathSum
    rw [← List.sum_map_add]
    refine congrArg List.sum (List.map_congr_left fun path hp => ?_)
    have hp := (mem_paths h).1 hp
    rw [carry_plus h hp ha hb]
    exact Buffer.entry_plus (shaped_carry h hp ha) (shaped_carry h hp hb) i
  · have hne : n ≠ target := fun e => by simp [← e, ho] at ht
    have hlen : grads.length = made.inputs.length := by simpa using hall.length_eq
    rw [sum_filter_map, pathSum, paths, if_neg hne, List.map_flatMap, List.flatMap_def,
      List.sum_flatten, List.map_map, inputs_of_origin ho]
    refine congrArg List.sum (List.ext_getElem (by simp [hlen]) fun p hp _ => ?_)
    have hp' : p < made.inputs.length := by simpa using hp
    have hm : (s.inputs n)[p]? = some made.inputs[p] := by
      rw [inputs_of_origin ho, List.getElem?_eq_getElem hp']
    obtain ⟨d, hd, -, hc⟩ := carry_down ho hgr hall hm
    have hlt : made.inputs[p] < n := h.older n _ (List.mem_of_getElem? hm)
    obtain ⟨_, rfl⟩ := List.getElem?_eq_some_iff.1 hd
    by_cases hk : s.tracked made.inputs[p] = true
    · simp [hlt, hk, pathSum, hc, Function.comp_def]
    · simp [hk]

/-- What a leaf has collected is the sum over the paths that lead to it. -/
theorem Differentiated.eq_pathSum {root : NodeId} {order : List NodeId}
    {turns : List (NodeId × Buffer K)} (h : s.Differentiated root order turns s')
    (hS : s.Sound Rule.Regular) (ht : s.tracked root = true) {n : NodeId} {g : Buffer K}
    (hturn : (n, g) ∈ turns) (hn : s.origin n = none) (i : Nat) :
    g.entry i = s.pathSum n i root (s.ones root) := by
  have hd : (turns.map (·.1)).Nodup := h.once ▸ h.distinct
  rw [← h.balance ht (conserved_pathSum hS root hn i), sum_filter_map,
    ← Differentiated.sum_turn (·.entry i) hd hturn]
  refine congrArg List.sum (List.map_congr_left fun t _ => ?_)
  cases ho : s.origin t.1 with
  | none => simp [isLeaf, ho, pathSum_of_leaf ho]
  | some made =>
    have hne : t.1 ≠ n := fun e => by simp [← e, ho] at hn
    simp [isLeaf, ho, hne]

/-- What a node has collected is the sum of what its consumers send to it; the root has ones. -/
theorem Differentiated.eq_contributions {root : NodeId} {order : List NodeId}
    {turns : List (NodeId × Buffer K)} (h : s.Differentiated root order turns s')
    {turn : NodeId × Buffer K} (hturn : turn ∈ turns) {i : Nat}
    (hi : i < (s.shape turn.1).prod) :
    turn.2.entry i = (if turn.1 = root then 1 else 0) +
      ((received (s.mail turns) turn.1).map (·.entry i)).sum := by
  rw [h.collected_sum hturn (f := (·.entry i)) fun a b ha hb => Buffer.entry_plus ha hb i,
    received_cons]
  by_cases e : root = turn.1
  · subst e
    simp [(tabulates_ones s turn.1).entry_eq i hi]
  · simp [e, Ne.symm e]

/-- What the gradient of a node is after differentiation from `root`: leaves that can be reached
along tracked inputs gain the sum over all paths that lead to them. -/
structure PathSummed (s : Store K) (root : NodeId) (result : NodeId → Option (Buffer K)) :
    Prop where
  /-- Listed are the paths that lead from the root to the node, each of them once. -/
  listed : ∀ n, (s.paths n root).Nodup ∧ ∀ path, path ∈ s.paths n root ↔ s.Leads root path n
  leaves : ∀ n, s.Reaches root n → s.isLeaf n = true →
    ∃ g, result n = some g ∧ g.Shaped (s.shape n) ∧ ∀ i < (s.shape n).prod,
      g.entry i = s.gradientEntry n i +
        ((s.paths n root).map fun path => (s.carry path root (s.ones root)).entry i).sum
  others : ∀ n, ¬ (s.Reaches root n ∧ s.isLeaf n = true) → result n = s.grad n

theorem Differentiated.pathSummed {root : NodeId} {order : List NodeId}
    {turns : List (NodeId × Buffer K)} (h : s.Differentiated root order turns s')
    (hS : s.Sound Rule.Regular) (ht : s.tracked root = true) : s.PathSummed root s'.grad := by
  refine ⟨fun n => ⟨nodup_paths s n root, fun _ => mem_paths hS⟩, fun n hn hl => ?_,
    fun n hn => (h.untouched n ?_).2⟩
  · rw [isLeaf_iff] at hl
    obtain ⟨g, hg⟩ := h.exists_turn hn
    have hsh := h.shaped _ hg
    refine ⟨_, h.delivered _ hg hl, shaped_gather (fun b hb => hS.grad_shaped hb) hsh,
      fun i hi => ?_⟩
    rw [show List.sum _ = g.entry i from (h.eq_pathSum hS ht hg hl i).symm, gradientEntry]
    cases hh : s.grad n with
    | none => simp [gather]
    | some held => exact Buffer.entry_plus (hS.grad_shaped hh) hsh i
  · rwa [isLeaf_iff] at hn

/-- The sums over all paths determine all gradients. -/
theorem PathSummed.unique {root : NodeId} {a b : NodeId → Option (Buffer K)}
    (ha : s.PathSummed root a) (hb : s.PathSummed root b) (n : NodeId) : a n = b n := by
  by_cases hn : s.Reaches root n ∧ s.isLeaf n = true
  · obtain ⟨x, hx, hsx, hex⟩ := ha.leaves n hn.1 hn.2
    obtain ⟨y, hy, hsy, hey⟩ := hb.leaves n hn.1 hn.2
    rw [hx, hy, Buffer.ext_entry hsx.1 hsy.1 (hsx.2.trans hsy.2.symm) fun i hi => ?_]
    rw [hsx.2] at hi
    rw [hex i hi, hey i hi]
  · rw [ha.others n hn, hb.others n hn]

/-- Differentiation of a graph of any regular rules, with any sorting of the nodes, succeeds and
computes the sum over all paths. On the way every reachable node has exactly one turn, with the
sum of all contributions of the nodes made from it. -/
theorem backwardBy_eq_pathSum (hs : s.Built) {root : NodeId} (h1 : (s.value root).size = 1)
    (ht : s.tracked root = true) :
    ∃ result, s.PathSummed root result ∧
      ∀ sort, Discovery.IsToposort sort → ∃ order s',
        sort (s.discover root) = some order ∧ s.backwardBy sort root = (.ok (), s') ∧
        (∀ n, s'.grad n = result n) ∧
        (∀ n, ¬ (s.Reaches root n ∧ s.isLeaf n = true) → s'.gradient n = s.gradient n) ∧
        order.Nodup ∧ (∀ n, n ∈ order ↔ s.Reaches root n) ∧
        s.backwardBy sort root = s.replay (s.discover root).index.contains
          (s.turnsAlong root order) (.single root (s.ones root)) ∧
        (s.turnsAlong root order).map (·.1) = order ∧
        ∀ turn ∈ s.turnsAlong root order, turn.2.Shaped (s.shape turn.1) ∧
          ∀ i < (s.shape turn.1).prod,
            turn.2.entry i = (if turn.1 = root then 1 else 0) +
              ((received (s.mail (s.turnsAlong root order)) turn.1).map (·.entry i)).sum := by
  have hS := hs.sound
  have hrun : ∀ sort, Discovery.IsToposort sort → ∃ order s',
      sort (s.discover root) = some order ∧ s.backwardBy sort root = (.ok (), s') ∧
        s.backwardBy sort root = s.backwardAlong root order ∧
        s.Differentiated root order (s.turnsAlong root order) s' := by
    intro sort hsort
    obtain ⟨order, ho, hT, hb⟩ := backwardBy_eq hS h1 ht hsort
    rcases backwardAlong_spec serves_of_regular hS ht hT with ⟨s', hs', -, hD⟩ | ⟨_, _, _, he, -⟩
    · exact ⟨order, s', ho, hb.trans hs', hb, hD⟩
    · exact he.elim
  -- the path sums do not mention the order, so the gradients of one order are those of all
  obtain ⟨_, s₀, -, -, -, hD₀⟩ := hrun _ Discovery.isToposort_toposort
  refine ⟨s₀.grad, hD₀.pathSummed hS ht, fun sort hsort => ?_⟩
  obtain ⟨order, s', ho, hs', hb, hD⟩ := hrun sort hsort
  refine ⟨order, s', ho, hs', (hD.pathSummed hS ht).unique (hD₀.pathSummed hS ht), fun n hn => ?_,
    hD.distinct, hD.mem_order, hb.trans (backwardAlong_eq_replay hS root order), hD.once,
    fun turn hturn => ⟨hD.shaped turn hturn, fun i hi => hD.eq_contributions hturn hi⟩⟩
  rw [isLeaf_iff] at hn
  exact (hD.untouched n hn).1

/-- A rule that gives its gradient to each of two operands. -/
def twin : Rule K := .custom "twin" fun g => .ok [g, g]

theorem regular_twin {shape : List Nat} : (twin (K := K)).Regular [shape, shape] shape := by
  refine ⟨fun g hg => Outcome.yields_ok (.cons hg (.cons hg .nil)), fun a b _ _ x y hx hy => ?_⟩
  obtain rfl := Except.ok.inj hx
  obtain rfl := Except.ok.inj hy
  rfl

/-- With both operands the same leaf, two paths lead to it. -/
theorem twin_backwardBy_eq_pathSum :
    let _ := Elementary.plain ℚ
    let s : Store ℚ := (({} : Store ℚ).parameter (.scalar 3)).2
    let s := (s.record (.scalar 6) twin [0, 0]).2
    s.paths 0 1 = [[0], [1]] ∧ ∃ result, s.PathSummed 1 result ∧
      ∀ sort, Discovery.IsToposort sort → ∃ order s',
        sort (s.discover 1) = some order ∧ s.backwardBy sort 1 = (.ok (), s') ∧
        ∀ n, s'.grad n = result n := by
  intro _ s s'
  have hs : s.Built := .parameter .empty ⟨Extent.proper_nil, rfl⟩
  have hs' : s'.Built := .record hs ⟨Extent.proper_nil, rfl⟩ (by decide) regular_twin
  refine ⟨?_, ?_⟩
  · have hp : s'.paths 0 0 = [[]] := by rw [paths, if_pos rfl]
    rw [paths, if_neg (by decide), show s'.inputs 1 = [0, 0] from rfl]
    simp [show s'.tracked 0 = true from rfl, hp]
  · obtain ⟨result, hr, h⟩ := @backwardBy_eq_pathSum ℚ _ _ _ _ hs' 1 rfl rfl
    refine ⟨result, hr, fun sort hsort => ?_⟩
    obtain ⟨order, s'', ho, hb, hg, -⟩ := h sort hsort
    exact ⟨order, s'', ho, hb, hg⟩

end PathSum

end Store

end DiffTensor
