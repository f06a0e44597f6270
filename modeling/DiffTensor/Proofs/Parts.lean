import DiffTensor.Optimizer
import DiffTensor.Proofs.Store

/-!
# Steps, part by part

Both optimizers take their steps in the same manner: the parameters have their parts one after the
other, and a part reads nothing but what is kept for its parameter, the parameter's value and its
gradient. A `Method` is such a manner; `Adam.method` and `Sgd.method` are the two that there are.

A part writes the value of its parameter only. So a parameter that is listed once has the value of
its own part in the end (`Method.value_runAll`); and if no parameter is the gradient of another one,
every part goes as it would on the graph before the step (`Method.runAll_apart`).
-/

namespace DiffTensor

variable {α P : Type}

/-! ## Writing one value -/

namespace Store

variable {s : Store α} {n k : NodeId}

theorem node_setValue (hn : n < s.nodes.size) (v : Buffer α) (k : NodeId) :
    (s.setValue n v).node k = if k = n then { s.node k with value := v } else s.node k :=
  node_modify s n k _ hn

theorem node_setValue_of_ne (v : Buffer α) (h : k ≠ n) : (s.setValue n v).node k = s.node k := by
  by_cases hn : n < s.nodes.size
  · rw [node_setValue hn, if_neg h]
  · rw [setValue, modify_of_le _ (Nat.not_lt.1 hn)]

theorem value_setValue_of_ne (v : Buffer α) (h : k ≠ n) :
    (s.setValue n v).value k = s.value k := by
  rw [value, node_setValue_of_ne v h, value]

theorem size_setValue (s : Store α) (n : NodeId) (v : Buffer α) :
    (s.setValue n v).nodes.size = s.nodes.size := size_modify ..

theorem grad_setValue_of_ne (v : Buffer α) (h : s.gradient k ≠ some n) :
    (s.setValue n v).grad k = s.grad k := by
  rw [grad, gradient_setValue, grad]
  refine Option.map_congr fun g hg => value_setValue_of_ne v ?_
  rintro rfl
  exact h hg

/-- Nothing is changed by a value that is there already. -/
theorem setValue_self (s : Store α) (n : NodeId) : s.setValue n (s.value n) = s := by
  by_cases hn : n < s.nodes.size
  · have hnodes : (s.setValue n (s.value n)).nodes = s.nodes := by
      refine Array.ext (size_setValue ..) fun k hk hk' => ?_
      have h := node_setValue hn (s.value n) k
      simp only [node, Array.getD_eq_getD_getElem?, Array.getElem?_eq_getElem hk,
        Array.getElem?_eq_getElem hk', Option.getD_some] at h
      rw [h]
      split
      · rename_i e
        subst e
        simp [value, node, Array.getD_eq_getD_getElem?, hn]
      · rfl
    exact congrArg Store.mk hnodes
  · rw [setValue, modify_of_le _ (Nat.not_lt.1 hn)]

/-- What is written is what is there afterwards. -/
theorem setValue_value_setValue (s : Store α) (n : NodeId) (v : Buffer α) :
    s.setValue n ((s.setValue n v).value n) = s.setValue n v := by
  by_cases hn : n < s.nodes.size
  · rw [value_setValue hn, if_pos rfl]
  · rw [setValue, setValue, modify_of_le _ (Nat.not_lt.1 hn), modify_of_le _ (Nat.not_lt.1 hn)]

/-- A graph is determined by its nodes. -/
theorem ext_node {s' : Store α} (hs : s'.nodes.size = s.nodes.size)
    (h : ∀ n, s'.node n = s.node n) : s' = s := by
  have hnodes : s'.nodes = s.nodes := by
    refine Array.ext hs fun k hk hk' => ?_
    have hk'' := h k
    simpa [node, Array.getD_eq_getD_getElem?, hk, hk'] using hk''
  exact congrArg Store.mk hnodes

end Store

/-! ## Methods -/

/-- A manner of taking steps: whose value is moved, and one parameter's part of a step. -/
structure Method (α P : Type) where
  parameter : P → NodeId
  part : Store α → P → Outcome Unit × P × Store α
  parameter_kept : ∀ s p, parameter (part s p).2.1 = parameter p
  /-- Only the value of the parameter is written. -/
  writes : ∀ s p, ∃ v, (part s p).2.2 = s.setValue (parameter p) v
  /-- The gradient and the value of the parameter are all that is read. -/
  reads : ∀ s s' p, s'.grad (parameter p) = s.grad (parameter p) →
    s'.value (parameter p) = s.value (parameter p) →
    (part s' p).1 = (part s p).1 ∧ (part s' p).2.1 = (part s p).2.1 ∧
      (part s' p).2.2.value (parameter p) = (part s p).2.2.value (parameter p)

namespace Method

/-- The parts of several parameters, up to the first failure. -/
def runAll (m : Method α P) : List P → Store α → Outcome Unit × List P × Store α
  | [], s => (.ok (), [], s)
  | p :: rest, s =>
    match m.part s p with
    | (.error e, p, s) => (.error e, p :: rest, s)
    | (.ok (), p, s) =>
      let (result, rest, s) := runAll m rest s
      (result, p :: rest, s)

variable {m : Method α P} {s : Store α} {p : P} {parts : List P}

/-! ### One part -/

theorem part_eq_setValue (s : Store α) (p : P) : (m.part s p).2.2 =
    s.setValue (m.parameter p) ((m.part s p).2.2.value (m.parameter p)) := by
  obtain ⟨v, hv⟩ := m.writes s p
  rw [hv, Store.setValue_value_setValue]

theorem size_part (s : Store α) (p : P) : (m.part s p).2.2.nodes.size = s.nodes.size := by
  rw [part_eq_setValue, Store.size_setValue]

theorem gradient_part (s : Store α) (p : P) : (m.part s p).2.2.gradient = s.gradient := by
  rw [part_eq_setValue, Store.gradient_setValue]

theorem node_part_of_ne {k : NodeId} (h : k ≠ m.parameter p) :
    (m.part s p).2.2.node k = s.node k := by
  rw [part_eq_setValue, Store.node_setValue_of_ne _ h]

/-- Another part before it makes no difference to a part, unless it writes the same parameter or
the gradient. -/
theorem part_after {q : P} (hp : m.parameter p ≠ m.parameter q)
    (hg : s.gradient (m.parameter p) ≠ some (m.parameter q)) :
    (m.part (m.part s q).2.2 p).2.1 = (m.part s p).2.1 ∧
      (m.part (m.part s q).2.2 p).2.2.value (m.parameter p) =
        (m.part s p).2.2.value (m.parameter p) := by
  obtain ⟨v, hv⟩ := m.writes s q
  rw [hv]
  exact (m.reads s _ p (Store.grad_setValue_of_ne v hg) (Store.value_setValue_of_ne v hp)).2

/-- Where the parameter's node and its gradient are the same, so is what a part makes of them. -/
theorem part_congr {s' : Store α} (hp : m.parameter p < s.nodes.size)
    (hp' : m.parameter p < s'.nodes.size)
    (hn : s'.node (m.parameter p) = s.node (m.parameter p))
    (hg : s'.grad (m.parameter p) = s.grad (m.parameter p)) :
    (m.part s' p).2.1 = (m.part s p).2.1 ∧
      (m.part s' p).2.2.node (m.parameter p) = (m.part s p).2.2.node (m.parameter p) := by
  obtain ⟨-, hkept, hvalue⟩ := m.reads s s' p hg (congrArg Node.value hn)
  refine ⟨hkept, ?_⟩
  rw [part_eq_setValue s', part_eq_setValue s, Store.node_setValue hp', Store.node_setValue hp,
    if_pos rfl, if_pos rfl, hn, hvalue]

/-! ### Several parts -/

/-- If all goes well, so do the first part and the others after it. -/
theorem runAll_cons {rest : List P} (h : (m.runAll (p :: rest) s).1 = .ok ()) :
    (m.part s p).1 = .ok () ∧ (m.runAll rest (m.part s p).2.2).1 = .ok () ∧
      (m.runAll (p :: rest) s).2 = ((m.part s p).2.1 :: (m.runAll rest (m.part s p).2.2).2.1,
        (m.runAll rest (m.part s p).2.2).2.2) := by
  rw [runAll] at h ⊢
  rcases hp : m.part s p with ⟨_ | _, q, s'⟩
  · simp only [hp] at h
    cases h
  · simp only [hp] at h
    exact ⟨rfl, h, rfl⟩

theorem runAll_singleton (s : Store α) (p : P) :
    m.runAll [p] s = ((m.part s p).1, [(m.part s p).2.1], (m.part s p).2.2) := by
  rw [runAll]
  rcases m.part s p with ⟨_ | _, q, s'⟩ <;> rfl

/-- No other nodes than the parameters change. -/
theorem node_runAll (h : (m.runAll parts s).1 = .ok ()) {k : NodeId}
    (hk : ∀ p ∈ parts, k ≠ m.parameter p) : (m.runAll parts s).2.2.node k = s.node k := by
  induction parts generalizing s with
  | nil => rfl
  | cons p rest ih =>
    obtain ⟨hp, hrest⟩ := List.forall_mem_cons.1 hk
    obtain ⟨-, hok, heq⟩ := runAll_cons h
    rw [heq, ih hok hrest, node_part_of_ne hp]

theorem size_runAll (h : (m.runAll parts s).1 = .ok ()) :
    (m.runAll parts s).2.2.nodes.size = s.nodes.size := by
  induction parts generalizing s with
  | nil => rfl
  | cons p rest ih =>
    obtain ⟨-, hok, heq⟩ := runAll_cons h
    rw [heq, ih hok, size_part]

/-- The same parameters are kept, in the same order, however far the parts get. -/
theorem parameters_runAll : (m.runAll parts s).2.1.map m.parameter = parts.map m.parameter := by
  induction parts generalizing s with
  | nil => rfl
  | cons p rest ih =>
    have hp := m.parameter_kept s p
    rw [runAll]
    rcases hpart : m.part s p with ⟨_ | _, q, s'⟩ <;> rw [hpart] at hp
    · exact congrArg (· :: rest.map m.parameter) hp
    · show m.parameter q :: (m.runAll rest s').2.1.map m.parameter = _
      rw [ih]
      exact congrArg (· :: rest.map m.parameter) hp

/-- Parts that do nothing do nothing together. -/
theorem runAll_idle (h : ∀ p ∈ parts, m.part s p = (.ok (), p, s)) :
    m.runAll parts s = (.ok (), parts, s) := by
  induction parts with
  | nil => rfl
  | cons p rest ih =>
    obtain ⟨hp, hrest⟩ := List.forall_mem_cons.1 h
    rw [runAll, hp]
    simp only [ih hrest]

/-- The parts before one of them go well if all do. -/
theorem runAll_take {q : P} {rest : List P} (h : (m.part s q).1 = .ok ()) (i : Nat) :
    m.runAll ((q :: rest).take (i + 1)) s =
      ((m.runAll (rest.take i) (m.part s q).2.2).1,
        (m.part s q).2.1 :: (m.runAll (rest.take i) (m.part s q).2.2).2.1,
        (m.runAll (rest.take i) (m.part s q).2.2).2.2) := by
  rw [List.take_succ_cons, runAll]
  rcases hq : m.part s q with ⟨_ | _, q', s'⟩
  · rw [hq] at h
    cases h
  · rfl

/-- Each part goes as it does on the graph that those before it leave. -/
theorem kept_runAll {i : Nat} (h : (m.runAll parts s).1 = .ok ()) (hi : parts[i]? = some p) :
    (m.runAll (parts.take i) s).1 = .ok () ∧
      (m.runAll parts s).2.1[i]? = some (m.part (m.runAll (parts.take i) s).2.2 p).2.1 := by
  induction parts generalizing s i with
  | nil => simp at hi
  | cons q rest ih =>
    obtain ⟨hq, hok, heq⟩ := runAll_cons h
    cases i with
    | zero =>
      obtain rfl : q = p := by simpa using hi
      refine ⟨rfl, ?_⟩
      rw [heq]
      rfl
    | succ i =>
      obtain ⟨hbefore, hkept⟩ := ih hok (i := i) (by simpa using hi)
      rw [runAll_take hq, heq]
      exact ⟨hbefore, by simpa using hkept⟩

/-- A parameter that is listed once has the value that it had until its turn, and from then on the
one that its part gives it. -/
theorem value_runAll {i : Nat} (h : (m.runAll parts s).1 = .ok ()) (hi : parts[i]? = some p)
    (hd : (parts.map m.parameter).Nodup) :
    (m.runAll (parts.take i) s).2.2.value (m.parameter p) = s.value (m.parameter p) ∧
      (m.runAll parts s).2.2.value (m.parameter p) =
        (m.part (m.runAll (parts.take i) s).2.2 p).2.2.value (m.parameter p) := by
  induction parts generalizing s i with
  | nil => simp at hi
  | cons q rest ih =>
    obtain ⟨hq, hok, heq⟩ := runAll_cons h
    obtain ⟨hfirst, hd⟩ := List.nodup_cons.1 hd
    cases i with
    | zero =>
      obtain rfl : q = p := by simpa using hi
      have hother : ∀ p ∈ rest, m.parameter q ≠ m.parameter p := by
        intro p hp e
        exact hfirst (e ▸ List.mem_map_of_mem hp)
      refine ⟨rfl, ?_⟩
      rw [heq]
      exact congrArg Node.value (node_runAll hok hother)
    | succ i =>
      have hi : rest[i]? = some p := by simpa using hi
      have hne : m.parameter p ≠ m.parameter q := by
        intro e
        exact hfirst (e ▸ List.mem_map_of_mem (List.mem_of_getElem? hi))
      obtain ⟨hbefore, hafter⟩ := ih hok hi hd
      rw [runAll_take hq, heq]
      refine ⟨?_, hafter⟩
      rw [hbefore]
      exact congrArg Node.value (node_part_of_ne hne)

/-- Where no parameter is the gradient of another one, all parts go as on the graph before the
step. -/
theorem runAll_apart (h : (m.runAll parts s).1 = .ok ()) (hd : (parts.map m.parameter).Nodup)
    (he : ∀ p ∈ parts, m.parameter p < s.nodes.size)
    (ha : ∀ p ∈ parts, ∀ q ∈ parts, m.parameter p ≠ m.parameter q →
      s.gradient (m.parameter p) ≠ some (m.parameter q)) :
    (m.runAll parts s).2.1 = parts.map (fun p => (m.part s p).2.1) ∧
      ∀ p ∈ parts, (m.runAll parts s).2.2.node (m.parameter p) =
        (m.part s p).2.2.node (m.parameter p) := by
  induction parts generalizing s with
  | nil => exact ⟨rfl, nofun⟩
  | cons q rest ih =>
    obtain ⟨-, hok, heq⟩ := runAll_cons h
    obtain ⟨hfirst, hd⟩ := List.nodup_cons.1 hd
    obtain ⟨-, he⟩ := List.forall_mem_cons.1 he
    have hne : ∀ p ∈ rest, m.parameter p ≠ m.parameter q := by
      intro p hp e
      exact hfirst (e ▸ List.mem_map_of_mem hp)
    have hsame := fun p hp => part_after (hne p hp)
      (ha p (List.mem_cons_of_mem _ hp) q List.mem_cons_self (hne p hp))
    obtain ⟨hkept, hnode⟩ := ih hok hd (fun p hp => size_part s q ▸ he p hp)
      fun p hp k hk hpk => gradient_part s q ▸
        ha p (List.mem_cons_of_mem _ hp) k (List.mem_cons_of_mem _ hk) hpk
    rw [heq]
    constructor
    · rw [List.map_cons, hkept]
      exact congrArg _ (List.map_congr_left fun p hp => (hsame p hp).1)
    · intro p hp
      rcases List.mem_cons.1 hp with rfl | hp
      · exact node_runAll hok fun k hk => (hne k hk).symm
      · have hlt := he p hp
        rw [hnode p hp, part_eq_setValue (m.part s q).2.2, (hsame p hp).2, part_eq_setValue s p,
          Store.node_setValue (size_part s q ▸ hlt), Store.node_setValue hlt, if_pos rfl,
          if_pos rfl, node_part_of_ne (hne p hp), ← part_eq_setValue]

end Method

/-! ## The two methods -/

section Decay

variable [Scalar α] {s s' : Store α} {n : NodeId}

/-- The gradient with the share of the value depends on these two buffers only. -/
theorem Store.decayedGradient_congr (weightDecay : α) (hg : s'.grad n = s.grad n)
    (hv : s'.value n = s.value n) :
    s'.decayedGradient n weightDecay = s.decayedGradient n weightDecay := by
  unfold decayedGradient
  unfold grad at hg
  cases h : s.gradient n with
  | none =>
    rw [h] at hg
    rw [Option.map_eq_none_iff.1 hg]
  | some g =>
    rw [h] at hg
    obtain ⟨g', hg', hgv⟩ := Option.map_eq_some_iff.1 hg
    simp only [hg', hgv, hv]

variable {weightDecay : α}

theorem Store.gradient_of_decayedGradient {g : Buffer α}
    (h : s.decayedGradient n weightDecay = .ok (some g)) : s.gradient n ≠ none := by
  intro hn
  unfold Store.decayedGradient at h
  rw [hn] at h
  cases h

theorem Store.decayedGradient_none (hg : s.grad n = none) :
    s.decayedGradient n weightDecay = .ok none := by
  unfold decayedGradient
  rw [Option.map_eq_none_iff.1 hg]

theorem Store.lt_size_of_decayedGradient {g : Buffer α}
    (h : s.decayedGradient n weightDecay = .ok (some g)) : n < s.nodes.size := by
  obtain ⟨k, hk⟩ := Option.ne_none_iff_exists'.1 (gradient_of_decayedGradient h)
  exact lt_size_of_gradient hk

/-- The same value is written into two graphs in which it replaces the same one. -/
theorem Store.value_setValue_congr {g : Buffer α} (hv : s'.value n = s.value n)
    (h : s.decayedGradient n weightDecay = .ok (some g))
    (h' : s'.decayedGradient n weightDecay = .ok (some g)) (f : Buffer α → Buffer α) :
    (s'.setValue n (f (s'.value n))).value n = (s.setValue n (f (s.value n))).value n := by
  rw [value_setValue (lt_size_of_decayedGradient h'), value_setValue (lt_size_of_decayedGradient h),
    if_pos rfl, if_pos rfl, hv]

end Decay

variable [Scalar α]

namespace Adam

variable (rates : AdamRates α) (t : Nat)

theorem stepOne_parameter (s : Store α) (p : Moments α) :
    (stepOne rates t s p).2.1.parameter = p.parameter := by
  unfold stepOne
  split
  · rfl
  · rfl
  · split
    · rfl
    · dsimp only
      split
      · rfl
      · split <;> rfl

theorem stepOne_writes (s : Store α) (p : Moments α) :
    ∃ v, (stepOne rates t s p).2.2 = s.setValue p.parameter v := by
  have hself : s = s.setValue p.parameter (s.value p.parameter) := (s.setValue_self _).symm
  unfold stepOne
  split
  · exact ⟨_, hself⟩
  · exact ⟨_, hself⟩
  · split
    · exact ⟨_, hself⟩
    · dsimp only
      split
      · exact ⟨_, hself⟩
      · split
        · exact ⟨_, hself⟩
        · exact ⟨_, rfl⟩

theorem stepOne_reads (s s' : Store α) (p : Moments α)
    (hg : s'.grad p.parameter = s.grad p.parameter)
    (hv : s'.value p.parameter = s.value p.parameter) :
    (stepOne rates t s' p).1 = (stepOne rates t s p).1 ∧
      (stepOne rates t s' p).2.1 = (stepOne rates t s p).2.1 ∧
      (stepOne rates t s' p).2.2.value p.parameter =
        (stepOne rates t s p).2.2.value p.parameter := by
  have hd := Store.decayedGradient_congr rates.weightDecay hg hv
  unfold stepOne
  rw [hd]
  split
  · exact ⟨rfl, rfl, hv⟩
  · exact ⟨rfl, rfl, hv⟩
  · rename_i g h
    split
    · exact ⟨rfl, rfl, hv⟩
    · dsimp only
      split
      · exact ⟨rfl, rfl, hv⟩
      · split
        · exact ⟨rfl, rfl, hv⟩
        · exact ⟨rfl, rfl, Store.value_setValue_congr hv h (hd.trans h) fun b => b.updateWith _ _⟩

variable {rates t} in
/-- A parameter without a gradient is passed over. -/
theorem stepOne_none {s : Store α} {p : Moments α} (hg : s.grad p.parameter = none) :
    stepOne rates t s p = (.ok (), p, s) := by
  unfold stepOne
  rw [Store.decayedGradient_none hg]

/-- Step number `t` of Adam. -/
def method : Method α (Moments α) where
  parameter p := p.parameter
  part := stepOne rates t
  parameter_kept := stepOne_parameter rates t
  writes := stepOne_writes rates t
  reads := stepOne_reads rates t

theorem stepAll_eq_runAll (moments : List (Moments α)) (s : Store α) :
    stepAll rates t moments s = (method rates t).runAll moments s := by
  induction moments generalizing s with
  | nil => rfl
  | cons p rest ih =>
    rw [stepAll, Method.runAll]
    simp only [ih, method]
    rcases stepOne rates t s p with ⟨_ | _, q, s'⟩ <;> rfl

/-- A step that can be counted. -/
theorem step_eq_runAll {state : Adam α} (ht : state.steps < lastStep) (s : Store α) :
    let run := (method state.rates (state.steps + 1)).runAll state.moments s
    state.step s =
      (run.1, { state with steps := state.steps + 1, moments := run.2.1 }, run.2.2) := by
  intro run
  simp only [step, if_neg (Nat.not_le.2 ht), stepAll_eq_runAll]
  rfl

end Adam

namespace Sgd

variable (rates : SgdRates α)

theorem stepOne_parameter (s : Store α) (p : Velocity α) :
    (stepOne rates s p).2.1.parameter = p.parameter := by
  unfold stepOne
  split
  · rfl
  · rfl
  · split <;> rfl

theorem stepOne_writes (s : Store α) (p : Velocity α) :
    ∃ v, (stepOne rates s p).2.2 = s.setValue p.parameter v := by
  have hself : s = s.setValue p.parameter (s.value p.parameter) := (s.setValue_self _).symm
  unfold stepOne
  split
  · exact ⟨_, hself⟩
  · exact ⟨_, hself⟩
  · split
    · exact ⟨_, hself⟩
    · exact ⟨_, rfl⟩

theorem stepOne_reads (s s' : Store α) (p : Velocity α)
    (hg : s'.grad p.parameter = s.grad p.parameter)
    (hv : s'.value p.parameter = s.value p.parameter) :
    (stepOne rates s' p).1 = (stepOne rates s p).1 ∧
      (stepOne rates s' p).2.1 = (stepOne rates s p).2.1 ∧
      (stepOne rates s' p).2.2.value p.parameter = (stepOne rates s p).2.2.value p.parameter := by
  have hd := Store.decayedGradient_congr rates.weightDecay hg hv
  unfold stepOne
  rw [hd]
  split
  · exact ⟨rfl, rfl, hv⟩
  · exact ⟨rfl, rfl, hv⟩
  · rename_i g h
    split
    · exact ⟨rfl, rfl, hv⟩
    · exact ⟨rfl, rfl, Store.value_setValue_congr hv h (hd.trans h) fun b => b.updateWith _ _⟩

variable {rates} in
/-- A parameter without a gradient is passed over. -/
theorem stepOne_none {s : Store α} {p : Velocity α} (hg : s.grad p.parameter = none) :
    stepOne rates s p = (.ok (), p, s) := by
  unfold stepOne
  rw [Store.decayedGradient_none hg]

/-- A step of stochastic gradient descent. -/
def method : Method α (Velocity α) where
  parameter p := p.parameter
  part := stepOne rates
  parameter_kept := stepOne_parameter rates
  writes := stepOne_writes rates
  reads := stepOne_reads rates

theorem stepAll_eq_runAll (velocities : List (Velocity α)) (s : Store α) :
    stepAll rates velocities s = (method rates).runAll velocities s := by
  induction velocities generalizing s with
  | nil => rfl
  | cons p rest ih =>
    rw [stepAll, Method.runAll]
    simp only [ih, method]
    rcases stepOne rates s p with ⟨_ | _, q, s'⟩ <;> rfl

theorem step_eq_runAll (state : Sgd α) (s : Store α) :
    let run := (method state.rates).runAll state.velocities s
    state.step s = (run.1, { state with velocities := run.2.1 }, run.2.2) := by
  intro run
  simp only [step, stepAll_eq_runAll]
  rfl

end Sgd

namespace Optimizer

theorem step_adam (rates : AdamRates α) {t : Nat} (ht : t < Adam.lastStep) (s : Store α)
    (moments : List (Moments α)) :
    (adam ⟨rates, t, moments⟩).step s =
      (((Adam.method rates (t + 1)).runAll moments s).1,
        adam ⟨rates, t + 1, ((Adam.method rates (t + 1)).runAll moments s).2.1⟩,
        ((Adam.method rates (t + 1)).runAll moments s).2.2) := by
  have h : (Adam.step ⟨rates, t, moments⟩ s) = _ := Adam.step_eq_runAll ht s
  rw [step, h]

theorem step_adam_of_le (rates : AdamRates α) {t : Nat} (ht : ¬t < Adam.lastStep) (s : Store α)
    (moments : List (Moments α)) :
    (adam ⟨rates, t, moments⟩).step s = (crash .sum, adam ⟨rates, t, moments⟩, s) := by
  rw [step, Adam.step, if_pos (Nat.not_lt.1 ht)]

theorem step_sgd (rates : SgdRates α) (s : Store α) (velocities : List (Velocity α)) :
    (sgd ⟨rates, velocities⟩).step s =
      (((Sgd.method rates).runAll velocities s).1,
        sgd ⟨rates, ((Sgd.method rates).runAll velocities s).2.1⟩,
        ((Sgd.method rates).runAll velocities s).2.2) := by
  rw [step, Sgd.step_eq_runAll]

end Optimizer

end DiffTensor
