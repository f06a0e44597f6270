import Mathlib.Algebra.BigOperators.Intervals
import DiffTensor.Proofs.Exact
import DiffTensor.Proofs.StoreFrame
import DiffTensor.Proofs.Training

/-!
# What optimizers remember

In exact arithmetic all that an optimizer keeps is a sum over the steps that it has taken: of the
gradients that pulled a parameter at those steps at which it had one, each discounted by a power of
the decay rate or the momentum (`discounted`). Steps without a gradient do not discount anything;
but Adam counts them.

`Optimizer.Follows` says this of what is kept, and `Settings.update` of what is subtracted from the
parameter. One step keeps it (`Follows.step`), so it holds over all runs.
-/

namespace DiffTensor

open Finset

variable {K : Type} [Field K]

/-! ## Discounted sums -/

/-- The sum of a list in which every number has been multiplied by `b` once for each one after
it. -/
def discounted (b : K) (xs : List K) : K :=
  ∑ l ∈ range xs.length, b ^ (xs.length - 1 - l) * xs.getD l 0

/-- A new number discounts all that came before it. -/
theorem discounted_concat (b : K) (xs : List K) (x : K) :
    discounted b (xs ++ [x]) = b * discounted b xs + x := by
  have hlast : (xs ++ [x]).getD xs.length 0 = x := by simp
  have hterm : ∀ l ∈ range xs.length, b ^ (xs.length - l) * (xs ++ [x]).getD l 0 =
      b * (b ^ (xs.length - 1 - l) * xs.getD l 0) := by
    intro l hl
    have hl := mem_range.1 hl
    have hget : (xs ++ [x]).getD l 0 = xs.getD l 0 := by
      simp [List.getElem?_append_left hl]
    rw [hget, ← mul_assoc, ← pow_succ']
    congr 2
    omega
  rw [discounted, List.length_append, List.length_singleton, sum_range_succ, Nat.add_sub_cancel,
    hlast, Nat.sub_self, pow_zero, one_mul, sum_congr rfl hterm, ← mul_sum, discounted]

/-- Without a factor only the last number counts. -/
theorem discounted_zero (xs : List K) (x : K) : discounted 0 (xs ++ [x]) = x := by
  rw [discounted_concat, zero_mul, zero_add]

/-! ## Parts that go well -/

section

variable {α : Type} [Scalar α] {s : Store α} {d : Buffer α}

theorem Adam.stepOne_of_ok {rates : AdamRates α} {t : Nat} {p : Moments α}
    {mean square moves : Buffer α}
    (hd : s.decayedGradient p.parameter rates.weightDecay = .ok (some d))
    (hm : Buffer.zipMap (fun m g => rates.decay1 * m + (1 - rates.decay1) * g) p.mean d = .ok mean)
    (hq : Buffer.zipMap (fun v g => rates.decay2 * v + (1 - rates.decay2) * g * g) p.square d =
      .ok square)
    (hv : Buffer.zipMap (move rates (1 - Scalar.power rates.decay1 t)
      (1 - Scalar.power rates.decay2 t)) mean square = .ok moves) :
    stepOne rates t s p = (.ok (), { p with mean, square }, s.setValue p.parameter
      ((s.value p.parameter).updateWith (fun x u => x - u) moves.data)) := by
  simp only [stepOne, hd, hm, hq, hv]

theorem Sgd.stepOne_of_ok {rates : SgdRates α} {p : Velocity α} {x : Buffer α}
    {velocity : Option (Buffer α)}
    (hd : s.decayedGradient p.parameter rates.weightDecay = .ok (some d))
    (hx : direction rates p.velocity d = (.ok x, velocity)) :
    stepOne rates s p = (.ok (), { p with velocity }, s.setValue p.parameter
      ((s.value p.parameter).updateWith (fun x d => x - rates.rate * d) x.data)) := by
  simp only [stepOne, hd, hx]

end

variable [LinearOrder K] [Elementary K]

/-! ## Exact powers -/

theorem Scalar.powerOnto_eq (result base : K) (n : Nat) :
    Scalar.powerOnto result base n = result * base ^ n := by
  induction n using Nat.strong_induction_on generalizing result base with
  | _ n ih =>
    have hdigits : base ^ n = base ^ (n % 2) * (base * base) ^ (n / 2) := by
      rw [← pow_two, ← pow_mul, ← pow_add, Nat.mod_add_div]
    have hodd : (if n % 2 = 1 then result * base else result) = result * base ^ (n % 2) := by
      rcases Nat.mod_two_eq_zero_or_one n with h | h <;> simp [h]
    rw [Scalar.powerOnto, hdigits, ← mul_assoc, ← hodd]
    by_cases h0 : n / 2 = 0
    · rw [h0, pow_zero, mul_one]
      exact if_pos rfl
    · have hlt : n / 2 < n := by omega
      exact (if_neg h0).trans (ih _ hlt _ _)

theorem Scalar.power_eq (base : K) (n : Nat) : Scalar.power base n = base ^ n := by
  rw [Scalar.power, Scalar.powerOnto_eq]
  exact one_mul _

/-! ## One part -/

/-- Where the function keeps zero, what it combines agrees with it past the end as well. -/
theorem Buffer.Shaped.entry_zipMap {a b : Buffer K} {shape : List Nat} (ha : a.Shaped shape)
    (hb : b.Shaped shape) {f : K → K → K} (hf : f 0 0 = 0) :
    ∃ c, Buffer.zipMap f a b = .ok c ∧ c.Shaped shape ∧
      ∀ j, c.entry j = f (a.entry j) (b.entry j) := by
  obtain ⟨c, hc, hT⟩ := Buffer.zipMap_eq ha.1 hb.1 (ha.2.trans hb.2.symm) f
  rw [ha.2] at hT
  refine ⟨c, hc, hT.shaped, fun j => ?_⟩
  rcases Nat.lt_or_ge j shape.prod with hj | hj
  · exact hT.entry_eq j hj
  · rw [Buffer.entry_of_prod_le hT.full (hT.shape_eq ▸ hj),
      Buffer.entry_of_prod_le ha.1 (ha.2 ▸ hj), Buffer.entry_of_prod_le hb.1 (hb.2 ▸ hj)]
    exact hf.symm

theorem Buffer.Shaped.entry_updateWith {a b : Buffer K} {shape : List Nat} (ha : a.Shaped shape)
    (hb : b.Shaped shape) {f : K → K → K} (hf : f 0 0 = 0) (j : Nat) :
    (a.updateWith f b.data).entry j = f (a.entry j) (b.entry j) := by
  have hab : a.data.size = b.data.size := ha.1.trans (by rw [ha.2, ← hb.2, hb.1])
  have hsize : (a.updateWith f b.data).data.size = a.data.size := Array.size_mapIdx
  rcases Nat.lt_or_ge j a.data.size with hj | hj
  · have hjb : j < b.data.size := hab ▸ hj
    rw [Buffer.entry_of_lt hj, Buffer.entry_of_lt hjb, Buffer.entry_of_lt (hsize.symm ▸ hj)]
    simp [Buffer.updateWith, hjb]
  · have hjb : b.data.size ≤ j := hab ▸ hj
    rw [Buffer.entry_of_le hj, Buffer.entry_of_le hjb, Buffer.entry_of_le (hsize.symm ▸ hj)]
    exact hf.symm

theorem Buffer.entry_of_zeros {b : Buffer K} {shape : List Nat} (h : Buffer.zeros shape = .ok b)
    (j : Nat) : b.entry j = 0 := by
  unfold Buffer.zeros Buffer.full at h
  split at h
  · cases h
    rcases Nat.lt_or_ge j (Extent.saturated shape) with hj | hj
    · rw [Buffer.entry_of_lt (by simpa using hj)]
      exact Array.getElem_replicate ..
    · exact Buffer.entry_of_le (by simpa using hj)
  · cases h

variable {s : Store K}

/-- What pulls a node that has a gradient: the gradient, and a share of the value. -/
theorem Store.Healthy.decayedGradient_some (h : s.Healthy) {n : NodeId} {g : Buffer K}
    (hg : s.grad n = some g) (weightDecay : K) :
    ∃ d, s.decayedGradient n weightDecay = .ok (some d) ∧ d.Shaped (s.shape n) ∧
      ∀ j, d.entry j = g.entry j + weightDecay * (s.value n).entry j := by
  obtain ⟨k, hk, rfl⟩ := Option.map_eq_some_iff.1 hg
  have hks := h.sound.grad_shaped hg
  unfold Store.decayedGradient
  rw [hk]
  by_cases hz : Scalar.isZero weightDecay = true
  · have h0 : weightDecay = 0 := of_decide_eq_true hz
    refine ⟨s.value k, if_pos hz, hks, fun j => ?_⟩
    rw [h0, zero_mul, add_zero]
  · have hf : (0 : K) + weightDecay * 0 = 0 := by rw [mul_zero, add_zero]
    obtain ⟨d, hd, hds, hde⟩ := hks.entry_zipMap (h.sound.values n).shaped
      (f := fun g p => g + weightDecay * p) hf
    refine ⟨d, ?_, hds, hde⟩
    simp only [hz, hd]
    rfl

/-- One parameter's part of a step of Adam. -/
theorem Adam.stepOne_some (h : s.Healthy) (rates : AdamRates K) (t : Nat) {p : Moments K}
    (hp : p.Fits s) {g : Buffer K} (hg : s.grad p.parameter = some g) :
    let pull := fun j => g.entry j + rates.weightDecay * (s.value p.parameter).entry j
    ∃ mean square value,
      stepOne rates t s p = (.ok (), { p with mean, square }, s.setValue p.parameter value) ∧
      (∀ j, mean.entry j = rates.decay1 * p.mean.entry j + (1 - rates.decay1) * pull j) ∧
      (∀ j, square.entry j = rates.decay2 * p.square.entry j + (1 - rates.decay2) * pull j ^ 2) ∧
      ∀ j, value.entry j = (s.value p.parameter).entry j -
        rates.rate * (mean.entry j / (1 - rates.decay1 ^ t)) /
          (Elementary.sqrt (square.entry j / (1 - rates.decay2 ^ t)) + rates.epsilon) := by
  intro pull
  obtain ⟨d, hd, hds, hde⟩ := h.decayedGradient_some hg rates.weightDecay
  have hf1 : rates.decay1 * (0 : K) + (1 - rates.decay1) * 0 = 0 := by ring
  have hf2 : rates.decay2 * (0 : K) + (1 - rates.decay2) * 0 * 0 = 0 := by ring
  have hf3 : move rates (1 - Scalar.power rates.decay1 t) (1 - Scalar.power rates.decay2 t)
      (0 : K) 0 = 0 := by
    simp [move]
  obtain ⟨mean, hm, hms, hme⟩ := hp.mean.entry_zipMap hds
    (f := fun m g => rates.decay1 * m + (1 - rates.decay1) * g) hf1
  obtain ⟨square, hq, hqs, hqe⟩ := hp.square.entry_zipMap hds
    (f := fun v g => rates.decay2 * v + (1 - rates.decay2) * g * g) hf2
  obtain ⟨moves, hv, hvs, hve⟩ := hms.entry_zipMap hqs hf3
  have hx := (h.sound.values p.parameter).shaped.entry_updateWith hvs (f := fun x u => x - u)
    (sub_zero 0)
  refine ⟨mean, square, _, stepOne_of_ok hd hm hq hv, fun j => ?_, fun j => ?_, fun j => ?_⟩
  · rw [hme, hde]
  · rw [hqe, hde]
    ring
  · rw [← Scalar.power_eq, ← Scalar.power_eq]
    exact (hx j).trans (congrArg _ (hve j))

/-- One parameter's part of a step of stochastic gradient descent. -/
theorem Sgd.stepOne_some (h : s.Healthy) (rates : SgdRates K) {p : Velocity K} (hp : p.Fits s)
    {g : Buffer K} (hg : s.grad p.parameter = some g) :
    let pull := fun j => g.entry j + rates.weightDecay * (s.value p.parameter).entry j
    ∃ d velocity value,
      stepOne rates s p = (.ok (), { p with velocity }, s.setValue p.parameter value) ∧
      (rates.momentum = 0 → velocity = p.velocity) ∧ (rates.momentum ≠ 0 → velocity = some d) ∧
      (∀ j, d.entry j = rates.momentum * p.velocity.elim 0 (·.entry j) + pull j) ∧
      ∀ j, value.entry j = (s.value p.parameter).entry j - rates.rate * d.entry j := by
  intro pull
  obtain ⟨g', hd, hds, hde⟩ := h.decayedGradient_some hg rates.weightDecay
  have hvalue := (h.sound.values p.parameter).shaped
  have hf : (0 : K) - rates.rate * 0 = 0 := by ring
  by_cases hz : rates.momentum = 0
  · have hdir : direction rates p.velocity g' = (.ok g', p.velocity) := if_pos (decide_eq_true hz)
    refine ⟨g', p.velocity, _, stepOne_of_ok hd hdir, fun _ => rfl, fun hn => absurd hz hn,
      fun j => ?_, hvalue.entry_updateWith hds hf⟩
    rw [hde, hz, zero_mul, zero_add]
  · have hz' : ¬Scalar.isZero rates.momentum = true := fun h => hz (of_decide_eq_true h)
    cases hv : p.velocity with
    | none =>
      have hdir : direction rates p.velocity g' = (.ok g', some g') := by
        unfold direction
        rw [if_neg hz', hv]
      refine ⟨g', some g', _, stepOne_of_ok hd hdir, fun h0 => absurd h0 hz, fun _ => rfl,
        fun j => ?_, hvalue.entry_updateWith hds hf⟩
      rw [hde, Option.elim_none, mul_zero, zero_add]
    | some held =>
      have hf' : rates.momentum * (0 : K) + 0 = 0 := by ring
      obtain ⟨d, hc, hcs, hce⟩ := (hp.velocity held hv).entry_zipMap hds
        (f := fun b g => rates.momentum * b + g) hf'
      have hdir : direction rates p.velocity g' = (.ok d, some d) := by
        unfold direction
        rw [if_neg hz', hv]
        simp only [hc]
      refine ⟨d, some d, _, stepOne_of_ok hd hdir, fun h0 => absurd h0 hz, fun _ => rfl,
        fun j => ?_, hvalue.entry_updateWith hcs hf⟩
      rw [hce, hde, Option.elim_some]

/-! ## Turns -/

/-- How much of a parameter's value is added to its gradient. -/
def Settings.weightDecay {α : Type} : Settings α → α
  | adam rates => rates.weightDecay
  | sgd rates => rates.weightDecay

namespace Optimizer

section

variable {α : Type} {s : Store α} {opt : Optimizer α} {i : Nat} {n : NodeId}

/-- The same optimizer over its first parameters only. -/
def first (i : Nat) : Optimizer α → Optimizer α
  | adam state => adam { state with moments := state.moments.take i }
  | sgd state => sgd { state with velocities := state.velocities.take i }

theorem parameters_first (opt : Optimizer α) (i : Nat) :
    (opt.first i).parameters = opt.parameters.take i := by
  cases opt <;> exact List.map_take

theorem fits_first (hf : opt.Fits s) (i : Nat) : (opt.first i).Fits s := by
  cases opt with
  | adam state => exact fun p hp => hf p (List.mem_of_mem_take hp)
  | sgd state => exact fun p hp => hf p (List.mem_of_mem_take hp)

/-- What is kept for the parameter at a place: both averages, or the velocity if there is one. -/
def kept (i : Nat) : Optimizer α → List (Buffer α)
  | adam state => (state.moments[i]?).elim [] fun p => [p.mean, p.square]
  | sgd state => (state.velocities[i]?).elim [] fun p => p.velocity.toList

variable [Scalar α]

/-- The graph on which the parameter at a place has its turn in a step: those before it have had
theirs. -/
def turn (opt : Optimizer α) (i : Nat) (s : Store α) : Store α := ((opt.first i).step s).2.2

theorem advanced_turn (h : s.Healthy) (hf : opt.Fits s) (i : Nat) : s.Advanced (opt.turn i s) := by
  obtain ⟨result, opt', s', hs, -, hA, -⟩ := step_spec h (fits_first hf i)
  rw [turn, hs]
  exact hA

theorem gradient_turn (hn : n < s.nodes.size) : (opt.turn i s).gradient n = s.gradient n := by
  obtain ⟨hF, -⟩ := step_frame (opt.first i) s
  rcases hF.gradient_cases n hn with hsame | ⟨-, hx⟩ | ⟨-, hx⟩
  · exact hsame
  · exact hx.elim
  · exact hx.elim

/-- At its turn a parameter still has the gradient that it had before the step, unless that is a
parameter itself. -/
theorem grad_turn (h : s.Healthy) (hn : n < s.nodes.size)
    (hg : ∀ k ∈ opt.parameters.take i, s.gradient n ≠ some k) :
    (opt.turn i s).grad n = s.grad n := by
  obtain ⟨hF, -⟩ := step_frame (opt.first i) s
  rw [parameters_first] at hF
  rw [Store.grad, gradient_turn hn, Store.grad]
  refine Option.map_congr fun k hk => ?_
  exact hF.value_eq k (h.sound.held n k hk).1 fun hw => hg k hw.1 hk

/-- A parameter that is listed once still has its value at its turn. -/
theorem value_turn (hi : opt.parameters[i]? = some n) (hn : n < s.nodes.size)
    (hd : opt.parameters.Nodup) : (opt.turn i s).value n = s.value n := by
  obtain ⟨hF, -⟩ := step_frame (opt.first i) s
  rw [parameters_first] at hF
  refine hF.value_eq n hn fun hw => ?_
  obtain ⟨k, hk, hkn⟩ := List.mem_take_iff_getElem.1 hw.1
  obtain ⟨hlt, hin⟩ := List.getElem?_eq_some_iff.1 hi
  have := (hd.getElem_inj_iff).1 (hkn.trans hin.symm)
  omega

end

/-! ## Pulls -/

variable {opt : Optimizer K} {i : Nat} {n : NodeId}

/-- What pulls a parameter at its turn, element by element: its gradient, and a share of its value.
Nothing if it has no gradient. -/
def pull (opt : Optimizer K) (i : Nat) (n : NodeId) (s : Store K) : Option (Nat → K) :=
  ((opt.turn i s).grad n).map fun g j =>
    g.entry j + opt.settings.weightDecay * ((opt.turn i s).value n).entry j

theorem pull_none (hg : (opt.turn i s).grad n = none) : opt.pull i n s = none := by
  rw [pull, hg, Option.map_none]

theorem pull_some {g : Buffer K} (hg : (opt.turn i s).grad n = some g) :
    opt.pull i n s = some fun j =>
      g.entry j + opt.settings.weightDecay * ((opt.turn i s).value n).entry j := by
  rw [pull, hg, Option.map_some]

/-- What has pulled a parameter in several steps, one after the other. -/
def pulls (i : Nat) (n : NodeId) (past : List (Optimizer K × Store K)) : List (Nat → K) :=
  past.filterMap fun x => x.1.pull i n x.2

/-- This is what could be seen before the step, where no gradient is a parameter itself. -/
theorem pull_eq (h : s.Healthy) (hf : opt.Fits s) (hi : opt.parameters[i]? = some n)
    (hd : opt.parameters.Nodup) (hg : ∀ k ∈ opt.parameters.take i, s.gradient n ≠ some k) :
    opt.pull i n s =
      (s.grad n).map fun g j => g.entry j + opt.settings.weightDecay * (s.value n).entry j := by
  have hn := lt_size_of_fits hf (List.mem_of_getElem? hi)
  rw [pull, grad_turn h hn hg, value_turn hi hn hd]

theorem pulls_concat (past : List (Optimizer K × Store K)) (opt : Optimizer K) (s : Store K) :
    pulls i n (past ++ [(opt, s)]) = pulls i n past ++ (opt.pull i n s).toList := by
  rw [pulls, List.filterMap_append]
  rfl

/-! ## What is kept, and what a step does -/

/-- What has been kept of a parameter in the past steps: the averages of its pulls and of their
squares, or the sum of its pulls. -/
def Follows (i : Nat) (n : NodeId) (past : List (Optimizer K × Store K)) : Optimizer K → Prop
  | adam state => state.steps = past.length ∧
    ∃ mean square, (adam state).kept i = [mean, square] ∧
      (∀ j, mean.entry j = (1 - state.rates.decay1) *
        discounted state.rates.decay1 ((pulls i n past).map fun g => g j)) ∧
      ∀ j, square.entry j = (1 - state.rates.decay2) *
        discounted state.rates.decay2 ((pulls i n past).map fun g => g j ^ 2)
  | sgd state =>
    if state.rates.momentum = 0 ∨ pulls i n past = [] then (sgd state).kept i = []
    else ∃ velocity, (sgd state).kept i = [velocity] ∧
      ∀ j, velocity.entry j =
        discounted state.rates.momentum ((pulls i n past).map fun g => g j)

end Optimizer

/-- What is subtracted from an element that has been pulled so far by the given numbers, in step
number `t`. -/
def Settings.update (t : Nat) (gs : List K) : Settings K → K
  | adam rates =>
    let mean := (1 - rates.decay1) * discounted rates.decay1 gs
    let square := (1 - rates.decay2) * discounted rates.decay2 (gs.map (· ^ 2))
    rates.rate * (mean / (1 - rates.decay1 ^ t)) /
      (Elementary.sqrt (square / (1 - rates.decay2 ^ t)) + rates.epsilon)
  | sgd rates =>
    rates.rate * if rates.momentum = 0 then gs.getLastD 0 else discounted rates.momentum gs

/-- Without momentum the sum is its last summand. -/
theorem Settings.update_sgd (t : Nat) (rates : SgdRates K) (gs : List K) (g : K) :
    update t (gs ++ [g]) (.sgd rates) = rates.rate * discounted rates.momentum (gs ++ [g]) := by
  rw [update]
  split_ifs with hz
  · rw [hz, discounted_zero, List.getLastD_concat]
  · rfl

/-! ## One parameter in a step -/

section

variable {α : Type} [Scalar α] {s : Store α} {i : Nat}

theorem Adam.lt_lastStep_of_ok {state : Adam α} (hok : (state.step s).1 = .ok ()) :
    state.steps < lastStep := by
  by_contra hn
  rw [step, if_pos (Nat.not_lt.1 hn)] at hok
  cases hok

/-- A step of Adam that succeeds is counted. -/
theorem Adam.step_counted {state : Adam α} (hok : (state.step s).1 = .ok ()) :
    (state.step s).2.1.rates = state.rates ∧ (state.step s).2.1.steps = state.steps + 1 := by
  rw [step_eq_runAll (lt_lastStep_of_ok hok)]
  exact ⟨rfl, rfl⟩

/-- What it does for one parameter is the parameter's part at its turn. -/
theorem Adam.step_at {state : Adam α} (hok : (state.step s).1 = .ok ()) {p : Moments α}
    (hi : state.moments[i]? = some p) :
    let part := stepOne state.rates (state.steps + 1) ((Optimizer.adam state).turn i s) p
    (state.step s).2.1.moments[i]? = some part.2.1 ∧
      ((Optimizer.adam state).parameters.Nodup →
        (state.step s).2.2.value p.parameter = part.2.2.value p.parameter) := by
  intro part
  have ht := lt_lastStep_of_ok hok
  have hturn : (Optimizer.adam state).turn i s =
      ((method state.rates (state.steps + 1)).runAll (state.moments.take i) s).2.2 :=
    congrArg (fun r : Outcome Unit × Adam α × Store α => r.2.2)
      (@step_eq_runAll α _ { state with moments := state.moments.take i } ht s)
  rw [step_eq_runAll ht] at hok ⊢
  obtain ⟨-, hkept⟩ := Method.kept_runAll hok hi
  rw [← hturn] at hkept
  refine ⟨hkept, fun hd => ?_⟩
  have hvalue := (Method.value_runAll hok hi hd).2
  rw [← hturn] at hvalue
  exact hvalue

/-- A step of stochastic gradient descent that succeeds, for one parameter. -/
theorem Sgd.step_at {state : Sgd α} (hok : (state.step s).1 = .ok ()) {p : Velocity α}
    (hi : state.velocities[i]? = some p) :
    let part := stepOne state.rates ((Optimizer.sgd state).turn i s) p
    (state.step s).2.1.rates = state.rates ∧
      (state.step s).2.1.velocities[i]? = some part.2.1 ∧
      ((Optimizer.sgd state).parameters.Nodup →
        (state.step s).2.2.value p.parameter = part.2.2.value p.parameter) := by
  intro part
  have hturn : (Optimizer.sgd state).turn i s =
      ((method state.rates).runAll (state.velocities.take i) s).2.2 :=
    congrArg (fun r => r.2.2)
      (step_eq_runAll { state with velocities := state.velocities.take i } s)
  rw [step_eq_runAll] at hok ⊢
  obtain ⟨-, hkept⟩ := Method.kept_runAll hok hi
  rw [← hturn] at hkept
  refine ⟨rfl, hkept, fun hd => ?_⟩
  have hvalue := (Method.value_runAll hok hi hd).2
  rw [← hturn] at hvalue
  exact hvalue

end

namespace Optimizer

/-- What a step does to the parameter at a place, given what has pulled it before. -/
structure Moved (i : Nat) (n : NodeId) (past : List (Optimizer K × Store K))
    (opt opt' : Optimizer K) (s s' : Store K) : Prop where
  still : opt.pull i n s = none → s'.value n = s.value n ∧ opt'.kept i = opt.kept i
  pulled : ∀ g, opt.pull i n s = some g → ∀ j, (s'.value n).entry j = (s.value n).entry j -
    opt.settings.update (past.length + 1) ((pulls i n past ++ [g]).map fun g => g j)

variable {opt : Optimizer K} {i : Nat} {n : NodeId} {past : List (Optimizer K × Store K)}

theorem Moved.of_still {opt' : Optimizer K} {s' : Store K} (hpull : opt.pull i n s = none)
    (hvalue : s'.value n = s.value n) (hkept : opt'.kept i = opt.kept i) :
    Moved i n past opt opt' s s' := by
  refine ⟨fun _ => ⟨hvalue, hkept⟩, fun g hg => ?_⟩
  rw [hpull] at hg
  cases hg

theorem Moved.of_pulled {opt' : Optimizer K} {s' : Store K} {x : Nat → K}
    (hpull : opt.pull i n s = some x) (hvalue : ∀ j, (s'.value n).entry j = (s.value n).entry j -
      opt.settings.update (past.length + 1) ((pulls i n past ++ [x]).map fun g => g j)) :
    Moved i n past opt opt' s s' := by
  refine ⟨fun hn => ?_, fun g hg j => ?_⟩
  · rw [hpull] at hn
    cases hn
  · obtain rfl := Option.some.inj (hpull.symm.trans hg)
    exact hvalue j

/-- A step of Adam adds the pulls of this step to what is kept, and moves the parameter by it. -/
theorem Follows.step_adam {state : Adam K} (hF : (adam state).Follows i n past) (h : s.Healthy)
    (hf : (adam state).Fits s) (hi : (adam state).parameters[i]? = some n)
    (hok : (state.step s).1 = .ok ()) :
    (adam (state.step s).2.1).Follows i n (past ++ [(adam state, s)]) ∧
      ((adam state).parameters.Nodup →
        Moved i n past (adam state) (adam (state.step s).2.1) s (state.step s).2.2) := by
  have hlt := lt_size_of_fits hf (List.mem_of_getElem? hi)
  obtain ⟨p, hp, rfl⟩ : ∃ p, state.moments[i]? = some p ∧ p.parameter = n := by
    simpa [parameters] using hi
  obtain ⟨hcount, mean, square, hkept, hmean, hsquare⟩ := hF
  have hpk : mean = p.mean ∧ square = p.square := by
    simpa [kept, hp, eq_comm] using hkept
  obtain ⟨rfl, rfl⟩ := hpk
  obtain ⟨hr, hst⟩ := Adam.step_counted hok
  obtain ⟨hp', hvalue⟩ := Adam.step_at hok hp
  have hA := advanced_turn h hf i
  have hpf := (hf p (List.mem_of_getElem? hp)).grown hA.grown
  cases hg : ((adam state).turn i s).grad p.parameter with
  | none =>
    have hpull := pull_none hg
    rw [Adam.stepOne_none hg] at hp' hvalue
    have hkept' : (adam (state.step s).2.1).kept i = [p.mean, p.square] := by
      rw [kept, hp', Option.elim_some]
    constructor
    · refine ⟨by simp [hst, hcount], p.mean, p.square, hkept', ?_⟩
      rw [hr, pulls_concat, hpull, Option.toList_none, List.append_nil]
      exact ⟨hmean, hsquare⟩
    · intro hd
      exact .of_still hpull ((hvalue hd).trans (value_turn hi hlt hd)) (hkept'.trans hkept.symm)
  | some g =>
    obtain ⟨mean, square, value, hpart, hmean', hsquare', hmoved⟩ :=
      Adam.stepOne_some hA.healthy state.rates (state.steps + 1) hpf hg
    let x : Nat → K := fun j => g.entry j +
      state.rates.weightDecay * (((adam state).turn i s).value p.parameter).entry j
    have hpull : (adam state).pull i p.parameter s = some x := pull_some hg
    rw [hpart] at hp' hvalue
    have hmeans : ∀ j, mean.entry j = (1 - state.rates.decay1) * discounted state.rates.decay1
        ((pulls i p.parameter past ++ [x]).map fun g => g j) := by
      intro j
      rw [hmean', hmean, List.map_append, List.map_singleton, discounted_concat]
      ring
    have hsquares : ∀ j, square.entry j = (1 - state.rates.decay2) * discounted state.rates.decay2
        ((pulls i p.parameter past ++ [x]).map fun g => g j ^ 2) := by
      intro j
      rw [hsquare', hsquare, List.map_append, List.map_singleton, discounted_concat]
      ring
    constructor
    · refine ⟨by simp [hst, hcount], mean, square, by rw [kept, hp', Option.elim_some], ?_⟩
      rw [hr, pulls_concat, hpull]
      exact ⟨hmeans, hsquares⟩
    · intro hd
      refine .of_pulled hpull fun j => ?_
      rw [hvalue hd, Store.value_setValue hpf.existing, if_pos rfl, hmoved, hmeans, hsquares,
        value_turn hi hlt hd, settings, Settings.update, List.map_map, hcount]
      rfl

/-- What momentum makes of the velocity. Without momentum none is kept, but then nothing that came
before counts either. -/
theorem Follows.momentum_mul_held {state : Sgd K} (hF : (sgd state).Follows i n past)
    {p : Velocity K} (hp : state.velocities[i]? = some p) (j : Nat) :
    state.rates.momentum * p.velocity.elim 0 (·.entry j) =
      state.rates.momentum * discounted state.rates.momentum
        ((pulls i n past).map fun g => g j) := by
  by_cases hz : state.rates.momentum = 0
  · rw [hz, zero_mul, zero_mul]
  · rw [Follows, kept, hp, Option.elim_some] at hF
    by_cases hpast : pulls i n past = []
    · rw [if_pos (.inr hpast), Option.toList_eq_nil_iff] at hF
      rw [hF, hpast]
      rfl
    · rw [if_neg (not_or.2 ⟨hz, hpast⟩)] at hF
      obtain ⟨v, hv, hsum⟩ := hF
      rw [Option.toList_eq_singleton_iff.1 hv, Option.elim_some, hsum]

/-- A step of stochastic gradient descent does the same to the sum that is kept. -/
theorem Follows.step_sgd {state : Sgd K} (hF : (sgd state).Follows i n past) (h : s.Healthy)
    (hf : (sgd state).Fits s) (hi : (sgd state).parameters[i]? = some n)
    (hok : (state.step s).1 = .ok ()) :
    (sgd (state.step s).2.1).Follows i n (past ++ [(sgd state, s)]) ∧
      ((sgd state).parameters.Nodup →
        Moved i n past (sgd state) (sgd (state.step s).2.1) s (state.step s).2.2) := by
  have hlt := lt_size_of_fits hf (List.mem_of_getElem? hi)
  obtain ⟨p, hp, rfl⟩ : ∃ p, state.velocities[i]? = some p ∧ p.parameter = n := by
    simpa [parameters] using hi
  have hkept : (sgd state).kept i = p.velocity.toList := by rw [kept, hp, Option.elim_some]
  obtain ⟨hr, hp', hvalue⟩ := Sgd.step_at hok hp
  have hA := advanced_turn h hf i
  have hpf := (hf p (List.mem_of_getElem? hp)).grown hA.grown
  cases hg : ((sgd state).turn i s).grad p.parameter with
  | none =>
    have hpull := pull_none hg
    rw [Sgd.stepOne_none hg] at hp' hvalue
    have hkept' : (sgd (state.step s).2.1).kept i = (sgd state).kept i := by
      rw [hkept, kept, hp', Option.elim_some]
    constructor
    · rw [Follows, hr, pulls_concat, hpull, Option.toList_none, List.append_nil, hkept']
      exact hF
    · intro hd
      exact .of_still hpull ((hvalue hd).trans (value_turn hi hlt hd)) hkept'
  | some g =>
    obtain ⟨d, velocity, value, hpart, hzero, hne, hd, hmoved⟩ :=
      Sgd.stepOne_some hA.healthy state.rates hpf hg
    let x : Nat → K := fun j => g.entry j +
      state.rates.weightDecay * (((sgd state).turn i s).value p.parameter).entry j
    have hpull : (sgd state).pull i p.parameter s = some x := pull_some hg
    rw [hpart] at hp' hvalue
    have hheld := hF.momentum_mul_held hp
    have hsum : ∀ j, d.entry j = discounted state.rates.momentum
        ((pulls i p.parameter past ++ [x]).map fun g => g j) := by
      intro j
      rw [hd, hheld, List.map_append, List.map_singleton, discounted_concat]
    have hkept' : (sgd (state.step s).2.1).kept i = velocity.toList := by
      rw [kept, hp', Option.elim_some]
    constructor
    · rw [Follows, hr, pulls_concat, hpull, hkept', Option.toList_some]
      by_cases hz : state.rates.momentum = 0
      · rw [Follows, if_pos (.inl hz), hkept] at hF
        rw [if_pos (.inl hz), hzero hz]
        exact hF
      · rw [if_neg (not_or.2 ⟨hz, List.concat_ne_nil _ _⟩), hne hz]
        exact ⟨d, rfl, hsum⟩
    · intro hnodup
      refine .of_pulled hpull fun j => ?_
      rw [hvalue hnodup, Store.value_setValue hpf.existing, if_pos rfl, hmoved, hsum,
        value_turn hi hlt hnodup, settings, List.map_append, List.map_singleton,
        Settings.update_sgd]

theorem Follows.step (hF : opt.Follows i n past) (h : s.Healthy) (hf : opt.Fits s)
    (hi : opt.parameters[i]? = some n) (hok : (opt.step s).1 = .ok ()) :
    (opt.step s).2.1.Follows i n (past ++ [(opt, s)]) ∧
      (opt.parameters.Nodup → Moved i n past opt (opt.step s).2.1 s (opt.step s).2.2) := by
  cases opt with
  | adam state => exact hF.step_adam h hf hi hok
  | sgd state => exact hF.step_sgd h hf hi hok

/-- Nothing is kept of parameters to begin with. -/
theorem follows_new {params : List NodeId} {settings : Settings K}
    (ho : Optimizer.new s params settings = .ok opt) (hi : params[i]? = some n) :
    opt.Follows i n [] := by
  cases fresh_of_new ho with
  | sgd =>
    rw [Follows, if_pos (.inr rfl), kept, List.getElem?_map, hi]
    rfl
  | adam hparams hzeros =>
    rw [← hparams, List.getElem?_map, Option.map_eq_some_iff] at hi
    obtain ⟨p, hp, rfl⟩ := hi
    obtain ⟨hz, hsquare⟩ := hzeros p (List.mem_of_getElem? hp)
    have hentry := Buffer.entry_of_zeros hz
    refine ⟨rfl, p.mean, p.mean, by rw [kept, hp, Option.elim_some, hsquare], fun j => ?_,
      fun j => ?_⟩ <;> rw [hentry] <;> exact (mul_zero _).symm

/-! ## Runs -/

/-- What holds of an optimizer over its whole life, with the steps that it has taken. -/
structure Trained (settings : Settings K) (params : List NodeId)
    (past : List (Optimizer K × Store K)) (opt : Optimizer K) : Prop where
  settings_eq : opt.settings = settings
  parameters_eq : opt.parameters = params
  follows : ∀ i n, params[i]? = some n → opt.Follows i n past
  /-- So it was before each of the steps. -/
  before : ∀ x ∈ past, x.2.Healthy ∧ x.1.Fits x.2 ∧ x.1.settings = settings ∧
    x.1.parameters = params

variable {settings : Settings K} {params : List NodeId}

theorem trained_new (ho : Optimizer.new s params settings = .ok opt) :
    opt.Trained settings params [] :=
  ⟨settings_new ho, parameters_new ho, fun _ _ hi => follows_new ho hi, nofun⟩

theorem Trained.step (hT : opt.Trained settings params past) (h : s.Healthy) (hf : opt.Fits s)
    (hok : (opt.step s).1 = .ok ()) :
    (opt.step s).2.1.Trained settings params (past ++ [(opt, s)]) := by
  refine ⟨(settings_step opt s).trans hT.settings_eq,
    (step_frame opt s).2.trans hT.parameters_eq, fun i n hi => ?_, fun x hx => ?_⟩
  · exact ((hT.follows i n hi).step h hf (hT.parameters_eq ▸ hi) hok).1
  · rcases List.mem_append.1 hx with hx | hx
    · exact hT.before x hx
    · obtain rfl := List.mem_singleton.1 hx
      exact ⟨h, hf, hT.settings_eq, hT.parameters_eq⟩

/-- At every step that there was, and at the next one, a parameter is pulled by the gradient and the
value that it has before the step, unless the gradient is a parameter before it. -/
theorem Trained.pull_eq (hT : opt.Trained settings params past) (h : s.Healthy) (hf : opt.Fits s)
    (hd : params.Nodup) (hi : params[i]? = some n) {x : Optimizer K × Store K}
    (hx : x ∈ past ++ [(opt, s)]) (hg : ∀ k ∈ params.take i, x.2.gradient n ≠ some k) :
    x.1.pull i n x.2 =
      (x.2.grad n).map fun g j => g.entry j + settings.weightDecay * (x.2.value n).entry j := by
  have hbefore : x.2.Healthy ∧ x.1.Fits x.2 ∧ x.1.settings = settings ∧
      x.1.parameters = params := by
    rcases List.mem_append.1 hx with hx | hx
    · exact hT.before x hx
    · obtain rfl := List.mem_singleton.1 hx
      exact ⟨h, hf, hT.settings_eq, hT.parameters_eq⟩
  obtain ⟨hxh, hxf, rfl, rfl⟩ := hbefore
  exact Optimizer.pull_eq hxh hxf hi hd hg

end Optimizer

namespace Engine

variable [Sampler K] {e : Engine K} {settings : Settings K}
  {handles : Option (List (Option Handle))} {length : Nat} {h : Handle} {params : List NodeId}
  {calls : List (Call K)}

/-- What holds of an optimizer that is made by a call and not taken back, after any calls. -/
theorem Reachable.trained (he : e.Reachable)
    (hmade : (e.answer (.create (settings.creation handles length) true)).1.handle = some h)
    (hp : e.readParameters handles length = .ok params) (hc : ∀ c ∈ calls, c.Representable)
    (hr : ∀ c ∈ calls, ∀ kind, c ≠ .release kind (some h)) :
    let start := (e.answer (.create (settings.creation handles length) true)).2.1
    params ≠ [] ∧ (start.after calls).Sound ∧
      (stepsTaken h calls start).length = settings.taken (calls.countP (·.asksStep h)) ∧
      ∃ opt, (start.after calls).object? h = some (.optimizer opt) ∧
        opt.Trained settings params (stepsTaken h calls start) := by
  intro start
  obtain ⟨opt₀, hobj, hnew⟩ := holdsNew_created hp hmade
  have hS : start.Sound := he.sound.answer (Settings.representable_creation ..)
  obtain ⟨⟨opt, ho⟩, hlength⟩ := hS.length_stepsTaken hobj hc hr
  refine ⟨Optimizer.ne_nil_of_new hnew, hS.after hc, ?_, opt, ho, ?_⟩
  · rw [hlength]
    exact Optimizer.taken_new hnew _
  · exact hS.optimizer_after (fun past opt s h hf hT hok => hT.step h hf hok) hobj
      (Optimizer.trained_new hnew) hc ho

/-- All that is kept by an optimizer is made up of the pulls at the steps that it has taken. -/
theorem Reachable.moving_sums (he : e.Reachable)
    (hmade : (e.answer (.create (settings.creation handles length) true)).1.handle = some h)
    (hp : e.readParameters handles length = .ok params) (hd : params.Nodup)
    (hc : ∀ c ∈ calls, c.Representable) (hr : ∀ c ∈ calls, ∀ kind, c ≠ .release kind (some h)) :
    let start := (e.answer (.create (settings.creation handles length) true)).2.1
    let now := start.after calls
    let past := stepsTaken h calls start
    let next := now.answer (.command (.step (some h)))
    past.length = settings.taken (calls.countP (·.asksStep h)) ∧
    ∃ opt, now.object? h = some (.optimizer opt) ∧ opt.settings = settings ∧
      opt.parameters = params ∧ (next.1 = .success ↔ opt.CanStep) ∧
      ∀ i n, params[i]? = some n →
        opt.Follows i n past ∧
        (next.1 = .success → ∃ opt', next.2.1.object? h = some (.optimizer opt') ∧
          Optimizer.Moved i n past opt opt' now.store next.2.1.store) ∧
        ∀ x ∈ past ++ [(opt, now.store)], (∀ k ∈ params.take i, x.2.gradient n ≠ some k) →
          x.1.pull i n x.2 = (x.2.grad n).map fun g j =>
            g.entry j + settings.weightDecay * (x.2.value n).entry j := by
  intro start now past next
  obtain ⟨-, hnow, hlength, opt, ho, hT⟩ := he.trained hmade hp hc hr
  have hf : opt.Fits now.store := hnow.objects h _ ho
  have hnext := (answer_step ho).1
  refine ⟨hlength, opt, ho, hT.settings_eq, hT.parameters_eq, ?_, fun i n hi =>
    ⟨hT.follows i n hi, fun hs => ⟨_, object?_answer_step ho, ?_⟩, fun x hx hg => ?_⟩⟩
  · exact hnext.trans (Optimizer.step_eq_ok_iff hnow.graph hf)
  · have hstep := (hT.follows i n hi).step hnow.graph hf (hT.parameters_eq ▸ hi) (hnext.1 hs)
    rw [store_answer_step ho]
    exact hstep.2 (hT.parameters_eq ▸ hd)
  · exact hT.pull_eq hnow.graph hf hd hi hx hg

/-- Two steps of Adam on one number, the second one after its gradient has been cleared. -/
theorem moving_sums_cleared :
    let _ := Elementary.plain ℚ
    let _ : Sampler ℚ := ⟨fun s => (0, s), fun _ s => .ok (0, s)⟩
    let settings : Settings ℚ := .adam ⟨1 / 10, 9 / 10, 1 / 2, 0, 1 / 10⟩
    let e := (ofSeed 7).after
      [.create (.fromData (some [1]) 1 (some [1]) 1) true, .command (.setTracked (some 0) true)]
    let start := (e.answer (.create (settings.creation (some [some 0]) 1) true)).2.1
    let calls : List (Call ℚ) := [.command (.backward (some 0)), .command (.step (some 1)),
      .command (.clearGradients (some 1)), .command (.step (some 1))]
    let past := stepsTaken 1 calls start
    past.length = 2 ∧ ∃ opt, (start.after calls).object? 1 = some (.optimizer opt) ∧
      opt.Follows 0 0 past := by
  intro _ _ settings e start calls past
  have he : e.Reachable := (Reachable.start 7).after (by decide)
  have hmade :
      (e.answer (.create (settings.creation (some [some 0]) 1) true)).1.handle = some 1 := by
    decide +kernel
  have hparams : e.readParameters (some [some 0]) 1 = .ok [0] := rfl
  have h := he.moving_sums hmade hparams (by decide)
    (by decide : ∀ c ∈ calls, c.Representable) (by simp [calls])
  obtain ⟨hlength, opt, ho, -, -, -, hall⟩ := h
  exact ⟨hlength, opt, ho, (hall 0 0 rfl).1⟩

end Engine

end DiffTensor
