import Mathlib.Algebra.Order.BigOperators.Ring.Finset
import Mathlib.Algebra.Order.Field.Basic
import Mathlib.Analysis.Complex.Exponential
import Mathlib.Analysis.Real.Sqrt
import Mathlib.Data.Rat.Sqrt
import DiffTensor.Host.Rates
import DiffTensor.Proofs.MovingSums
import DiffTensor.Random.Double
import DiffTensor.Scalar.Double

/-!
# What Adam divides by

A step of Adam divides by how far the averages still lag behind, and by the root of the averaged
squares with a small number added (`Adam.divisor`). In exact arithmetic, with settings that the host
accepts, none of these is negative (`Adam.Divisible`). The first two are positive in every step. The
last one is zero for an element if the small number is zero and nothing that counts has pulled the
element so far.
-/

namespace DiffTensor

open Finset

/-! ## Settings -/

section Settings

variable {K : Type} [Field K] [LinearOrder K] [Elementary K]

theorem atMost_iff {x y : K} : Scalar.atMost x y = true ↔ x ≤ y := by
  rw [Scalar.atMost, Bool.or_eq_true_iff, le_iff_lt_or_eq]
  exact or_congr decide_eq_true_iff decide_eq_true_iff

/-- A single check. -/
theorem ite_eq_ok_unit_iff {ε : Type} {b : Bool} {cause : ε} :
    (if b then .ok () else .error cause : Except ε Unit) = .ok () ↔ b = true := by
  cases b <;> simp

theorem checkRate_eq_ok_iff {rate : K} : checkRate rate = .ok () ↔ 0 < rate :=
  ite_eq_ok_unit_iff.trans decide_eq_true_iff

theorem checkDecay_eq_ok_iff {setting : String} {value : K} :
    checkDecay setting value = .ok () ↔ 0 ≤ value ∧ value < 1 := by
  rw [checkDecay, ite_eq_ok_unit_iff, Bool.and_eq_true_iff, atMost_iff]
  exact and_congr_right' decide_eq_true_iff

theorem checkNonNegative_eq_ok_iff {setting : String} {value : K} :
    checkNonNegative setting value = .ok () ↔ 0 ≤ value :=
  ite_eq_ok_unit_iff.trans atMost_iff

/-- Checks that are made one after the other are all passed. -/
theorem bind_eq_ok_unit_iff {ε : Type} {check rest : Except ε Unit} :
    (check >>= fun _ => rest) = .ok () ↔ check = .ok () ∧ rest = .ok () := by
  cases check with
  | error cause => exact ⟨nofun, fun h => nomatch h.1⟩
  | ok _ => exact ⟨fun h => ⟨rfl, h⟩, fun h => h.2⟩

/-- The settings of Adam that are accepted. -/
theorem AdamRates.check_eq_ok_iff {rates : AdamRates K} :
    rates.check = .ok () ↔ 0 < rates.rate ∧ (0 ≤ rates.decay1 ∧ rates.decay1 < 1) ∧
      (0 ≤ rates.decay2 ∧ rates.decay2 < 1) ∧ 0 ≤ rates.epsilon ∧ 0 ≤ rates.weightDecay := by
  rw [check, bind_eq_ok_unit_iff, bind_eq_ok_unit_iff, bind_eq_ok_unit_iff, bind_eq_ok_unit_iff,
    checkRate_eq_ok_iff, checkDecay_eq_ok_iff, checkDecay_eq_ok_iff, checkNonNegative_eq_ok_iff,
    checkNonNegative_eq_ok_iff]

end Settings

/-! ## Divisors -/

namespace Adam

/-- What a step with number `t` divides an element's averaged pull by, given the average of its
squares. -/
def divisor {α : Type} [Scalar α] (rates : AdamRates α) (t : Nat) (v : α) : α :=
  Scalar.sqrt (v / (1 - Scalar.power rates.decay2 t)) + rates.epsilon

variable {K : Type} [Field K] [LinearOrder K] [Elementary K]

/-- One parameter's part of a step: the averages are renewed, and what is subtracted from an element
is made of the new ones. -/
theorem stepOne_divisor {s : Store K} (h : s.Healthy) (rates : AdamRates K) (t : Nat)
    {p : Moments K} (hp : p.Fits s) (hg : s.grad p.parameter ≠ none) :
    ∃ p' value, stepOne rates t s p = (.ok (), p', s.setValue p.parameter value) ∧
      ∀ j, value.entry j = (s.value p.parameter).entry j -
        rates.rate * (p'.mean.entry j / (1 - Scalar.power rates.decay1 t)) /
          divisor rates t (p'.square.entry j) := by
  obtain ⟨g, hg⟩ := Option.ne_none_iff_exists'.1 hg
  obtain ⟨mean, square, value, hs, -, -, hv⟩ := stepOne_some h rates t hp hg
  refine ⟨_, value, hs, fun j => ?_⟩
  rw [hv, divisor, Scalar.power_eq, Scalar.power_eq]
  rfl

/-- So it is for a parameter in a step that succeeds. -/
theorem step_divisor {s : Store K} {state : Adam K} (h : s.Healthy)
    (hf : (Optimizer.adam state).Fits s) (hok : (state.step s).1 = .ok ())
    (hd : (Optimizer.adam state).parameters.Nodup) {i : Nat} {n : NodeId}
    (hi : (Optimizer.adam state).parameters[i]? = some n) (hg : s.gradient n ≠ none) :
    ∃ p, (state.step s).2.1.moments[i]? = some p ∧
      ∀ j, ((state.step s).2.2.value n).entry j = (s.value n).entry j -
        state.rates.rate *
          (p.mean.entry j / (1 - Scalar.power state.rates.decay1 (state.steps + 1))) /
          divisor state.rates (state.steps + 1) (p.square.entry j) := by
  have hlt := Optimizer.lt_size_of_fits hf (List.mem_of_getElem? hi)
  have hvalue := Optimizer.value_turn hi hlt hd
  rw [Optimizer.parameters, List.getElem?_map, Option.map_eq_some_iff] at hi
  obtain ⟨p, hp, rfl⟩ := hi
  obtain ⟨hp', hafter⟩ := step_at hok hp
  have hA := Optimizer.advanced_turn h hf i
  have hturn : ((Optimizer.adam state).turn i s).grad p.parameter ≠ none := by
    rw [Store.grad, Optimizer.gradient_turn hlt, ne_eq, Option.map_eq_none_iff]
    exact hg
  obtain ⟨p', value, hpart, hentry⟩ := stepOne_divisor hA.healthy state.rates (state.steps + 1)
    ((hf p (List.mem_of_getElem? hp)).grown hA.grown) hturn
  rw [hpart] at hp' hafter
  refine ⟨p', hp', fun j => ?_⟩
  have hlt' : p.parameter < ((Optimizer.adam state).turn i s).nodes.size :=
    Nat.lt_of_lt_of_le hlt hA.grown.size_le
  rw [hafter hd, Store.value_setValue hlt', if_pos rfl, hentry, hvalue]

/-- In the step that has been taken last nothing is divided by a negative number, nor by zero but
where the averaged square and the small number that is added both are zero. -/
structure Divisible (state : Adam K) : Prop where
  lag1_pos : 0 < 1 - Scalar.power state.rates.decay1 state.steps
  lag2_pos : 0 < 1 - Scalar.power state.rates.decay2 state.steps
  square_nonneg : ∀ p ∈ state.moments, ∀ j, 0 ≤ p.square.entry j
  divisor_nonneg : ∀ p ∈ state.moments, ∀ j,
    0 ≤ divisor state.rates state.steps (p.square.entry j)
  divisor_eq_zero_iff : ∀ p ∈ state.moments, ∀ j,
    divisor state.rates state.steps (p.square.entry j) = 0 ↔
      state.rates.epsilon = 0 ∧ p.square.entry j = 0

end Adam

section Ordered

variable {K : Type} [Field K] [LinearOrder K] [IsStrictOrderedRing K]

/-- A sum of numbers that are not negative is not negative, discounted or not. -/
theorem discounted_nonneg {b : K} (hb : 0 ≤ b) {xs : List K} (hx : ∀ x ∈ xs, 0 ≤ x) :
    0 ≤ discounted b xs := by
  refine sum_nonneg fun l hl => mul_nonneg (pow_nonneg hb _) ?_
  have hl := mem_range.1 hl
  have hget : xs.getD l 0 = xs[l] := by simp [hl]
  rw [hget]
  exact hx _ (List.getElem_mem hl)

variable [Elementary K]

theorem lag_pos {b : K} (hb : 0 ≤ b) (hb' : b < 1) {t : Nat} (ht : 1 ≤ t) :
    0 < 1 - Scalar.power b t := by
  rw [Scalar.power_eq, sub_pos]
  exact pow_lt_one₀ hb hb' (Nat.one_le_iff_ne_zero.1 ht)

/-- Roots of numbers that are not negative are what they should be. -/
def SquareRoots (K : Type) [Field K] [LinearOrder K] [Elementary K] : Prop :=
  ∀ x : K, 0 ≤ x → 0 ≤ Scalar.sqrt x ∧ Scalar.sqrt x * Scalar.sqrt x = x

namespace Adam

variable {state : Adam K}

/-- The averaged squares decide. -/
theorem divisible_of_nonneg (hsqrt : SquareRoots K) (hcheck : state.rates.check = .ok ())
    (ht : 1 ≤ state.steps) (hsquare : ∀ p ∈ state.moments, ∀ j, 0 ≤ p.square.entry j) :
    state.Divisible := by
  obtain ⟨-, ⟨h1, h1'⟩, ⟨h2, h2'⟩, he, -⟩ := AdamRates.check_eq_ok_iff.1 hcheck
  have hlag := lag_pos h2 h2' ht
  have hroot : ∀ v : K, 0 ≤ v →
      0 ≤ Scalar.sqrt (v / (1 - Scalar.power state.rates.decay2 state.steps)) ∧
        (Scalar.sqrt (v / (1 - Scalar.power state.rates.decay2 state.steps)) = 0 ↔ v = 0) := by
    intro v hv
    obtain ⟨hr, hrr⟩ := hsqrt _ (div_nonneg hv hlag.le)
    refine ⟨hr, ?_⟩
    rw [← mul_self_eq_zero, hrr, div_eq_zero_iff, or_iff_left hlag.ne']
  refine ⟨lag_pos h1 h1' ht, hlag, hsquare, fun p hp j => ?_, fun p hp j => ?_⟩
  · exact add_nonneg (hroot _ (hsquare p hp j)).1 he
  · obtain ⟨hr, hzero⟩ := hroot _ (hsquare p hp j)
    rw [divisor, add_eq_zero_iff_of_nonneg hr he, hzero, and_comm]

end Adam

namespace Optimizer

variable {state : Adam K}

omit [IsStrictOrderedRing K] in
theorem Trained.steps_eq {settings : Settings K} {params : List NodeId}
    {past : List (Optimizer K × Store K)} (hT : (adam state).Trained settings params past)
    (hp : params ≠ []) : state.steps = past.length := by
  obtain ⟨n, hn⟩ : ∃ n, params[0]? = some n :=
    ⟨_, List.getElem?_eq_getElem (List.length_pos_iff.2 hp)⟩
  exact (hT.follows 0 n hn).1

/-- Averages of squares are not negative. -/
theorem Trained.square_nonneg {settings : Settings K} {params : List NodeId}
    {past : List (Optimizer K × Store K)}
    (hT : (adam state).Trained settings params past) (hb : 0 ≤ state.rates.decay2)
    (hb' : state.rates.decay2 ≤ 1) : ∀ p ∈ state.moments, ∀ j, 0 ≤ p.square.entry j := by
  intro p hp j
  obtain ⟨i, hi⟩ := List.mem_iff_getElem?.1 hp
  have hparam : params[i]? = some p.parameter := by
    rw [← hT.parameters_eq, parameters, List.getElem?_map, hi]
    rfl
  obtain ⟨-, mean, square, hkept, -, hsquare⟩ := hT.follows i _ hparam
  rw [kept, hi, Option.elim_some] at hkept
  obtain ⟨-, rfl⟩ : p.mean = mean ∧ p.square = square := by simpa using hkept
  rw [hsquare]
  refine mul_nonneg (sub_nonneg.2 hb') (discounted_nonneg hb fun x hx => ?_)
  obtain ⟨g, -, rfl⟩ := List.mem_map.1 hx
  exact sq_nonneg _

end Optimizer

namespace Engine

variable [Sampler K] {e : Engine K} {rates : AdamRates K}
  {handles : Option (List (Option Handle))} {length : Nat} {h : Handle} {params : List NodeId}
  {calls : List (Call K)}

/-- The averaged squares are never negative, and with accepted settings nothing that a step of Adam
divides by is negative either. -/
theorem Reachable.divisible (hsqrt : SquareRoots K) (he : e.Reachable)
    (hcheck : rates.check = .ok ())
    (hmade : (e.answer (.create ((Settings.adam rates).creation handles length) true)).1.handle =
      some h)
    (hp : e.readParameters handles length = .ok params)
    (hc : ∀ c ∈ calls, c.Representable) (hr : ∀ c ∈ calls, ∀ kind, c ≠ .release kind (some h)) :
    let start := (e.answer (.create ((Settings.adam rates).creation handles length) true)).2.1
    let now := start.after calls
    let next := now.answer (.command (.step (some h)))
    ∃ state, now.object? h = some (.optimizer (.adam state)) ∧
      state.rates = rates ∧ state.steps = (stepsTaken h calls start).length ∧
      (∀ p ∈ state.moments, ∀ j, 0 ≤ p.square.entry j) ∧
      (next.1 = .success → ∃ state', next.2.1.object? h = some (.optimizer (.adam state')) ∧
        state'.rates = rates ∧ state'.steps = state.steps + 1 ∧ state'.Divisible ∧
        (params.Nodup → ∀ (i : Nat) n, params[i]? = some n → now.store.gradient n ≠ none →
          ∃ p, state'.moments[i]? = some p ∧
            ∀ j, (next.2.1.store.value n).entry j = (now.store.value n).entry j -
              rates.rate * (p.mean.entry j / (1 - Scalar.power rates.decay1 state'.steps)) /
                Adam.divisor rates state'.steps (p.square.entry j))) := by
  intro start now next
  obtain ⟨hne, hnow, -, opt, ho, hT⟩ := he.trained hmade hp hc hr
  have hf : opt.Fits now.store := hnow.objects h _ ho
  cases opt with
  | sgd state => cases hT.settings_eq
  | adam state =>
    obtain ⟨rfl⟩ : state.rates = rates := Settings.adam.inj hT.settings_eq
    obtain ⟨-, -, ⟨h2, h2'⟩, -⟩ := AdamRates.check_eq_ok_iff.1 hcheck
    refine ⟨state, ho, rfl, hT.steps_eq hne, hT.square_nonneg h2 h2'.le, fun hs => ?_⟩
    have hok : ((Optimizer.adam state).step now.store).1 = .ok () := (answer_step ho).1.1 hs
    have hT' := hT.step hnow.graph hf hok
    obtain ⟨hrates, hsteps⟩ := Adam.step_counted hok
    refine ⟨(state.step now.store).2.1, object?_answer_step ho, hrates, hsteps, ?_,
      fun hd i n hi hg => ?_⟩
    · refine Adam.divisible_of_nonneg hsqrt (hrates ▸ hcheck) (hsteps ▸ Nat.succ_pos _) ?_
      exact Optimizer.Trained.square_nonneg hT' (hrates ▸ h2) (hrates ▸ h2'.le)
    · rw [hsteps, store_answer_step ho]
      exact Adam.step_divisor hnow.graph hf hok (hT.parameters_eq ▸ hd) (hT.parameters_eq ▸ hi) hg

end Engine

end Ordered

namespace Engine

/-- Adam over the real numbers, with nothing added to the root. -/
theorem divisible_real :
    let _ : Elementary ℝ := ⟨Real.exp, Real.sqrt, fun _ => ""⟩
    let _ : Sampler ℝ := ⟨fun s => (0, s), fun _ s => .ok (0, s)⟩
    let rates : AdamRates ℝ := ⟨1 / 10, 9 / 10, 1 / 2, 0, 0⟩
    let e : Engine ℝ := (ofSeed 7).after
      [.create (.fromData (some [1]) 1 (some [1]) 1) true, .command (.setTracked (some 0) true)]
    let start := (e.answer (.create ((Settings.adam rates).creation (some [some 0]) 1) true)).2.1
    let now := start.after [.command (.backward (some 0))]
    let next := now.answer (.command (.step (some 1)))
    rates.check = .ok () ∧ next.1 = .success ∧
      ∃ state, next.2.1.object? 1 = some (.optimizer (.adam state)) ∧ state.Divisible := by
  intro _ _ rates e
  have hsqrt : SquareRoots ℝ := fun x hx => ⟨Real.sqrt_nonneg x, Real.mul_self_sqrt hx⟩
  have he : e.Reachable := (Reachable.start 7).after (by decide)
  have hparams : e.readParameters (some [some 0]) 1 = .ok [0] := rfl
  have hcheck : rates.check = .ok () := by
    rw [AdamRates.check_eq_ok_iff]
    norm_num [rates]
  have hnew : ∃ opt, Optimizer.new e.store [0] (.adam rates) = .ok opt := by
    have hparameters : checkParameters [0] rates.rate = .ok () :=
      if_pos (decide_eq_true (AdamRates.check_eq_ok_iff.1 hcheck).1)
    rw [Optimizer.new, Adam.new, hparameters]
    exact ⟨_, rfl⟩
  obtain ⟨opt, hnew⟩ := hnew
  have hmade :
      (e.answer (.create ((Settings.adam rates).creation (some [some 0]) 1) true)).1.handle =
        some 1 := handle_created hparams hnew
  have hcalls : ∀ c ∈ [(.command (.backward (some 0)) : Call ℝ)], c.Representable :=
    List.forall_mem_singleton.2 trivial
  have hkept : ∀ c ∈ [(.command (.backward (some 0)) : Call ℝ)], ∀ kind,
      c ≠ .release kind (some 1) := by simp
  obtain ⟨state, ho, -, hsteps, -, hnext⟩ := he.divisible hsqrt hcheck hmade hparams hcalls hkept
  have hcreation := (Settings.adam rates).representable_creation (some [some 0]) 1
  have hS := ((he.call hcreation).after hcalls).sound
  have hcount : state.steps = 0 := by
    have hother : (.command (.backward (some 0)) : Call ℝ) ≠ .command (.step (some 1)) := by simp
    rw [hsteps, stepsTaken, stepTaken_eq_none hother]
    rfl
  have hf : (Optimizer.adam state).Fits _ := hS.objects 1 _ ho
  have hcan : (Optimizer.adam state).CanStep := hcount.trans_lt (by decide : 0 < Adam.lastStep)
  have hok := (answer_step ho).1.2 ((Optimizer.step_eq_ok_iff hS.graph hf).2 hcan)
  obtain ⟨state', ho', -, -, hdivisible, -⟩ := hnext hok
  exact ⟨hcheck, hok, state', ho', hdivisible⟩

/-- With accepted settings that add nothing to the root: where the gradient and the share of the
value cancel out, Adam divides by zero, in exact arithmetic too. In doubles the parameter is no
number any more. -/
theorem divisor_eq_zero_of_cancelled :
    (let _ : Elementary ℚ := ⟨id, Rat.sqrt, fun _ => ""⟩
      let _ : Sampler ℚ := ⟨fun s => (0, s), fun _ s => .ok (0, s)⟩
      let rates : AdamRates ℚ := ⟨1 / 10, 9 / 10, 999 / 1000, 0, 1⟩
      let e : Engine ℚ := (ofSeed 7).after
        [.create (.fromData (some [-1]) 1 (some [1]) 1) true, .command (.setTracked (some 0) true),
          .create (.adam (some [some 0]) 1 rates) true, .command (.backward (some 0))]
      let next := e.answer (.command (.step (some 1)))
      rates.check = .ok () ∧ next.1 = .success ∧
        (next.2.1.optimizer (some 1)).toOption.map (fun found => (found.2.kept 0).map (·.entry 0)) =
          some [0, 0] ∧
        Adam.divisor rates 1 0 = 0) ∧
    let rates : AdamRates Float := ⟨0.1, 0.9, 0.999, 0, 1⟩
    let e : Engine Float := (ofSeed 7).after
      [.create (.fromData (some [-1]) 1 (some [1]) 1) true, .command (.setTracked (some 0) true),
        .create (.adam (some [some 0]) 1 rates) true, .command (.backward (some 0))]
    let next := e.answer (.command (.step (some 1)))
    rates.check = .ok () ∧
      ((e.store.grad 0).map fun g => g.data.toList.map (· == 1)) = some [true] ∧
      (Adam.divisor rates 1 0 == 0) = true ∧
      (next.2.1.store.value 0).data.toList.map Float.isNaN = [true] := by
  decide +kernel

end Engine

end DiffTensor
