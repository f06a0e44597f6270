import DiffTensor.Host.Rates
import DiffTensor.Proofs.Alike
import DiffTensor.Proofs.Parts
import DiffTensor.Random.Double
import DiffTensor.Scalar.Double

/-!
# Steps without gradients

Where none of its parameters has a gradient, an optimizer is idle (`Optimizer.Idle`): its step
changes nothing in the graph and nothing that is kept of the parameters. Gradient descent goes on as
if there had been no such step. Adam counts it (`Optimizer.counted`), so all of its later steps are
corrected for one step more than they are without it.
-/

namespace DiffTensor

variable {α : Type}

namespace Optimizer

/-- None of the parameters has a gradient. -/
def Idle (opt : Optimizer α) (s : Store α) : Prop := ∀ n ∈ opt.parameters, s.gradient n = none

/-- The optimizer with one step more on its count, if it keeps a count and can count that far. -/
def counted : Optimizer α → Optimizer α
  | adam state => if state.steps < Adam.lastStep then adam { state with steps := state.steps + 1 }
    else adam state
  | sgd state => sgd state

theorem parameters_counted (opt : Optimizer α) : opt.counted.parameters = opt.parameters := by
  cases opt with
  | adam state =>
    rw [counted]
    split <;> rfl
  | sgd state => rfl

variable [Scalar α]

/-- All that an idle step does is to count. -/
theorem Idle.step {opt : Optimizer α} {s : Store α} (h : opt.Idle s) :
    (opt.step s).2 = (opt.counted, s) := by
  have hgrad : ∀ n ∈ opt.parameters, s.grad n = none := fun n hn => by rw [Store.grad, h n hn]; rfl
  rcases opt with ⟨rates, t, moments⟩ | ⟨rates, velocities⟩
  · by_cases ht : t < Adam.lastStep
    · have hidle : (Adam.method rates (t + 1)).runAll moments s = (.ok (), moments, s) :=
        Method.runAll_idle fun p hp => Adam.stepOne_none (hgrad _ (List.mem_map_of_mem hp))
      rw [step_adam rates ht, hidle, counted, if_pos ht]
    · rw [step_adam_of_le rates ht, counted, if_neg ht]
  · have hidle : (Sgd.method rates).runAll velocities s = (.ok (), velocities, s) :=
      Method.runAll_idle fun p hp => Sgd.stepOne_none (hgrad _ (List.mem_map_of_mem hp))
    rw [step_sgd, hidle]
    rfl

end Optimizer

namespace Engine

variable [Scalar α] [Sampler α] {e e' : Engine α} {h : Handle} {opt : Optimizer α}

/-- What is told of the last error makes no difference to the calls that follow. -/
theorem hushed_after (he : e'.hushed = e.hushed) (calls : List (Call α)) :
    (e'.after calls).hushed = (e.after calls).hushed := by
  induction calls generalizing e e' with
  | nil => exact he
  | cons c rest ih =>
    refine ih ?_
    by_cases hc : ∃ buffer, c = .lastError buffer
    · obtain ⟨buffer, rfl⟩ := hc
      exact he
    · have hc : ∀ buffer, c ≠ .lastError buffer := fun buffer hb => hc ⟨buffer, hb⟩
      rw [← (e'.answer_hushed hc).2, he, (e.answer_hushed hc).2]

/-- The library after an idle step is the one before it, with the step counted. -/
theorem hushed_idle_step (ho : e.object? h = some (.optimizer opt)) (hi : opt.Idle e.store) :
    (e.answer (.command (.step (some h)))).2.1.hushed = (e.setOptimizer h opt.counted).hushed := by
  rw [(answer_step ho).2, hi.step]

/-- An idle step changes nothing in the graph. What comes after it is what it would be without the
step, only that the step has been counted; this shows at the next step of the optimizer at the
earliest, and never if the optimizer keeps no count. -/
theorem idle_step (ho : e.object? h = some (.optimizer opt)) (hi : opt.Idle e.store) :
    let next := (e.answer (.command (.step (some h)))).2.1
    next.store = e.store ∧
    (∀ calls, (next.after calls).hushed = ((e.setOptimizer h opt.counted).after calls).hushed) ∧
    (∀ calls, (∀ c ∈ calls, c.Spares h) → (next.after calls).store = (e.after calls).store) ∧
    ((∃ state, opt = .sgd state) →
      ∀ calls, (next.after calls).hushed = (e.after calls).hushed) := by
  intro next
  have hnext : next.hushed = (e.setOptimizer h opt.counted).hushed := hushed_idle_step ho hi
  have hopt : ∀ k ∈ [h], ∃ o, e.object? k = some (.optimizer o) := by
    intro k hk
    exact ⟨opt, List.mem_singleton.1 hk ▸ ho⟩
  have halike : Alike [h] e next :=
    (alike_setOptimizer hopt (List.mem_singleton_self h) ho opt.parameters_counted).of_hushed rfl
      hnext
  refine ⟨halike.store_eq, hushed_after hnext, fun calls hc => ?_, ?_⟩
  · exact (halike.after fun c hcall k hk => List.mem_singleton.1 hk ▸ hc c hcall).store_eq
  · rintro ⟨state, rfl⟩
    rw [Optimizer.counted, setOptimizer_self ho] at hnext
    exact hushed_after hnext

/-- A step of Adam right after it has been made. -/
theorem idle_step_adam :
    let settings : Settings Float := .adam ⟨0.1, 0.9, 0.999, 1e-8, 0⟩
    let start : Engine Float := (ofSeed 7).after
      [.create (.fromData (some [1]) 1 (some [1]) 1) true, .command (.setTracked (some 0) true)]
    let e := (start.answer (.create (settings.creation (some [some 0]) 1) true)).2.1
    ∃ opt, e.object? 1 = some (.optimizer opt) ∧ opt.Idle e.store ∧
      (e.answer (.command (.step (some 1)))).2.1.store = e.store := by
  intro settings start e
  have hnew : e.HoldsNew 1 settings [0] := holdsNew_created rfl (by decide +kernel)
  obtain ⟨opt, ho, hnew⟩ := hnew
  have hi : opt.Idle e.store := by
    rw [Optimizer.Idle, Optimizer.parameters_new hnew]
    decide +kernel
  exact ⟨opt, ho, hi, (idle_step ho hi).1⟩

/-- After an idle step Adam moves the parameter less far than without it. -/
theorem idle_step_felt :
    let rates : AdamRates Float := ⟨0.1, 0.9, 0.999, 1e-8, 0⟩
    let start : Engine Float := (ofSeed 7).after
      [.create (.fromData (some [1]) 1 (some [1]) 1) true, .command (.setTracked (some 0) true)]
    let e := (start.answer (.create ((Settings.adam rates).creation (some [some 0]) 1) true)).2.1
    let step : Call Float := .command (.step (some 1))
    let calls := [.command (.backward (some 0)), step]
    rates.check = .ok () ∧ (∃ opt, e.object? 1 = some (.optimizer opt) ∧ opt.Idle e.store) ∧
      ((e.answer step).2.1.after calls).store.value 0 ≠ (e.after calls).store.value 0 := by
  intro rates start e step calls
  have hnew : e.HoldsNew 1 (.adam rates) [0] := holdsNew_created rfl (by decide +kernel)
  obtain ⟨opt, ho, hnew⟩ := hnew
  have hi : opt.Idle e.store := by
    rw [Optimizer.Idle, Optimizer.parameters_new hnew]
    decide +kernel
  refine ⟨by decide +kernel, ⟨opt, ho, hi⟩, fun h => ?_⟩
  have hbits := congrArg (fun b => (b.data.map Float.toBits).toList) h
  revert hbits
  decide +kernel

end Engine

end DiffTensor
