import DiffTensor.Proofs.Parts
import DiffTensor.Proofs.Training

/-!
# Optimizers taken apart

An optimizer over several parameters does what several optimizers over one parameter each do
(`Optimizer.singles`), if no parameter is the gradient of another one: a step of it does what a
step of each of them does on the graph before (`Optimizer.step_apart`). Nor does it matter that
others have had their step before (`Stepped.append`).
-/

namespace DiffTensor

variable {α : Type}

/-- No parameter is the gradient of another one. -/
def Store.Apart (s : Store α) (params : List NodeId) : Prop :=
  ∀ p ∈ params, ∀ q ∈ params, p ≠ q → s.gradient p ≠ some q

/-- Between the two graphs each of the optimizers has taken a step, as it would on the first one,
and nothing else has happened. -/
structure Stepped [Scalar α] (parts : List (Optimizer α)) (s s' : Store α) : Prop where
  size_eq : s'.nodes.size = s.nodes.size
  stepped : ∀ o ∈ parts, ∀ n ∈ o.parameters, s'.node n = (o.step s).2.2.node n
  others : ∀ n, (∀ o ∈ parts, n ∉ o.parameters) → s'.node n = s.node n

/-- This says what the second graph is, however the optimizers are listed. -/
theorem Stepped.unique [Scalar α] {parts parts' : List (Optimizer α)} {s s₁ s₂ : Store α}
    (h₁ : Stepped parts s s₁) (h₂ : Stepped parts' s s₂) (hp : parts.Perm parts') : s₁ = s₂ := by
  refine Store.ext_node (h₁.size_eq.trans h₂.size_eq.symm) fun n => ?_
  by_cases hn : ∃ o ∈ parts, n ∈ o.parameters
  · obtain ⟨o, ho, hn⟩ := hn
    rw [h₁.stepped o ho n hn, h₂.stepped o (hp.mem_iff.1 ho) n hn]
  · have hn : ∀ o ∈ parts, n ∉ o.parameters := fun o ho h => hn ⟨o, ho, h⟩
    rw [h₁.others n hn, h₂.others n fun o ho => hn o (hp.mem_iff.2 ho)]

theorem checkParameters_singleton [Scalar α] {params : List NodeId} {rate : α}
    (h : checkParameters params rate = .ok ()) {n : NodeId} :
    checkParameters [n] rate = .ok () := by
  unfold checkParameters at h ⊢
  split at h
  · cases h
  · exact h

namespace Optimizer

/-- The same optimizer for each parameter alone. -/
def singles : Optimizer α → List (Optimizer α)
  | adam state => state.moments.map fun p => adam { state with moments := [p] }
  | sgd state => state.velocities.map fun p => sgd { state with velocities := [p] }

theorem parameters_singles (opt : Optimizer α) :
    opt.singles.flatMap parameters = opt.parameters := by
  cases opt <;>
    · rw [singles, List.flatMap_map]
      exact List.map_eq_flatMap.symm

theorem exists_of_mem_singles {opt o : Optimizer α} (ho : o ∈ opt.singles) :
    ∃ n, o.parameters = [n] ∧ n ∈ opt.parameters := by
  cases opt <;>
    · obtain ⟨p, hp, rfl⟩ := List.mem_map.1 ho
      exact ⟨p.parameter, rfl, List.mem_map_of_mem hp⟩

theorem singles_of_parameters {opt : Optimizer α} {n : NodeId} (hn : opt.parameters = [n]) :
    opt.singles = [opt] := by
  rcases opt with ⟨rates, t, moments⟩ | ⟨rates, velocities⟩
  · obtain ⟨p, rfl, -⟩ := List.map_eq_singleton_iff.1 hn
    rfl
  · obtain ⟨p, rfl, -⟩ := List.map_eq_singleton_iff.1 hn
    rfl

variable [Scalar α] {s s' : Store α} {opt : Optimizer α} {n : NodeId}

/-- An optimizer that goes by a method: over one parameter each it does what it does over all. -/
theorem step_apart_of_method {P : Type} {m : Method α P} (wrap wrap' : List P → Optimizer α)
    (hwrap : ∀ p, (wrap [p]).parameters = [m.parameter p])
    (hstep : ∀ parts, (wrap parts).step s = ((m.runAll parts s).1, wrap' (m.runAll parts s).2.1,
      (m.runAll parts s).2.2))
    {parts : List P} (hok : (m.runAll parts s).1 = .ok ()) (hd : (parts.map m.parameter).Nodup)
    (he : ∀ p ∈ parts, m.parameter p < s.nodes.size) (ha : s.Apart (parts.map m.parameter)) :
    (m.runAll parts s).2.1.map (fun p => wrap' [p]) =
        (parts.map fun p => wrap [p]).map (fun o => (o.step s).2.1) ∧
      Stepped (parts.map fun p => wrap [p]) s (m.runAll parts s).2.2 := by
  obtain ⟨hkept, hnode⟩ := Method.runAll_apart hok hd he
    fun p hp q hq => ha _ (List.mem_map_of_mem hp) _ (List.mem_map_of_mem hq)
  refine ⟨?_, Method.size_runAll hok, fun o ho n hn => ?_, fun n hn => ?_⟩
  · rw [hkept, List.map_map, List.map_map]
    refine List.map_congr_left fun p _ => ?_
    simp only [Function.comp_apply, hstep, Method.runAll_singleton]
  · obtain ⟨p, hp, rfl⟩ := List.mem_map.1 ho
    rw [hwrap, List.mem_singleton] at hn
    rw [hn, hnode p hp, hstep, Method.runAll_singleton]
  · refine Method.node_runAll hok fun p hp e => hn _ (List.mem_map_of_mem hp) ?_
    rw [hwrap, e]
    exact List.mem_singleton_self _

/-- A step over several parameters does for each of them what a step over it alone does. -/
theorem step_apart (h : s.Healthy) (hf : opt.Fits s) (hd : opt.parameters.Nodup)
    (ha : s.Apart opt.parameters) :
    (opt.step s).2.1.singles = opt.singles.map (fun o => (o.step s).2.1) ∧
      Stepped opt.singles s (opt.step s).2.2 := by
  have hok := step_eq_ok_iff h hf
  rcases opt with ⟨rates, t, moments⟩ | ⟨rates, velocities⟩
  · by_cases ht : t < Adam.lastStep
    · have hok := hok.2 ht
      rw [step_adam rates ht] at hok ⊢
      exact step_apart_of_method (fun moments => adam ⟨rates, t, moments⟩)
        (fun moments => adam ⟨rates, t + 1, moments⟩) (fun _ => rfl) (step_adam rates ht s) hok hd
        (fun p hp => (hf p hp).existing) ha
    · have hstep := step_adam_of_le rates ht s
      rw [hstep]
      refine ⟨?_, rfl, fun o ho n _ => ?_, fun _ _ => rfl⟩
      · rw [singles, List.map_map]
        exact List.map_congr_left fun p _ => (congrArg (fun r => r.2.1) (hstep [p])).symm
      · obtain ⟨p, -, rfl⟩ := List.mem_map.1 ho
        exact (congrArg (fun r => r.2.2.node n) (hstep [p])).symm
  · have hok := hok.2 trivial
    rw [step_sgd] at hok ⊢
    exact step_apart_of_method (fun velocities => sgd ⟨rates, velocities⟩)
      (fun velocities => sgd ⟨rates, velocities⟩) (fun _ => rfl) (step_sgd rates s) hok hd
      (fun p hp => (hf p hp).existing) ha

/-- A step over one parameter depends on nothing but the parameter's node and its gradient. -/
theorem step_congr {o : Optimizer α} (ho : o.parameters = [n]) (hn : n < s.nodes.size)
    (hn' : n < s'.nodes.size) (hnode : s'.node n = s.node n) (hgrad : s'.grad n = s.grad n) :
    (o.step s').2.1 = (o.step s).2.1 ∧ (o.step s').2.2.node n = (o.step s).2.2.node n := by
  rcases o with ⟨rates, t, moments⟩ | ⟨rates, velocities⟩
  · obtain ⟨p, rfl, rfl⟩ := List.map_eq_singleton_iff.1 ho
    by_cases ht : t < Adam.lastStep
    · have h := (Adam.method rates (t + 1)).part_congr hn hn' hnode hgrad
      rw [step_adam rates ht, step_adam rates ht, Method.runAll_singleton, Method.runAll_singleton]
      exact ⟨by rw [h.1], h.2⟩
    · rw [step_adam_of_le rates ht, step_adam_of_le rates ht]
      exact ⟨rfl, hnode⟩
  · obtain ⟨p, rfl, rfl⟩ := List.map_eq_singleton_iff.1 ho
    have h := (Sgd.method rates).part_congr hn hn' hnode hgrad
    rw [step_sgd, step_sgd, Method.runAll_singleton, Method.runAll_singleton]
    exact ⟨by rw [h.1], h.2⟩

variable {params : List NodeId} {settings : Settings α}

/-- A new optimizer is made of new ones over one parameter each. -/
theorem singles_new (ho : new s params settings = .ok opt) :
    opt.singles.map Except.ok = params.map fun n => new s [n] settings := by
  cases settings with
  | adam rates =>
    obtain ⟨state, hs, ho⟩ := Outcome.bind_eq_ok_iff.1 ho
    cases ho
    obtain ⟨⟨⟩, hcheck, hs⟩ := Outcome.bind_eq_ok_iff.1 hs
    obtain ⟨moments, hm, hs⟩ := Outcome.bind_eq_ok_iff.1 hs
    cases hs
    rw [singles, List.map_map]
    refine map_of_mapM (fun n p hp => ?_) hm
    rw [Function.comp_apply, new, Adam.new, checkParameters_singleton hcheck, Outcome.ok_bind,
      List.mapM_cons, hp]
    rfl
  | sgd rates =>
    obtain ⟨state, hs, ho⟩ := Outcome.bind_eq_ok_iff.1 ho
    cases ho
    obtain ⟨⟨⟩, hcheck, hs⟩ := Outcome.bind_eq_ok_iff.1 hs
    cases hs
    rw [singles, List.map_map, List.map_map]
    refine List.map_congr_left fun n _ => ?_
    rw [Function.comp_apply, Function.comp_apply, new, Sgd.new, checkParameters_singleton hcheck]
    rfl

/-- Of the parameters a new optimizer only reads the shapes. -/
theorem new_congr (h : ∀ n ∈ params, s'.shape n = s.shape n) :
    new s' params settings = new s params settings := by
  cases settings with
  | adam rates =>
    have hzero : ∀ s : Store α, Adam.new s params rates = (do
        checkParameters params rates.rate
        let moments ← (params.map fun n => (n, s.shape n)).mapM fun (n, shape) => do
          let zero ← Buffer.zeros shape
          return { parameter := n, mean := zero, square := zero }
        return { rates, steps := 0, moments }) := fun s => by
      rw [List.mapM_map]
      rfl
    rw [new, new, hzero, hzero, List.map_congr_left fun n hn => by rw [h n hn]]
  | sgd rates => rfl

end Optimizer

/-- Other optimizers that have their step first make no difference, if no parameter is the gradient
of another one. -/
theorem Stepped.append [Scalar α] {first rest : List (Optimizer α)} {s s₁ s₂ : Store α}
    (h₁ : Stepped first s s₁) (h₂ : Stepped rest s₁ s₂)
    (hone : ∀ o ∈ rest, ∃ n, o.parameters = [n])
    (hd : ((first ++ rest).flatMap Optimizer.parameters).Nodup)
    (he : ∀ n ∈ (first ++ rest).flatMap Optimizer.parameters, n < s.nodes.size)
    (ha : s.Apart ((first ++ rest).flatMap Optimizer.parameters)) :
    Stepped (first ++ rest) s s₂ ∧ ∀ o ∈ rest, (o.step s₁).2.1 = (o.step s).2.1 := by
  have hmem : ∀ {o n}, o ∈ first ++ rest → n ∈ o.parameters →
      n ∈ (first ++ rest).flatMap Optimizer.parameters :=
    fun ho hn => List.mem_flatMap.2 ⟨_, ho, hn⟩
  rw [List.flatMap_append] at hd
  have hdisjoint : ∀ o ∈ first, ∀ o' ∈ rest, ∀ n ∈ o.parameters, n ∉ o'.parameters :=
    fun o ho o' ho' n hn hn' => (List.nodup_append.1 hd).2.2 n (List.mem_flatMap.2 ⟨o, ho, hn⟩) n
      (List.mem_flatMap.2 ⟨o', ho', hn'⟩) rfl
  -- What a parameter of the others finds is not touched by the first ones.
  have hsame : ∀ o ∈ rest, ∀ n, o.parameters = [n] →
      (o.step s₁).2.1 = (o.step s).2.1 ∧ (o.step s₁).2.2.node n = (o.step s).2.2.node n := by
    intro o ho n hn
    have hin : n ∈ o.parameters := hn ▸ List.mem_singleton_self n
    have hall := hmem (List.mem_append_right first ho) hin
    have hnode : s₁.node n = s.node n :=
      h₁.others n fun o' ho' hn' => hdisjoint o' ho' o ho n hn' hin
    have hgradient : s₁.gradient n = s.gradient n := congrArg Node.gradient hnode
    have hgrad : s₁.grad n = s.grad n := by
      rw [Store.grad, hgradient, Store.grad]
      refine Option.map_congr fun g hg => congrArg Node.value (h₁.others g fun o' ho' hg' => ?_)
      have hne : n ≠ g := by
        rintro rfl
        exact hdisjoint o' ho' o ho n hg' hin
      exact ha n hall g (hmem (List.mem_append_left rest ho') hg') hne hg
    exact Optimizer.step_congr hn (he n hall) (h₁.size_eq ▸ he n hall) hnode hgrad
  refine ⟨⟨h₂.size_eq.trans h₁.size_eq, fun o ho n hn => ?_, fun n hn => ?_⟩, fun o ho => ?_⟩
  · rcases List.mem_append.1 ho with ho | ho
    · rw [h₂.others n fun o' ho' => hdisjoint o ho o' ho' n hn, h₁.stepped o ho n hn]
    · obtain ⟨k, hk⟩ := hone o ho
      obtain rfl : n = k := List.mem_singleton.1 (hk ▸ hn)
      rw [h₂.stepped o ho n hn, (hsame o ho n hk).2]
  · rw [h₂.others n fun o ho => hn o (List.mem_append_right first ho),
      h₁.others n fun o ho => hn o (List.mem_append_left rest ho)]
  · obtain ⟨k, hk⟩ := hone o ho
    exact (hsame o ho k hk).1

end DiffTensor
