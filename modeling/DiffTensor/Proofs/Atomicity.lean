import DiffTensor.Proofs.Refinement

/-!
# What fails changes nothing

A call of the library that fails leaves everything but the last error as it was, and so does a step
of a session (`atomic`). All but commands make what they make and then keep it, or keep nothing. A
command may fail on the way only when a product of strides leaves the word, and this takes a tensor
whose dimensions, zeros aside, multiply to more than memory holds (`Engine.Moderate`).
-/

namespace DiffTensor

variable {α V : Type}

/-! ## The library -/

namespace Engine

variable {e : Engine α}

/-- The tensors that a handle leads to. -/
inductive Existing (e : Engine α) : NodeId → Prop where
  | tensor {handle : Option Handle} {n : NodeId} : e.tensor handle = .ok n → Existing e n
  | layer {handle : Option Handle} {layer : Linear} {n : NodeId} :
    e.layer handle = .ok layer → n ∈ layer.parameters → Existing e n
  | optimizer {handle : Option Handle} {found : Handle × Optimizer α} {n : NodeId} :
    e.optimizer handle = .ok found → n ∈ found.2.parameters → Existing e n
  | input {n m : NodeId} : Existing e n → m ∈ e.store.inputs n → Existing e m
  | gradient {n g : NodeId} : Existing e n → e.store.gradient n = some g → Existing e g

/-- No tensor that exists is so large that strides could leave the word. -/
def Moderate (e : Engine α) : Prop := ∀ n, e.Existing n → Layout.Moderate (e.store.shape n)

theorem moderate_of_shapes
    (h : ∀ n < e.store.nodes.size, Layout.Moderate (e.store.shape n)) : e.Moderate :=
  fun n _ => Store.moderate_shape h n

theorem Moderate.hushed (hm : e.Moderate) : e.hushed.Moderate := by
  intro n hn
  refine hm n ?_
  induction hn with
  | tensor h => exact .tensor h
  | layer h hmem => exact .layer h hmem
  | optimizer h hmem => exact .optimizer h hmem
  | input _ hmem ih => exact ih.input hmem
  | gradient _ hg ih => exact ih.gradient hg

theorem Existing.reaches {root n : NodeId} (h : e.Existing root) (hr : e.store.Reaches root n) :
    e.Existing n := by
  induction hr with
  | refl => exact h
  | tail _ hm ih => exact ih.input (Store.mem_trackedInputs.1 hm).1

/-- Behind a tensor that exists, strides do not leave the word. -/
theorem Moderate.not_unsteady (hm : e.Moderate) {root : NodeId} (h : e.Existing root) :
    ¬e.store.Unsteady root := by
  rintro ⟨n, made, hn, hmade, m, hmem, hbad⟩
  have hn : e.Existing n := h.reaches hn
  rcases List.mem_cons.1 hmem with rfl | hmem
  · exact hbad (hm m hn).steady
  · exact hbad (hm m (hn.input (by rwa [Store.inputs_of_origin hmade]))).steady

variable [Scalar α]

/-- A command that fails has done nothing. -/
theorem Sound.run_failed (hS : e.Sound) (hm : e.Moderate) {c : Command Handle}
    (hf : (e.run c).1 ≠ .ok ()) : (e.run c).2.1 = e := by
  have hr := e.ran c
  generalize e.run c = out at hr hf ⊢
  cases hr with
  | refused _ => rfl
  | setTracked _ _ | clearGradients _ => exact absurd rfl hf
  | @backward _ root result _ ht hb =>
    cases result with
    | ok _ => exact absurd rfl hf
    | error cause =>
      have hroot : e.Existing root := .tensor ht
      have hsame := hS.graph.backward_failed (hm.not_unsteady hroot) (congrArg Prod.fst hb)
      rw [hb] at hsame
      cases hsame
      rfl
  | @step _ _ state _ result _ ho hs =>
    cases result with
    | ok _ => exact absurd rfl hf
    | error cause =>
      cases (Optimizer.step_failed hS.graph (hS.optimizer ho) (congrArg Prod.fst hs)).symm.trans
        (congrArg Prod.snd hs)
      exact setOptimizer_self (object?_of_optimizer ho)

end Engine

/-- The reply says that the call has failed. Some replies cannot tell this from a success that
changes nothing. -/
def Call.Failed : (c : Call α) → c.Reply → Prop
  | .create .., made => made.handle = none
  | .command _, status => status ≠ .success
  | .query _, value => value = 0
  | .shape .., out => out.status ≠ .success
  | .copyData .., out => out.status ≠ .success
  | .parameters .., out => out.status ≠ .success
  | .gradient _, handle => handle = none
  | .seed _, _ | .lastError _, _ | .release .., _ => False

/-- Nothing has been written into a buffer of the caller's, and nothing handed out. -/
def Call.Blank : (c : Call α) → c.Reply → Prop
  | .create .., made => made.handle = none
  | .shape .., out => out.items = []
  | .copyData .., out => out.items = []
  | .parameters .., out => out.items = []
  | .gradient _, handle => handle = none
  | _, _ => True

namespace Engine

theorem items_of_failed {β : Type} {result : Except Status (List β)}
    (h : (written result).status ≠ .success) : (written result).items = [] := by
  cases result with
  | ok items => exact absurd rfl h
  | error status => rfl

variable [Scalar α] [Sampler α] {e : Engine α}

/-- A call that fails has changed nothing but the last error, and has written nothing. -/
theorem Sound.answer_failed (hS : e.Sound) (hm : e.Moderate) {c : Call α}
    (hf : c.Failed (e.answer c).1) :
    (e.answer c).2.1.hushed = e.hushed ∧ c.Blank (e.answer c).1 := by
  cases c with
  | seed value | lastError buffer | release kind handle => exact hf.elim
  | create body hasStatus =>
    refine ⟨?_, hf⟩
    cases hasStatus with
    | false => rfl
    | true =>
      obtain ⟨hr, he⟩ := e.answer_create body
      rw [he]
      cases hb : e.build body with
      | error cause => rfl
      | ok new =>
        rw [hb] at hr
        have hnone : (e.answer (.create body true)).1.handle = none := hf
        rw [hr] at hnone
        cases hnone
  | command body =>
    obtain ⟨hr, he⟩ := e.answer_command body
    have hrun : (e.run body).2.1 = e := by
      refine hS.run_failed hm fun hok => hf ?_
      rw [hr, hok]
      rfl
    exact ⟨he.trans (congrArg Engine.hushed hrun), trivial⟩
  | query body => exact ⟨(e.answer_query body).2, trivial⟩
  | shape tensor hasBuffer => exact ⟨hushed_settle .., items_of_failed hf⟩
  | copyData tensor hasBuffer length => exact ⟨hushed_settle .., items_of_failed hf⟩
  | parameters layer hasBuffer length =>
    refine ⟨?_, items_of_failed hf⟩
    have he := e.hushed_attempt (e.exportParameters layer hasBuffer length)
    cases hx : e.exportParameters layer hasBuffer length with
    | error cause =>
      rw [hx] at he
      show (e.attempt (e.exportParameters layer hasBuffer length)).2.1.hushed = _
      rw [hx]
      exact he
    | ok out =>
      have hs : (written (e.attempt (e.exportParameters layer hasBuffer length)).1).status ≠
          .success := hf
      rw [hx] at hs
      exact absurd rfl hs
  | gradient tensor =>
    refine ⟨?_, hf⟩
    show (e.attempt (e.exportGradient tensor)).2.1.hushed = _
    have hnone : (e.attempt (e.exportGradient tensor)).1.toOption.join = none := hf
    rw [hushed_attempt]
    rw [attempt_fst] at hnone
    cases ht : e.tensor tensor with
    | error cause => simp only [Engine.exportGradient, ht]; rfl
    | ok n =>
      cases hg : e.store.gradient n with
      | none => simp only [Engine.exportGradient, ht, Outcome.ok_bind, hg]; rfl
      | some k =>
        simp only [Engine.exportGradient, ht, Outcome.ok_bind, hg] at hnone
        cases hnone

end Engine

/-! ## Sessions -/

namespace HostSession

variable [Scalar α] [Sampler α] {setting : Setting α V} {showData : Bool} {engine : V → Engine α}
  {calm asked : V → Prop} {w : State α (Engine α)} {g : GraphSession.State α} {s : State α V}
  {step : Step α}

/-- A step that fails leaves what is seen of the session as it was. -/
theorem Stands.answer_failed (hS : Serving setting.libraries engine calm asked)
    (hs : In engine calm w s) (hw : Stands w g) (hm : w.env.world.Moderate) (hstep : step.Ordinary)
    (hf : ¬(setting.answer showData step s).1.Succeeded) :
    (setting.answer showData step s).2.seen engine = s.seen engine := by
  rcases still_or_parallel showData hS hs hw hstep with hq | ⟨w', hp⟩
  · rw [hq.unchanged]
  · obtain ⟨e, hw', he⟩ := hp.broken hf
    have heq : e = w.env.world := by
      rcases he with he | ⟨c, rfl, hc⟩
      · exact he
      · exact hw.sound.run_failed hm hc
    rw [hp.seen.2, hs.2, hw', heq]
    rfl

end HostSession

/-- Nothing is changed by a call that fails, or by a step of a session that fails, where no tensor
that exists is too large for its strides. -/
theorem atomic [Scalar α] [Sampler α] :
    (∀ e : Engine α, e.Reachable → e.Moderate → ∀ c : Call α, c.Failed (e.answer c).1 →
      (e.answer c).2.1.hushed = e.hushed ∧ c.Blank (e.answer c).1) ∧
    ∀ (seed : UInt64) (showData : Bool) (steps : List (HostSession.Step α)),
      (∀ step ∈ steps, step.Ordinary) →
      let setting : HostSession.Setting α (Rehearsal (Engine α)) := .rehearsing .reference
      let s := setting.after showData steps (.new { inner := .ofSeed seed })
      s.env.world.inner.Moderate → ∀ step : HostSession.Step α, step.Ordinary →
        ¬(setting.answer showData step s).1.Succeeded →
        (setting.answer showData step s).2.seen Rehearsal.inner = s.seen Rehearsal.inner := by
  refine ⟨fun e he hm c hf => he.sound.answer_failed hm hf, fun seed showData steps hsteps => ?_⟩
  intro setting s hm step hstep hf
  obtain ⟨w, hs, hw⟩ := HostSession.stands_after showData serving_rehearsing
    (HostSession.stands_start seed).1 (HostSession.stands_start seed).2 hsteps
  refine hw.answer_failed serving_rehearsing hs ?_ hstep hf
  rw [hs.world_eq]
  exact hm.hushed

/-- In a training, with the library and in a session: differentiation from a tensor that is no
scalar is refused, and zeros that no memory holds are not made. -/
theorem atomic_in_training :
    let e : Engine Float := (Engine.ofSeed 7).after Engine.training
    let backward : Call Float := .command (.backward (some 2))
    let zeros : Call Float := .create (.filled .zeros (some [0x2000000000000000]) 1) true
    let steps : List (HostSession.Step Float) := [.ofValues 0 [2] none "w", .setTracked "w" true,
      .filled 0 .ones [3] "x", .binary .mul "w" "x" "y", .unary .sum "y" "loss",
      .adam 0 ["w"] .standard "o", .backward "w", .step "o"]
    let setting : HostSession.Setting Float (Rehearsal (Engine Float)) := .rehearsing .reference
    let start : HostSession.State Float (Rehearsal (Engine Float)) := .new { inner := .ofSeed 7 }
    let s := setting.after true steps start
    let refused := setting.answer true (.backward "y") s
    let crashed := setting.answer true (.filled 0 .zeros [0x2000000000000000] "z") s
    ((e.answer backward).1 = .autograd ∧ (e.answer backward).2.1.hushed = e.hushed) ∧
    ((e.answer zeros).1 = ⟨some .internal, none⟩ ∧ (e.answer zeros).2.1.hushed = e.hushed) ∧
    (∀ out ∈ setting.answers true steps start, out.1.failure? = none) ∧
    (refused.1.failure? = some (.refused (.autograd
        "grad can be implicitly created only for scalar outputs, got shape [3]")) ∧
      refused.2.seen Rehearsal.inner = s.seen Rehearsal.inner) ∧
    crashed.1.failure? =
        some (.refused (.library "zeros" .internal "internal panic: capacity overflow")) ∧
      crashed.2.seen Rehearsal.inner = s.seen Rehearsal.inner := by
  intro e backward zeros steps setting start s refused crashed
  have he : e.Moderate := Engine.moderate_of_shapes (by decide +kernel)
  have hsteps : ∀ step ∈ steps, step.Ordinary := by decide
  have hbackward : (e.answer backward).1 = .autograd := by decide +kernel
  have hzeros : (e.answer zeros).1 = ⟨some .internal, none⟩ := by decide +kernel
  have hrefused : refused.1.failure? = some (.refused (.autograd
      "grad can be implicitly created only for scalar outputs, got shape [3]")) := by
    decide +kernel
  have hcrashed : crashed.1.failure? =
      some (.refused (.library "zeros" .internal "internal panic: capacity overflow")) := by
    decide +kernel
  obtain ⟨hcalls, hsession⟩ := atomic (α := Float)
  have hstep := hsession 7 true steps hsteps (Engine.moderate_of_shapes (by decide +kernel))
  refine ⟨⟨hbackward, ?_⟩, ⟨hzeros, ?_⟩, by decide +kernel, ⟨hrefused, ?_⟩, hcrashed, ?_⟩
  · refine (hcalls e Engine.reachable_training he backward ?_).1
    rw [Call.Failed, hbackward]
    decide
  · refine (hcalls e Engine.reachable_training he zeros ?_).1
    rw [Call.Failed, hzeros]
  · exact hstep (.backward "y") (by decide) (HostSession.Answer.not_succeeded hrefused)
  · exact hstep (.filled 0 .zeros [0x2000000000000000] "z") (by decide)
      (HostSession.Answer.not_succeeded hcrashed)

end DiffTensor
