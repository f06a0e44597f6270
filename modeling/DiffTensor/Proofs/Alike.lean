import DiffTensor.Proofs.Training

/-!
# Libraries that differ in some optimizers

Two libraries may differ only in what a few optimizers keep (`Engine.Alike`). No call notices but a
step of one of these optimizers, so all other calls keep the two alike (`Engine.Alike.answer`).
-/

namespace DiffTensor

variable {α : Type}

namespace Engine

/-- The two libraries differ at most in their graphs and in what the optimizers behind these handles
keep. -/
structure AlikeBut (H : List Handle) (e e' : Engine α) : Prop where
  stream_eq : e'.stream = e.stream
  size_eq : e'.objects.size = e.objects.size
  object_eq : ∀ k, k ∉ H → e'.object? k = e.object? k
  optimizers : ∀ k ∈ H, ∃ o o', e.object? k = some (.optimizer o) ∧
    e'.object? k = some (.optimizer o') ∧ o'.parameters = o.parameters

/-- Their graphs are the same as well. -/
structure Alike (H : List Handle) (e e' : Engine α) : Prop extends AlikeBut H e e' where
  store_eq : e'.store = e.store

variable {H : List Handle} {e e' e'' : Engine α}

namespace AlikeBut

theorem trans (h : AlikeBut H e e') (h' : AlikeBut H e' e'') : AlikeBut H e e'' := by
  refine ⟨h'.stream_eq.trans h.stream_eq, h'.size_eq.trans h.size_eq,
    fun k hk => (h'.object_eq k hk).trans (h.object_eq k hk), fun k hk => ?_⟩
  obtain ⟨o, o', ho, ho', hp⟩ := h.optimizers k hk
  obtain ⟨o₁, o₂, ho₁, ho₂, hp'⟩ := h'.optimizers k hk
  rw [ho'] at ho₁
  cases ho₁
  exact ⟨o, o₂, ho, ho₂, hp'.trans hp⟩

theorem symm (h : AlikeBut H e e') : AlikeBut H e' e := by
  refine ⟨h.stream_eq.symm, h.size_eq.symm, fun k hk => (h.object_eq k hk).symm, fun k hk => ?_⟩
  obtain ⟨o, o', ho, ho', hp⟩ := h.optimizers k hk
  exact ⟨o', o, ho', ho, hp.symm⟩

theorem tensor_eq (h : AlikeBut H e e') : e'.tensor = e.tensor := by
  funext handle
  cases handle with
  | none => rfl
  | some k =>
    by_cases hk : k ∈ H
    · obtain ⟨o, o', ho, ho', -⟩ := h.optimizers k hk
      simp only [tensor, ho, ho']
    · simp only [tensor, h.object_eq k hk]

theorem layer_eq (h : AlikeBut H e e') : e'.layer = e.layer := by
  funext handle
  cases handle with
  | none => rfl
  | some k =>
    by_cases hk : k ∈ H
    · obtain ⟨o, o', ho, ho', -⟩ := h.optimizers k hk
      simp only [layer, ho, ho']
    · simp only [layer, h.object_eq k hk]

theorem readParameters_eq (h : AlikeBut H e e') : e'.readParameters = e.readParameters := by
  funext handles length
  unfold readParameters
  rw [h.tensor_eq]

theorem setOptimizer (h : AlikeBut H e e') {k : Handle} (hk : k ∉ H) (opt : Optimizer α) :
    AlikeBut H (e.setOptimizer k opt) (e'.setOptimizer k opt) := by
  have hne : ∀ j ∈ H, j ≠ k := by
    rintro j hj rfl
    exact hk hj
  refine ⟨h.stream_eq, ?_, fun j hj => ?_, fun j hj => ?_⟩
  · rw [Engine.setOptimizer, Engine.setOptimizer, Array.size_setIfInBounds,
      Array.size_setIfInBounds, h.size_eq]
  · rw [Engine.setOptimizer, Engine.setOptimizer, object?_setIfInBounds, object?_setIfInBounds,
      h.size_eq, h.object_eq j hj]
  · rw [object?_setOptimizer_of_ne _ _ (hne j hj), object?_setOptimizer_of_ne _ _ (hne j hj)]
    exact h.optimizers j hj

/-- The last error does not count. -/
theorem of_hushed {e₁ : Engine α} (h : AlikeBut H e e') (he : e₁.hushed = e'.hushed) :
    AlikeBut H e e₁ := by
  have hh : AlikeBut H e e'.hushed := ⟨h.stream_eq, h.size_eq, h.object_eq, h.optimizers⟩
  rw [← he] at hh
  exact ⟨hh.stream_eq, hh.size_eq, hh.object_eq, hh.optimizers⟩

/-- Both go on alike from one graph. -/
theorem withStore (h : AlikeBut H e e') (s : Store α) :
    Alike H { e with store := s } { e' with store := s } :=
  ⟨⟨h.stream_eq, h.size_eq, h.object_eq, h.optimizers⟩, rfl⟩

theorem setStore (h : AlikeBut H e e') (s : Store α) : AlikeBut H e { e' with store := s } :=
  ⟨h.stream_eq, h.size_eq, h.object_eq, h.optimizers⟩

end AlikeBut

/-- One of the optimizers keeps something else. -/
theorem alike_setOptimizer (hopt : ∀ k ∈ H, ∃ o, e.object? k = some (.optimizer o)) {h : Handle}
    (hh : h ∈ H) {opt opt' : Optimizer α} (ho : e.object? h = some (.optimizer opt))
    (hp : opt'.parameters = opt.parameters) : Alike H e (e.setOptimizer h opt') := by
  refine ⟨⟨rfl, Array.size_setIfInBounds, fun k hk => ?_, fun k hk => ?_⟩, rfl⟩
  · exact object?_setOptimizer_of_ne _ _ fun hkh => hk (hkh ▸ hh)
  · by_cases hkh : k = h
    · subst hkh
      exact ⟨opt, _, ho, object?_setOptimizer (lt_size_of_object? ho) _, hp⟩
    · obtain ⟨o, ho⟩ := hopt k hk
      exact ⟨o, o, ho, (object?_setOptimizer_of_ne _ _ hkh).trans ho, rfl⟩

/-! ## Calls that spare the optimizers -/

namespace Alike

theorem of_hushed {e₁ e₁' : Engine α} (h : Alike H e e') (he : e₁.hushed = e.hushed)
    (he' : e₁'.hushed = e'.hushed) : Alike H e₁ e₁' := by
  refine ⟨((h.toAlikeBut.of_hushed he').symm.of_hushed he).symm, ?_⟩
  rw [store_of_hushed he, store_of_hushed he', h.store_eq]

/-- A new object has the same handle in both. -/
theorem handOut (h : Alike H e e') (o : Object α) : Alike H (e.handOut o).2 (e'.handOut o).2 := by
  have hnew : ∀ k ∈ H, k ≠ e.objects.size := by
    rintro k hk rfl
    obtain ⟨o, -, ho, -⟩ := h.optimizers _ hk
    exact Nat.lt_irrefl _ (lt_size_of_object? ho)
  refine ⟨⟨h.stream_eq, ?_, fun k hk => ?_, fun k hk => ?_⟩, h.store_eq⟩
  · show (e'.objects.push (some o)).size = (e.objects.push (some o)).size
    rw [Array.size_push, Array.size_push, h.size_eq]
  · rw [object?_handOut, object?_handOut, h.size_eq, h.object_eq k hk]
  · rw [object?_handOut, object?_handOut, h.size_eq, if_neg (hnew k hk), if_neg (hnew k hk)]
    exact h.optimizers k hk

theorem handOutNodes : ∀ (nodes : List NodeId) {e e' : Engine α}, Alike H e e' →
    Alike H (e.handOutNodes nodes).2 (e'.handOutNodes nodes).2
  | [], _, _, h => h
  | n :: rest, _, _, h => handOutNodes rest (h.handOut (.tensor n))

theorem release (h : Alike H e e') {k : Handle} (hk : k ∉ H) :
    Alike H (e.release (some k)) (e'.release (some k)) := by
  have hne : ∀ j ∈ H, ¬(j = k ∧ k < e.objects.size) := by
    rintro j hj ⟨rfl, -⟩
    exact hk hj
  refine ⟨⟨h.stream_eq, ?_, fun j hj => ?_, fun j hj => ?_⟩, h.store_eq⟩
  · rw [Engine.release, Engine.release, Array.size_setIfInBounds, Array.size_setIfInBounds,
      h.size_eq]
  · rw [Engine.release, Engine.release, object?_setIfInBounds, object?_setIfInBounds, h.size_eq,
      h.object_eq j hj]
  · rw [Engine.release, Engine.release, object?_setIfInBounds, object?_setIfInBounds, h.size_eq,
      if_neg (hne j hj), if_neg (hne j hj)]
    exact h.optimizers j hj

variable [Scalar α]

omit [Scalar α] in
theorem optimizer_eq (h : Alike H e e') {k : Handle} (hk : k ∉ H) :
    e'.optimizer (some k) = e.optimizer (some k) := by
  simp only [optimizer, h.object_eq k hk]

omit [Scalar α] in
/-- What one of them is refused for, the other one is refused for too. -/
theorem refuses (h : Alike H e e') {c : Command Handle} {cause : Failure}
    (hr : e.Refuses c cause) : e'.Refuses c cause := by
  have hopt : ∀ {handle : Option Handle}, e.optimizer handle = .error cause →
      e'.optimizer handle = .error cause := by
    intro handle ho
    cases handle with
    | none => exact ho
    | some k =>
      by_cases hk : k ∈ H
      · obtain ⟨o, -, hobject, -⟩ := h.optimizers k hk
        cases (optimizer_of_object? hobject).symm.trans ho
      · exact (h.optimizer_eq hk).trans ho
  cases hr with
  | setTracked hs => exact .setTracked (by rwa [h.tensor_eq, h.store_eq])
  | backward ht => exact .backward (by rwa [h.tensor_eq])
  | step ho => exact .step (hopt ho)
  | clearGradients ho => exact .clearGradients (hopt ho)

/-- A command that is not a step of one of the optimizers. -/
theorem run (h : Alike H e e') {c : Command Handle} (hc : ∀ k ∈ H, c ≠ .step (some k)) :
    Alike H (e.run c).2.1 (e'.run c).2.1 := by
  have hr := e.ran c
  generalize e.run c = out at hr ⊢
  cases hr with
  | refused hr => rwa [(Ran.refused (h.refuses hr)).run_eq]
  | @setTracked _ _ n store hn hs =>
    rw [(Ran.setTracked (h.tensor_eq ▸ hn) (h.store_eq ▸ hs)).run_eq]
    exact h.withStore store
  | @backward _ root _ store ht hb =>
    rw [(Ran.backward (h.tensor_eq ▸ ht) (h.store_eq ▸ hb)).run_eq]
    exact h.withStore store
  | @step _ k _ _ _ store ho hs =>
    cases optimizer_eq_ok ho
    have hk : k ∉ H := fun hk => hc k hk rfl
    rw [(Ran.step ((h.optimizer_eq hk).trans ho) (h.store_eq ▸ hs)).run_eq]
    exact ⟨((h.withStore store).toAlikeBut.setOptimizer hk _), rfl⟩
  | @clearGradients _ k state ho =>
    cases optimizer_eq_ok ho
    by_cases hk : k ∈ H
    · obtain ⟨o, o', hobject, hobject', hp⟩ := h.optimizers k hk
      cases (optimizer_of_object? hobject).symm.trans ho
      rw [(Ran.clearGradients (optimizer_of_object? hobject')).run_eq, h.store_eq,
        Optimizer.clearGradients, Optimizer.clearGradients, hp]
      exact h.withStore _
    · rw [(Ran.clearGradients ((h.optimizer_eq hk).trans ho)).run_eq, h.store_eq]
      exact h.withStore _

variable [Sampler α]

theorem build_eq (h : Alike H e e') (c : Creation α Handle) : e'.build c = e.build c := by
  cases c <;> simp only [build, h.tensor_eq, h.layer_eq, h.store_eq, h.stream_eq,
    h.readParameters_eq]

omit [Scalar α] [Sampler α] in
theorem made (h : Alike H e e') (new : Object α × Store α × Stream) :
    Alike H (e.made new) (e'.made new) := by
  have hs : Alike H { e with store := new.2.1, stream := new.2.2 }
      { e' with store := new.2.1, stream := new.2.2 } :=
    ⟨⟨rfl, h.size_eq, h.object_eq, h.optimizers⟩, rfl⟩
  exact hs.handOut new.1

/-- Calls that spare the optimizers keep the two libraries alike. -/
theorem answer (h : Alike H e e') {c : Call α} (hc : ∀ k ∈ H, c.Spares k) :
    Alike H (e.answer c).2.1 (e'.answer c).2.1 := by
  cases c with
  | seed value => exact ⟨⟨rfl, h.size_eq, h.object_eq, h.optimizers⟩, h.store_eq⟩
  | lastError buffer => exact h
  | release kind handle =>
    cases handle with
    | none => exact h
    | some k => exact h.release fun hk => (hc k hk).2 kind rfl
  | create body hasStatus =>
    cases hasStatus with
    | false => exact h
    | true =>
      obtain ⟨-, he⟩ := e.answer_create body
      obtain ⟨-, he'⟩ := e'.answer_create body
      rw [h.build_eq] at he'
      refine of_hushed ?_ he he'
      cases e.build body with
      | error cause => exact h
      | ok new => exact h.made new
  | command body =>
    refine of_hushed (h.run fun k hk hb => (hc k hk).1 (congrArg _ hb)) (e.answer_command body).2
      (e'.answer_command body).2
  | query body => exact h.of_hushed (e.answer_query body).2 (e'.answer_query body).2
  | shape tensor hasBuffer => exact h.of_hushed (hushed_settle ..) (hushed_settle ..)
  | copyData tensor hasBuffer length => exact h.of_hushed (hushed_settle ..) (hushed_settle ..)
  | parameters layer hasBuffer length =>
    refine of_hushed ?_ (e.hushed_attempt (e.exportParameters layer hasBuffer length))
      (e'.hushed_attempt (e'.exportParameters layer hasBuffer length))
    unfold exportParameters
    rw [h.layer_eq]
    cases e.layer layer with
    | error cause => exact h
    | ok l =>
      rw [Outcome.ok_bind, Outcome.ok_bind]
      split_ifs
      · exact h
      · exact h
      · exact handOutNodes l.parameters h
  | gradient tensor =>
    refine of_hushed ?_ (e.hushed_attempt (e.exportGradient tensor))
      (e'.hushed_attempt (e'.exportGradient tensor))
    unfold exportGradient
    rw [h.tensor_eq, h.store_eq]
    cases e.tensor tensor with
    | error cause => exact h
    | ok n =>
      rw [Outcome.ok_bind, Outcome.ok_bind]
      cases e.store.gradient n with
      | none => exact h
      | some g => exact h.handOut (.tensor g)

theorem after (h : Alike H e e') {calls : List (Call α)}
    (hc : ∀ c ∈ calls, ∀ k ∈ H, c.Spares k) : Alike H (e.after calls) (e'.after calls) := by
  induction calls generalizing e e' with
  | nil => exact h
  | cons c rest ih =>
    obtain ⟨hc, hrest⟩ := List.forall_mem_cons.1 hc
    exact ih (h.answer hc) hrest

end Alike

end Engine

end DiffTensor
