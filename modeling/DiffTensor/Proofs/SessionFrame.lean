import DiffTensor.Proofs.Refinement

/-!
# What the steps of a session leave alone

A step may do to the graph what its `scope` says: training writes parameters that have a gradient,
differentiation gathers gradients, clearing takes them away, and a tensor is tracked or not as it
is told to be. Everything else that live wrappers tell is as it was (`framed_after`): whatever
graphs, layers and optimizers share the nodes, and whatever goes away.
-/

namespace DiffTensor

/-- A larger scope is kept to as well. -/
theorem Store.Frame.mono {α : Type} {c c' : Scope} {s s' : Store α} (h : Frame c s s')
    (hw : ∀ n, c.written n → c'.written n) (hg : ∀ n, c.gained n → c'.gained n)
    (hl : ∀ n, c.lost n → c'.lost n) (hf : ∀ n, c.flagged n → c'.flagged n) : Frame c' s s' :=
  ⟨h.size_le, h.shape_eq, fun n hn hc => h.value_eq n hn fun hc' => hc (hw n hc'),
    fun n hn => (h.gradient_cases n hn).imp_right
      (.imp (fun hc => ⟨hc.1, hg n hc.2⟩) fun hc => ⟨hc.1, hl n hc.2⟩),
    h.fresh, fun n hn hc => h.tracked_eq n hn fun hc' => hc (hf n hc')⟩

namespace HostSession

open Host (Tensor Layer Owned)

variable {α V : Type}

/-- What a step may do to the graph of the library `e` that is behind the wrappers of `s`. -/
def Step.scope (step : Step α) (e : Engine α) (s : State α V) : Scope where
  written n := match step with
    | .step optimizer => ∃ h state, e.optimizer (s.heldIn .optimizer optimizer) = .ok (h, state) ∧
      n ∈ state.parameters ∧ e.store.gradient n ≠ none
    | .backward a => ∃ root m, e.tensor (s.heldIn .tensor a) = .ok root ∧
      e.store.ReachesLeaf root m ∧ e.store.gradient m = some n
    | _ => False
  gained n := match step with
    | .backward a => ∃ root, e.tensor (s.heldIn .tensor a) = .ok root ∧ e.store.ReachesLeaf root n
    | _ => False
  lost n := match step with
    | .clearGradients optimizer => ∃ h state,
      e.optimizer (s.heldIn .optimizer optimizer) = .ok (h, state) ∧ n ∈ state.parameters
    | _ => False
  flagged n := match step with
    | .setTracked a _ => e.tensor (s.heldIn .tensor a) = .ok n
    | _ => False

/-- Steps that draw from the random stream, or start it afresh. -/
def Step.Draws : Step α → Prop
  | .seed .. | .filled _ .normal .. | .linear .. => True
  | _ => False

/-! ## Steps without wrappers -/

section

variable {w : State α (Engine α)} {g : GraphSession.State α} {kind : ResourceKind} {name : String}

/-- Without wrappers the step keeps to the scope, and draws no samples unless it says so. -/
def Keeps [Scalar α] [Sampler α] (c : Scope) (step : Step α) (g : GraphSession.State α) : Prop :=
  Store.Frame c g.store (Direct.answer step g).2.store ∧
    (¬step.Draws → (Direct.answer step g).2.stream = g.stream)

namespace Keeps

variable [Scalar α] [Sampler α] {c : Scope} {step : Step α} {out a b : String}

theorem of_unchanged {answer : GraphSession.Answer α} {g' : GraphSession.State α}
    (h : Direct.answer step g = (answer, g')) (hs : g'.store = g.store)
    (hg : g'.stream = g.stream) : Keeps c step g := by
  rw [Keeps, h, hs, hg]
  exact ⟨.refl _, fun _ => rfl⟩

/-- A step that makes a node only adds to the graph. -/
theorem of_builds {γ : Type} {outcome : Outcome γ} {f : γ → NodeId × Store α × Stream}
    (h : Direct.Builds step out g (f <$> outcome))
    (hF : ∀ made, outcome = .ok made →
      Store.Frame c g.store (f made).2.1 ∧ (¬step.Draws → (f made).2.2 = g.stream)) :
    Keeps c step g := by
  unfold Direct.Builds at h
  cases outcome with
  | error cause => exact of_unchanged h rfl rfl
  | ok made =>
    obtain ⟨answer, h, -⟩ := h
    rw [Keeps, h]
    exact hF made rfl

theorem of_computation {outcome : Outcome (NodeId × Store α)}
    (h : Direct.Builds step out g ((fun made => (made.1, made.2, g.stream)) <$> outcome))
    (hF : ∀ made, outcome = .ok made → Store.Frame c g.store made.2) : Keeps c step g :=
  of_builds h fun made hmade => ⟨hF made hmade, fun _ => rfl⟩

theorem of_looking (h : Direct.Looks step) : Keeps c step g := by
  obtain ⟨b, hb, -⟩ := Direct.answer_looking (g := g) h
  exact of_unchanged hb rfl rfl

/-- Nothing is to be said of a step that finds a slot empty. -/
theorem of_operand (kind : ResourceKind) {name : String}
    (hk : ∀ kind name, step ≠ .destroy kind name) (hm : ⟨kind, name⟩ ∈ step.operands)
    (h : ∀ i, (g.items kind).find? name = some i → Keeps c step g) : Keeps c step g := by
  cases hi : (g.items kind).find? name with
  | some i => exact h i hi
  | none => exact of_unchanged (Direct.answer_emptySlot hk ⟨_, hm, hi⟩) rfl rfl

end Keeps

theorem mapM_cases {β γ : Type} {f : β → Option γ} : ∀ names : List β,
    (∃ xs, names.mapM f = some xs) ∨ ∃ name ∈ names, f name = none
  | [] => .inl ⟨[], rfl⟩
  | name :: names => by
    cases h : f name with
    | none => exact .inr ⟨name, List.mem_cons_self, h⟩
    | some x =>
      rcases mapM_cases names with ⟨xs, hxs⟩ | ⟨other, hm, hn⟩
      · refine .inl ⟨x :: xs, ?_⟩
        rw [List.mapM_cons, h, hxs]
        rfl
      · exact .inr ⟨other, List.mem_cons_of_mem _ hm, hn⟩

variable [Scalar α] [Sampler α]

theorem Keeps.of_operands {c : Scope} {step : Step α} {names : List String}
    (hk : ∀ kind name, step ≠ .destroy kind name)
    (hm : ∀ name ∈ names, ⟨.tensor, name⟩ ∈ step.operands)
    (h : ∀ nodes, names.mapM g.nodes.find? = some nodes → Keeps c step g) : Keeps c step g := by
  rcases mapM_cases (f := g.nodes.find?) names with ⟨nodes, hp⟩ | ⟨name, hname, hn⟩
  · exact h nodes hp
  · exact of_unchanged (Direct.answer_emptySlot hk ⟨_, hm name hname, hn⟩) rfl rfl

/-- Every step keeps to its scope. -/
theorem Stands.keeps (hw : Stands w g) (step : Step α) :
    Keeps (step.scope w.env.world w) step g := by
  have hg : g.store.Healthy := hw.store ▸ hw.sound.graph
  cases step with
  | seed library value => exact ⟨.refl _, fun h => absurd trivial h⟩
  | filled library filling dims out =>
    exact .of_builds Direct.builds_filled fun made hmade =>
      ⟨.push _ rfl, fun hd => Engine.filledBuffer_stream hmade fun h => hd (h ▸ trivial)⟩
  | ofValues library values dims out =>
    exact .of_builds Direct.builds_ofValues fun made hmade => ⟨.push _ rfl, fun _ => rfl⟩
  | binary op a b out =>
    refine .of_operand .tensor nofun List.mem_cons_self fun n ha => ?_
    refine .of_operand .tensor nofun (List.mem_cons_of_mem _ List.mem_cons_self) fun m hb => ?_
    exact .of_computation (Direct.builds_binary ha hb) fun _ h => .binary h
  | unary op a out =>
    refine .of_operand .tensor nofun List.mem_cons_self fun n ha => ?_
    exact .of_computation (Direct.builds_unary ha) fun _ h => .unary h
  | values name | item name | info name | debug name | layerInfo name | optimizerInfo name
  | inject fault | census =>
    exact .of_looking trivial
  | setTracked a flag =>
    refine .of_operand .tensor nofun List.mem_cons_self fun n ha => ?_
    have h : Direct.answer (.setTracked a flag) g = _ := Direct.answer_setTracked ha
    cases hs : g.store.setTracked n flag with
    | error cause =>
      rw [hs] at h
      exact .of_unchanged h rfl rfl
    | ok store =>
      rw [hs] at h
      rw [Keeps, h]
      exact ⟨.setTracked (hw.tensor_of_node ha) hs, fun _ => rfl⟩
  | backward a =>
    refine .of_operand .tensor nofun List.mem_cons_self fun n ha => ?_
    have ht := hw.tensor_of_node ha
    rw [Keeps, Direct.answer_backward ha]
    refine ⟨(hg.backward_frame n).mono ?_ ?_ nofun nofun, fun _ => rfl⟩
    · rintro m ⟨k, hk, hgr⟩
      exact ⟨n, k, ht, hw.store ▸ hk, hw.store ▸ hgr⟩
    · exact fun m hm => ⟨n, ht, hw.store ▸ hm⟩
  | gradient a out =>
    refine .of_operand .tensor nofun List.mem_cons_self fun n ha => ?_
    have h : Direct.answer (.gradient a out) g = _ := Direct.answer_gradient ha
    cases hk : g.store.gradient n with
    | none | some k =>
      rw [hk] at h
      exact .of_unchanged h rfl rfl
  | linear library inputs outputs out =>
    have h : Direct.answer (.linear library inputs outputs out) g = _ := Direct.answer_linear
    cases hn : g.store.newLinear g.stream inputs outputs with
    | error cause =>
      rw [hn] at h
      exact .of_unchanged h rfl rfl
    | ok made =>
      rw [hn] at h
      rw [Keeps, h]
      exact ⟨.newLinear hn, fun hd => absurd trivial hd⟩
  | forward layer a out =>
    refine .of_operand .layer nofun List.mem_cons_self fun l hl => ?_
    refine .of_operand .tensor nofun (List.mem_cons_of_mem _ List.mem_cons_self) fun n ha => ?_
    exact .of_computation (Direct.builds_forward hl ha) fun _ h => .applyLinear h
  | parameters layer outs =>
    refine .of_operand .layer nofun List.mem_cons_self fun l hl => ?_
    obtain ⟨b, h, -⟩ : ∃ b, Direct.answer (.parameters layer outs) g = _ ∧ _ :=
      Direct.answer_parameters hl
    exact .of_unchanged h rfl rfl
  | adam library params rates out =>
    refine .of_operands nofun (fun name hm => List.mem_map.2 ⟨name, hm, rfl⟩) fun nodes hp => ?_
    have h : Direct.answer (.adam library params rates out) g = _ := Direct.answer_adam hp
    cases hnew : Adam.new g.store nodes rates with
    | error cause | ok state =>
      rw [hnew] at h
      exact .of_unchanged h rfl rfl
  | sgd library params rates out =>
    refine .of_operands nofun (fun name hm => List.mem_map.2 ⟨name, hm, rfl⟩) fun nodes hp => ?_
    have h : Direct.answer (.sgd library params rates out) g = _ := Direct.answer_sgd hp
    cases hnew : Sgd.new nodes rates with
    | error cause | ok state =>
      rw [hnew] at h
      exact .of_unchanged h rfl rfl
  | step optimizer =>
    refine .of_operand .optimizer nofun List.mem_cons_self fun o ho => ?_
    obtain ⟨h, ht⟩ := hw.optimizer_of_item ho
    rw [Keeps, Direct.answer_step ho]
    exact ⟨(o.step_frame g.store).1.mono
      (fun m hm => ⟨h, o, ht, hm.1, hw.store ▸ hm.2⟩) nofun nofun nofun, fun _ => rfl⟩
  | clearGradients optimizer =>
    refine .of_operand .optimizer nofun List.mem_cons_self fun o ho => ?_
    obtain ⟨h, ht⟩ := hw.optimizer_of_item ho
    rw [Keeps, Direct.answer_clearGradients ho]
    exact ⟨(o.clearGradients_frame g.store).mono nofun nofun
      (fun m hm => ⟨h, o, ht, hm⟩) nofun, fun _ => rfl⟩
  | destroy kind name | drop kind name =>
    have hstore : (g.setItems kind ((g.items kind).erase name)).store = g.store := by
      cases kind <;> rfl
    have hstream : (g.setItems kind ((g.items kind).erase name)).stream = g.stream := by
      cases kind <;> rfl
    exact .of_unchanged rfl hstore hstream

/-- A flag only changes if the step has succeeded. -/
theorem Stands.succeeded_of_flagged (hw : Stands w g) {step : Step α} {n : NodeId}
    (hn : n < g.store.nodes.size)
    (ht : (Direct.answer step g).2.store.tracked n ≠ g.store.tracked n) :
    (step.scope w.env.world w).flagged n ∧ Direct.Succeeded (Direct.answer step g).1 := by
  have hf : (step.scope w.env.world w).flagged n := by
    by_contra hf
    exact ht ((hw.keeps step).1.tracked_eq n hn hf)
  refine ⟨hf, ?_⟩
  cases step with
  | setTracked a flag =>
    cases ha : g.nodes.find? a with
    | none =>
      have h : Direct.answer (.setTracked a flag) g = _ :=
        Direct.answer_emptySlot nofun ⟨(.tensor, a), List.mem_cons_self, ha⟩
      rw [h] at ht
      exact absurd rfl ht
    | some m =>
      have h : Direct.answer (.setTracked a flag) g = _ := Direct.answer_setTracked ha
      cases hs : g.store.setTracked m flag with
      | error cause =>
        rw [hs] at h
        rw [h] at ht
        exact absurd rfl ht
      | ok store =>
        rw [hs] at h
        rw [h]
        exact ⟨nofun, nofun⟩
  | _ => exact hf.elim

end

/-! ## Steps on the host -/

variable [Scalar α] [Sampler α] {setting : Setting α V} {showData : Bool} {engine : V → Engine α}
  {calm asked : V → Prop} {w : State α (Engine α)} {g : GraphSession.State α} {s : State α V}
  {step : Step α}

/-- A step has kept to its scope; `w'` is what is seen afterwards, and `g'` is what it stands
for. -/
structure Abides (setting : Setting α V) (showData : Bool) (engine : V → Engine α) (calm : V → Prop)
    (w : State α (Engine α)) (step : Step α) (s : State α V) (w' : State α (Engine α))
    (g' : GraphSession.State α) : Prop where
  seen : In engine calm w' (setting.answer showData step s).2
  stands : Stands w' g'
  persists : w.env.world.Persists w'.env.world
  frame : Store.Frame (step.scope w.env.world w) w.env.world.store w'.env.world.store
  stream : ¬step.Draws → w'.env.world.stream = w.env.world.stream
  flagged : ∀ n < w.env.world.store.nodes.size,
    w'.env.world.store.tracked n ≠ w.env.world.store.tracked n →
    (step.scope w.env.world w).flagged n ∧ (setting.answer showData step s).1.Succeeded

/-- On the host, too, every step keeps to its scope. -/
theorem abides_answer (showData : Bool) (hS : Serving setting.libraries engine calm asked)
    (hs : In engine calm w s) (hw : Stands w g) (hstep : step.Ordinary) :
    ∃ w' g', Abides setting showData engine calm w step s w' g' := by
  rcases still_or_parallel showData hS hs hw hstep with hq | ⟨w', hp⟩
  · exact ⟨w, _, hq.unchanged.symm ▸ hs, hq.stands, .refl _, .refl _, fun _ => rfl,
      fun n _ ht => absurd rfl ht⟩
  · obtain ⟨hF, hstream⟩ := hw.keeps step
    refine ⟨w', _, hp.seen, hp.stands, hp.persists, ?_, fun hd => ?_, fun n hn ht => ?_⟩
    · rw [← hw.store, ← hp.stands.store]
      exact hF
    · rw [← hw.stream, ← hp.stands.stream]
      exact hstream hd
    · rw [← hw.store] at hn
      rw [← hw.store, ← hp.stands.store] at ht
      obtain ⟨hf, hok⟩ := hw.succeeded_of_flagged hn ht
      exact ⟨hf, hp.agree.2 hok⟩

/-! ## What wrappers tell -/

/-- What a tensor tells that is in the slot `a` before the step and in the slot `b` afterwards, and
stands for the node `n`. -/
structure TensorFramed (setting : Setting α V) (showData : Bool) (e e' : Engine α) (step : Step α)
    (s s' : State α V) (a b : String) (t u : Tensor) (n : NodeId) : Prop where
  node : e.tensor t.owned.held = .ok n ∧ e'.tensor u.owned.held = .ok n
  shape : u.shape = t.shape
  values : ¬(step.scope e s).written n →
    (setting.answer showData (.values b) s').1 = (setting.answer showData (.values a) s).1
  gradient : ∀ out out', ∃ v v', (setting.answer showData (.gradient a out) s).1 = .gradient v ∧
    (setting.answer showData (.gradient b out') s').1 = .gradient v' ∧
    (v'.isSome = v.isSome ∨ (v = none ∧ (step.scope e s).gained n) ∨
      (v' = none ∧ (step.scope e s).lost n))
  tracked : e'.store.tracked n ≠ e.store.tracked n →
    (step.scope e s).flagged n ∧ (setting.answer showData step s).1.Succeeded

omit [Scalar α] [Sampler α] in
theorem In.scope_eq (hs : In engine calm w s) (step : Step α) :
    step.scope w.env.world w = step.scope (engine s.env.world) s := by
  obtain ⟨-, rfl⟩ := hs
  cases step <;> rfl

/-- The same node is behind a handle that is held before and after the step. -/
theorem Abides.framed {w' : State α (Engine α)} {g' : GraphSession.State α}
    (hS : Serving setting.libraries engine calm asked) (hs : In engine calm w s) (hw : Stands w g)
    (ha : Abides setting showData engine calm w step s w' g') {a b : String} {t u : Tensor}
    {h : Handle} (ht : s.tensors.find? a = some t) (hth : t.owned.held = some h)
    (hu : (setting.answer showData step s).2.tensors.find? b = some u)
    (huh : u.owned.held = some h) :
    ∃ n, TensorFramed setting showData (engine s.env.world)
      (engine (setting.answer showData step s).2.env.world) step s
      (setting.answer showData step s).2 a b t u n := by
  have htw := hs.find?_slot .tensor ht
  have huw := ha.seen.find?_slot .tensor hu
  obtain ⟨n, hn, ho, hshow⟩ := hw.live htw hth
  obtain ⟨m, hm, ho', hshow'⟩ := ha.stands.live huw huh
  obtain rfl : n = m := ha.persists.tensor_eq ho ho'
  have hlt : n < w.env.world.store.nodes.size := hw.sound.objects h _ ho
  have hgradient := fun out => answer_gradient_isSome showData hS hs hw ht hth hn out
  have hgradient' := fun out => answer_gradient_isSome showData hS ha.seen ha.stands hu huh hm out
  have hvalues := answer_values showData hS hs hw ht hth hn
  have hvalues' := answer_values showData hS ha.seen ha.stands hu huh hm
  rw [hw.store] at hgradient hvalues
  rw [ha.stands.store] at hgradient' hvalues'
  have hscope := hs.scope_eq step
  refine ⟨n, ⟨?_, ?_⟩, ?_, fun hwr => ?_, fun out out' => ?_, fun hne => ?_⟩
  · rw [hth]
    exact Engine.tensor_of_object? ((hs.object?_eq h).trans ho)
  · rw [huh]
    exact Engine.tensor_of_object? ((ha.seen.object?_eq h).trans ho')
  · have h : u.shape = (w'.env.world.store.shape n).map Int.ofNat := hshow'
    rw [h, ha.frame.shape_eq n hlt]
    exact Eq.symm hshow
  · rw [hvalues, hvalues', ha.frame.value_eq n hlt (hscope ▸ hwr)]
  · obtain ⟨v, hv, hsome⟩ := hgradient out
    obtain ⟨v', hv', hsome'⟩ := hgradient' out'
    refine ⟨v, v', hv, hv', ?_⟩
    rw [← hscope]
    rcases ha.frame.gradient_cases n hlt with hsame | ⟨hnone, hgain⟩ | ⟨hnone, hlost⟩
    · rw [hsame] at hsome'
      exact .inl (Bool.eq_iff_iff.2 (hsome'.trans hsome.symm))
    · exact .inr (.inl ⟨Option.not_isSome_iff_eq_none.1 fun h => hsome.1 h hnone, hgain⟩)
    · exact .inr (.inr ⟨Option.not_isSome_iff_eq_none.1 fun h => hsome'.1 h hnone, hlost⟩)
  · rw [hs.store_eq, ha.seen.store_eq] at hne
    rw [← hscope]
    exact ha.flagged n hlt hne

/-! ## Wrappers that go away -/

/-- Apart from the slot that is emptied, everything is as it was. -/
structure Parting (e e' : Engine α) (s s' : State α V) (kind : ResourceKind) (name : String) :
    Prop where
  graph : e'.store = e.store
  stream : e'.stream = e.stream
  live : ∀ {kind' name'} {x : Wrapper α kind'} {h}, (kind', name') ≠ (kind, name) →
    (s.slots kind').find? name' = some x → x.owned.held = some h →
    (s'.slots kind').find? name' = some x ∧ e'.object? h = e.object? h

section

variable {kind : ResourceKind} {name : String}

/-- All slots but one hold what they held. -/
def Elsewhere (kind : ResourceKind) (name : String) (s s' : State α V) : Prop :=
  ∀ kind' name', (kind', name') ≠ (kind, name) →
    (s'.slots kind').find? name' = (s.slots kind').find? name'

omit [Scalar α] [Sampler α] in
theorem elsewhere_setSlots {slots : Slots (Wrapper α kind)}
    (h : ∀ other ≠ name, slots.find? other = (s.slots kind).find? other) :
    Elsewhere kind name s (s.setSlots kind slots) := by
  intro kind' other hne
  by_cases hk : kind' = kind
  · subst hk
    rw [State.slots_setSlots]
    exact h other fun hn => hne (by rw [hn])
  · rw [State.slots_setSlots_of_ne hk]

omit [Scalar α] [Sampler α] in
/-- An operation of the host changes no slot. -/
theorem meets_slots_eq {β : Type} {action : Action V β} :
    Meets (· = s) (perform action) (fun _ s' => s'.slots = s.slots)
      fun _ s' => s'.slots = s.slots := by
  rintro s' rfl
  unfold perform
  rcases action s'.env with ⟨_ | _, env⟩ <;> exact State.slots_withEnv env

omit [Scalar α] [Sampler α] in
theorem Elsewhere.trans {s' s'' : State α V} (h : Elsewhere kind name s s')
    (h' : Elsewhere kind name s' s'') : Elsewhere kind name s s'' :=
  fun kind' name' hne => (h' kind' name' hne).trans (h kind' name' hne)

omit [Scalar α] [Sampler α] in
theorem Elsewhere.of_slots_eq {s' : State α V} (hs : s'.slots = s.slots) :
    Elsewhere kind name s s' := fun _ _ _ => by rw [hs]

omit [Scalar α] [Sampler α] in
theorem discardOld_slots_eq (old : Option (Wrapper α kind)) :
    Meets (· = s) (discardOld setting old) (fun _ s' => s'.slots = s.slots)
      fun _ s' => s'.slots = s.slots := by
  cases old with
  | none => exact .pure fun _ hs => by rw [hs]
  | some x => exact meets_slots_eq

omit [Sampler α] in
/-- Only the slot that is named changes when something goes away. -/
theorem elsewhere_answer (setting : Setting α V) (showData : Bool) (s : State α V)
    (h : step = .destroy kind name ∨ step = .drop kind name) :
    Elsewhere kind name s (setting.answer showData step s).2 := by
  refine answer_of_meets (P := fun _ => Elsewhere kind name s) ?_
  rcases h with rfl | rfl
  · refine meets_slot (fun x _ => ?_) fun _ => .of_slots_eq rfl
    refine .bind (R := fun _ s' => s'.slots = s.slots)
      (meets_slots_eq.imp (fun _ _ h => h) fun _ _ h => .of_slots_eq h)
      fun y s' hs' => (Elsewhere.of_slots_eq hs').trans (elsewhere_setSlots fun other hne => ?_)
    rw [Slots.find?_insert, if_neg hne]
  · have herase : Elsewhere kind name s (s.setSlots kind ((s.slots kind).erase name)) :=
      elsewhere_setSlots fun other hne => by rw [Slots.find?_erase, if_neg hne]
    intro s' hs'
    rw [hs']
    exact Meets.bind (P := (· = s.setSlots kind ((s.slots kind).erase name)))
      (Q := fun (_ : Answer α) s' => Elsewhere kind name s s')
      (f := fun _ => pure (.dropped ((s.slots kind).find? name).isSome))
      ((discardOld_slots_eq _).imp (fun _ _ h => h) fun _ _ h =>
        herase.trans (.of_slots_eq h))
      (fun _ => .pure fun _ h => herase.trans (.of_slots_eq h)) _ rfl

end

/-- Nothing but the slot that is named is changed by something going away. -/
theorem parting_answer (hS : Serving setting.libraries engine calm asked)
    (hs : In engine calm w s) (hw : Stands w g) {kind : ResourceKind} {name : String}
    (h : step = .destroy kind name ∨ step = .drop kind name) :
    Parting (engine s.env.world) (engine (setting.answer showData step s).2.env.world) s
      (setting.answer showData step s).2 kind name := by
  have hstep : step.Ordinary := by rcases h with rfl | rfl <;> trivial
  rcases still_or_parallel showData hS hs hw hstep with hq | ⟨w', hp⟩
  · rw [hq.unchanged]
    exact ⟨rfl, rfl, fun _ hx _ => ⟨hx, rfl⟩⟩
  have hg : (Direct.answer step g).2 = g.setItems kind ((g.items kind).erase name) := by
    rcases h with rfl | rfl <;> rfl
  have hst := hp.stands
  rw [hg] at hst
  refine ⟨?_, ?_, fun {kind' name' x k} hne hx hk => ?_⟩
  · rw [hp.seen.store_eq, hs.store_eq, ← hst.store, ← hw.store]
    cases kind <;> rfl
  · rw [hp.seen.stream_eq, hs.stream_eq, ← hst.stream, ← hw.stream]
    cases kind <;> rfl
  · have hx' := (elsewhere_answer setting showData s h kind' name' hne).trans hx
    refine ⟨hx', ?_⟩
    rw [hs.slots_eq] at hx
    rw [hp.seen.slots_eq] at hx'
    obtain ⟨i, hi, ho, -⟩ := hw.live hx hk
    obtain ⟨j, hj, ho', -⟩ := hst.live hx' hk
    have hij : (g.items kind').find? name' = some j := by
      by_cases hkind : kind' = kind
      · subst hkind
        rw [GraphSession.State.items_setItems, Slots.find?_erase,
          if_neg fun hn => hne (by rw [hn])] at hj
        exact hj
      · rwa [GraphSession.State.items_setItems_of_ne hkind] at hj
    obtain rfl : i = j := Option.some.inj (hi.symm.trans hij)
    rw [hp.seen.object?_eq, hs.object?_eq, ho, ho']

/-! ## Runs -/

/-- The answer to the next step of a session, and the state after it. -/
def Setting.next (setting : Setting α V) (showData : Bool) (step : Step α) (s : State α V) :
    Answer α × State α V :=
  setting.answer showData step { s with env.log := [] }

/-- None of the steps does `P`; this is asked right before each of them. -/
def Setting.Never (setting : Setting α V) (showData : Bool) (engine : V → Engine α)
    (P : Step α → Engine α → State α V → Prop) : List (Step α) → State α V → Prop
  | [], _ => True
  | step :: rest, s =>
    let s := { s with env.log := [] }
    ¬P step (engine s.env.world) s ∧
      Setting.Never setting showData engine P rest (setting.answer showData step s).2

/-- What each step preserves that does not do `P` is preserved by a run of such steps. -/
theorem invariant_after (hS : Serving setting.libraries engine calm asked)
    {P : Step α → Engine α → State α V → Prop} {I : Engine α → Prop}
    (hI : ∀ {step : Step α} {w g s w' g'}, In engine calm w s → Stands w g →
      Abides setting showData engine calm w step s w' g' → ¬P step (engine s.env.world) s →
      I w.env.world → I w'.env.world) :
    ∀ {steps : List (Step α)} {w : State α (Engine α)} {g : GraphSession.State α} {s : State α V},
    In engine calm w s → Stands w g → (∀ step ∈ steps, step.Ordinary) →
    setting.Never showData engine P steps s → I w.env.world →
    ∃ w' g', In engine calm w' (setting.after showData steps s) ∧ Stands w' g' ∧
      w.env.world.Persists w'.env.world ∧ I w'.env.world
  | [], w, g, _, hs, hw, _, _, h => ⟨w, g, hs, hw, .refl _, h⟩
  | step :: rest, w, g, s, hs, hw, hsteps, hnever, h => by
    obtain ⟨hstep, hrest⟩ := List.forall_mem_cons.1 hsteps
    obtain ⟨hnot, hnever⟩ := hnever
    have hs' := hs.withLog []
    obtain ⟨w', g', ha⟩ := abides_answer showData hS hs' hw hstep
    obtain ⟨w'', g'', hs'', hw'', hp, h''⟩ :=
      invariant_after hS hI ha.seen ha.stands hrest hnever (hI hs' hw ha hnot h)
    exact ⟨w'', g'', hs'', hw'', ha.persists.trans hp, h''⟩

/-! ## Values that are given -/

/-- None of the steps may write the node. -/
def Setting.Spares (setting : Setting α V) (showData : Bool) (engine : V → Engine α) (n : NodeId) :
    List (Step α) → State α V → Prop
  | [], _ => True
  | step :: rest, s =>
    let s := { s with env.log := [] }
    ¬(step.scope (engine s.env.world) s).written n ∧
      Setting.Spares setting showData engine n rest (setting.answer showData step s).2

omit [Sampler α] in
theorem Setting.never_of_spares {n : NodeId} : ∀ {later : List (Step α)} {s : State α V},
    setting.Spares showData engine n later s →
    setting.Never showData engine (fun step e s => (step.scope e s).written n) later s
  | [], _, _ => trivial
  | _ :: _, _, ⟨hspare, hspares⟩ => ⟨hspare, never_of_spares hspares⟩

/-- A node that is spared keeps its value, and handles stand for what they stood for. -/
theorem value_after (showData : Bool) (hS : Serving setting.libraries engine calm asked)
    {n : NodeId} {later : List (Step α)} (hs : In engine calm w s) (hw : Stands w g)
    (hsteps : ∀ step ∈ later, step.Ordinary)
    (hspares : setting.Spares showData engine n later s) (hn : n < w.env.world.store.nodes.size) :
    ∃ w' g', In engine calm w' (setting.after showData later s) ∧ Stands w' g' ∧
      w.env.world.Persists w'.env.world ∧
      w'.env.world.store.value n = w.env.world.store.value n := by
  obtain ⟨w', g', hs', hw', hp, -, hv⟩ := invariant_after hS
    (I := fun e => n < e.store.nodes.size ∧ e.store.value n = w.env.world.store.value n)
    (fun hs _ ha hspare h => ⟨Nat.lt_of_lt_of_le h.1 ha.frame.size_le,
      (ha.frame.value_eq n h.1 (hs.scope_eq _ ▸ hspare)).trans h.2⟩) hs hw hsteps
    (Setting.never_of_spares hspares) ⟨hn, rfl⟩
  exact ⟨w', g', hs', hw', hp, hv⟩

/-- The elements that a tensor has been given. -/
theorem given_answer (hS : Serving setting.libraries engine calm asked) (hs : In engine calm w s)
    (hw : Stands w g) {library : LibraryId} {values : List α} {dims : Option (List Int)}
    {out : String} (hstep : Step.Ordinary (.ofValues library values dims out))
    (hok : (setting.answer showData (.ofValues library values dims out) s).1.Succeeded) :
    ∃ w' g' t h n,
      In engine calm w' (setting.answer showData (.ofValues library values dims out) s).2 ∧
      Stands w' g' ∧ (w'.slots .tensor).find? out = some t ∧ t.owned.held = some h ∧
      w'.env.world.object? h = some (.tensor n) ∧
      (w'.env.world.store.value n).data.toList = values := by
  rcases still_or_parallel showData hS hs hw hstep with hq | ⟨w', hp⟩
  · cases hd : setting.declines showData (.ofValues library values dims out) s with
    | true =>
      obtain ⟨cause, ha⟩ := hq.declined hd
      exact absurd ha (hok.1 _)
    | false => exact (hq.idle hd).elim (fun ha => absurd ha hok.2) False.elim
  · have hbuilds : Direct.Builds (.ofValues library values dims out) out g _ :=
      Direct.builds_ofValues
    have hdirect := hp.agree.1 hok
    cases hf : Buffer.fill values.toArray ((dims.getD [(values.length : Int)]).map Int.toNat) with
    | error cause =>
      rw [hf] at hbuilds
      have ha : Direct.answer (.ofValues library values dims out) g = (.failed cause, g) := hbuilds
      rw [ha] at hdirect
      exact absurd rfl (hdirect.1 cause)
    | ok value =>
      rw [hf] at hbuilds
      obtain ⟨a, ha, -⟩ := hbuilds
      have hst := hp.stands
      rw [ha] at hst
      have hn : (g.nodes.insert out (g.store.leaf value).1).find? out =
          some (g.store.leaf value).1 := by rw [Slots.find?_insert, if_pos rfl]
      obtain ⟨h, hheld, ho⟩ := hst.held_of_item .tensor hn
      obtain ⟨t, ht, hth⟩ := Option.bind_eq_some_iff.1 hheld
      refine ⟨w', _, t, h, _, hp.seen, hst, ht, hth, ho, ?_⟩
      have hvalue : (g.store.leaf value).2.value (g.store.leaf value).1 = value :=
        congrArg Node.value Store.node_push_self
      rw [← hst.store, hvalue]
      unfold Buffer.fill at hf
      split at hf
      · cases hf
        rfl
      · cases hf

/-! ## The law -/

/-- What a step has left alone: `e` and `e'` are the library before and after it, `s` and `s'` the
session. -/
structure Framed (setting : Setting α V) (showData : Bool) (engine : V → Engine α) (step : Step α)
    (s s' : State α V) : Prop where
  /-- A tensor with a handle that is held before and after the step. -/
  tensor : ∀ {a b} {t u : Tensor} {h}, s.tensors.find? a = some t → t.owned.held = some h →
    s'.tensors.find? b = some u → u.owned.held = some h →
    ∃ n, TensorFramed setting showData (engine s.env.world) (engine s'.env.world) step s s' a b
      t u n
  stream : ¬step.Draws → (engine s'.env.world).stream = (engine s.env.world).stream
  /-- Something goes away. -/
  parting : ∀ kind name, step = .destroy kind name ∨ step = .drop kind name →
    Parting (engine s.env.world) (engine s'.env.world) s s' kind name
  /-- A tensor that is made of values tells them until its node may be written. -/
  given : ∀ {library values dims out}, step = .ofValues library values dims out →
    (setting.answer showData step s).1.Succeeded → ∃ t h n, s'.tensors.find? out = some t ∧
      t.owned.held = some h ∧ (engine s'.env.world).tensor (some h) = .ok n ∧
      ∀ later, (∀ step ∈ later, step.Ordinary) → setting.Spares showData engine n later s' →
        ∀ {b} {u : Tensor}, (setting.after showData later s').tensors.find? b = some u →
          u.owned.held = some h →
          (setting.answer showData (.values b) (setting.after showData later s')).1 = .values values

/-- Where wrappers and slots stand side by side, each step leaves alone what it should. -/
theorem Stands.framed (hS : Serving setting.libraries engine calm asked) (hs : In engine calm w s)
    (hw : Stands w g) (hstep : step.Ordinary) :
    Framed setting showData engine step s (setting.answer showData step s).2 := by
  obtain ⟨w', g', ha⟩ := abides_answer showData hS hs hw hstep
  refine ⟨fun ht hth hu huh => ha.framed hS hs hw ht hth hu huh, fun hd => ?_,
    fun kind name h => parting_answer hS hs hw h, ?_⟩
  · rw [ha.seen.stream_eq, hs.stream_eq]
    exact ha.stream hd
  · rintro library values dims out rfl hok
    obtain ⟨w', g', t, h, n, hs', hw', ht, hh, ho, hv⟩ := given_answer hS hs hw hstep hok
    rw [← hs'.slots_eq] at ht
    refine ⟨t, h, n, ht, hh, Engine.tensor_of_object? ((hs'.object?_eq h).trans ho), ?_⟩
    intro later hlater hspares b u hu huh
    obtain ⟨w'', g'', hs'', hw'', hp, hvalue⟩ := value_after showData hS hs' hw' hlater hspares
      (hw'.sound.objects h _ ho)
    obtain ⟨m, hm, ho', -⟩ := hw''.live (hs''.find?_slot .tensor hu) huh
    obtain rfl : n = m := hp.tensor_eq ho ho'
    rw [answer_values showData hS hs'' hw'' hu huh hm, hw''.store, hvalue, hv]

/-- The frame law, for every step of every session with the reference library. -/
theorem framed_after (seed : UInt64) (showData : Bool) {steps : List (Step α)} {step : Step α}
    (hsteps : ∀ step ∈ steps, step.Ordinary) (hstep : step.Ordinary) :
    let setting : Setting α (Rehearsal (Engine α)) := .rehearsing .reference
    let s := setting.after showData steps (.new { inner := .ofSeed seed })
    Framed setting showData Rehearsal.inner step s (setting.answer showData step s).2 := by
  intro setting s
  obtain ⟨w, hs, hw⟩ := stands_after showData serving_rehearsing (stands_start seed).1
    (stands_start seed).2 hsteps
  exact hw.framed serving_rehearsing hs hstep

/-- A step of training, where the layer that the parameters come from has gone. -/
theorem framed_after_training :
    let steps : List (Step Float) := [.linear 0 2 1 "l", .parameters "l" ["w", "b"],
      .sgd 0 ["w", "b"] .standard "o", .ofValues 0 [1, 2] (some [1, 2]) "x", .forward "l" "x" "y",
      .unary .sum "y" "loss", .backward "loss", .destroy .layer "l"]
    let step : Step Float := .step "o"
    let setting : Setting Float (Rehearsal (Engine Float)) := .rehearsing .reference
    let s := setting.after true steps (.new { inner := .ofSeed 7 })
    Framed setting true Rehearsal.inner step s (setting.answer true step s).2 := by
  intro steps step
  have hsteps : ∀ step ∈ steps, step.Ordinary := by decide
  exact framed_after 7 true hsteps trivial

end HostSession

end DiffTensor
