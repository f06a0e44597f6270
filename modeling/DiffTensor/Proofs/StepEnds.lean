import DiffTensor.Proofs.StepEffects
import DiffTensor.Proofs.Told

/-!
# How steps end

A step on the host, on libraries that serve one engine, ends in one of three ways (`Ends`): the host
refuses it without a call, or it fails, or it succeeds; and then it fails or succeeds without
wrappers as well, and wrappers and slots still stand side by side. Every step does (`ends_run`).
A step that succeeds leaves the tensors in slots as they are, or has told them whether they are
tracked.
-/

namespace DiffTensor.HostSession

open Host (Tensor Layer Owned)

variable {α V β : Type} [Scalar α] [Sampler α] {w : State α (Engine α)} {g : GraphSession.State α}
  {step : Step α} {out : String}

/-- The step has found what it needs, and has not failed. -/
def Answer.Succeeded (a : Answer α) : Prop := (∀ cause, a ≠ .failed cause) ∧ a ≠ .emptySlot

omit [Scalar α] [Sampler α] in
theorem Answer.Succeeded.of {a : Answer α}
    (h : match a with | .failed _ | .emptySlot => False | _ => True) : a.Succeeded := by
  constructor
  · rintro cause rfl
    exact h
  · rintro rfl
    exact h

/-- The failure that an answer tells of. -/
def Answer.failure? : Answer α → Option HostFailure
  | .failed cause => some cause
  | _ => none

omit [Scalar α] [Sampler α] in
theorem Answer.failure?_eq_some {a : Answer α} {cause : HostFailure} :
    a.failure? = some cause ↔ a = .failed cause := by
  cases a <;> simp [failure?]

omit [Scalar α] [Sampler α] in
theorem Answer.not_succeeded {a : Answer α} {cause : HostFailure} (h : a.failure? = some cause) :
    ¬a.Succeeded := fun hs => hs.1 cause (failure?_eq_some.1 h)

/-- How a step ends on the host, which was in `s` and saw `w`, next to what it does from `g` without
wrappers. -/
inductive Ends (engine : V → Engine α) (calm asked : V → Prop) (w : State α (Engine α))
    (g : GraphSession.State α) (step : Step α) (s : State α V) : Answer α → State α V → Prop
  /-- The host refuses the step without asking anyone, and nothing has changed. -/
  | refused (cause : HostError) : Ends engine calm asked w g step s (.failed (.refused cause)) s
  /-- There is nothing to ask for: a slot is empty, or the step only looks into one. -/
  | idle {a : Answer α} {g' : GraphSession.State α} (still : ∀ cause, a ≠ .failed cause)
      (reason : a = .emptySlot ∨ Direct.Looks step)
      (direct : (Direct.answer step g).2 = g') (stands : Stands w g') :
      Ends engine calm asked w g step s a s
  /-- A call has failed, and so does the step without wrappers. -/
  | failed {cause : HostFailure} {s' : State α V} {e : Engine α} {cause' : Failure}
      {g' : GraphSession.State α} (seen : In engine asked (w.withEngine e) s')
      (direct : Direct.answer step g = (.failed cause', g')) (stands : Stands (w.withEngine e) g')
      (broken : e = w.env.world ∨
        ∃ c, e = (w.env.world.run c).2.1 ∧ (w.env.world.run c).1 ≠ .ok ()) :
      Ends engine calm asked w g step s (.failed cause) s'
  /-- Both have succeeded. -/
  | done {a : Answer α} {s' : State α V} {w' : State α (Engine α)} {b : GraphSession.Answer α}
      {g' : GraphSession.State α} (succeeded : a.Succeeded)
      (seen : In engine calm w' s') (direct : Direct.answer step g = (b, g'))
      (direct_succeeded : Direct.Succeeded b) (stands : Stands w' g')
      (persists : w.env.world.Persists w'.env.world) (told : Told step a w w') :
      Ends engine calm asked w g step s a s'

section

variable {engine : V → Engine α} {calm asked : V → Prop} {s s' : State α V} {a : Answer α}

theorem Ends.looked (hw : Stands w g) (hl : Direct.Looks step) (ha : ∀ cause, a ≠ .failed cause) :
    Ends engine calm asked w g step s a s := by
  obtain ⟨b, hb, -⟩ := Direct.answer_looking (g := g) hl
  exact .idle ha (.inr hl) (congrArg Prod.snd hb) hw

/-- The elements of a tensor have been read. -/
theorem Ends.read (hw : Stands w g) {name : String} (hn : ∃ n, g.nodes.find? name = some n)
    (hs : In engine calm w s') (hstep : Direct.run step = Direct.run (.info name))
    (ha : a.Succeeded) (ht : step.tells a = []) : Ends engine calm asked w g step s a s' := by
  obtain ⟨n, hn⟩ := hn
  obtain ⟨b, hb, hok⟩ := Direct.answer_info hn
  refine .done ha hs ?_ hok hw (.refl _) (.of_slots_eq ht rfl)
  unfold Direct.answer at hb ⊢
  rw [hstep]
  exact hb

theorem Ends.emptySlot (hw : Stands w g) (hs : In engine calm w s)
    (hk : ∀ kind name, step ≠ .destroy kind name)
    (hn : ∃ p ∈ step.operands, (s.slots p.1).find? p.2 = none) :
    Ends engine calm asked w g step s .emptySlot s := by
  obtain ⟨p, hp, hn⟩ := hn
  rw [hs.slots_eq] at hn
  have hm := hw.slots p.1 p.2
  rw [hn] at hm
  exact .idle nofun (.inl rfl) (congrArg Prod.snd (Direct.answer_emptySlot hk ⟨p, hp, hm⟩)) hw

/-- A step goes on with what is in a slot that it names, or finds the slot empty. -/
theorem meets_operand {kind : ResourceKind} {name : String} {f : Wrapper α kind → Running α V β}
    {Q : β → State α V → Prop} (hs : In engine calm w s) (hw : Stands w g)
    (hk : ∀ kind name, step ≠ .destroy kind name) (hm : ⟨kind, name⟩ ∈ step.operands)
    (h : ∀ x, (w.slots kind).find? name = some x →
      Meets (· = s) (f x) Q (Ends engine calm asked w g step s)) :
    Meets (· = s) (filledSlot kind name >>= f) Q (Ends engine calm asked w g step s) :=
  meets_slot (fun x hx => h x (hs.find?_slot kind hx)) fun hn => .emptySlot hw hs hk ⟨_, hm, hn⟩

/-- A step goes on with the tensors that it names, or finds one of the slots empty. -/
theorem meets_operands {names : List String} {f : List Tensor → Running α V β}
    {Q : β → State α V → Prop} (hs : In engine calm w s) (hw : Stands w g)
    (hk : ∀ kind name, step ≠ .destroy kind name)
    (hm : ∀ name ∈ names, ⟨.tensor, name⟩ ∈ step.operands)
    (h : ∀ ts, names.mapM (w.slots .tensor).find? = some ts →
      Meets (· = s) (f ts) Q (Ends engine calm asked w g step s)) :
    Meets (· = s) (tensorsAt names >>= f) Q (Ends engine calm asked w g step s) :=
  meets_tensors (fun ts hts => h ts (hs.slots_eq ▸ hts)) fun ⟨name, hname, hn⟩ =>
    .emptySlot hw hs hk ⟨_, hm name hname, hn⟩

/-- An operation that has been refused, or whose call has failed. -/
theorem Ends.of_balked (hs : In engine calm w s) (hw : Stands w g)
    {call : Except HostError (Creation α Handle)} {cause : HostFailure} {env : Env V}
    (h : Serving.Balked engine asked w.env.world s.env call cause env)
    (hd : ∀ c f, call = .ok c → w.env.world.build c = .error f →
      ∃ cause', Direct.answer step g = (.failed cause', g)) :
    Ends engine calm asked w g step s (.failed cause) { s with env } := by
  rcases h with ⟨reason, -, rfl, rfl⟩ | ⟨c, hcall, ⟨f, hb⟩, hA⟩
  · exact .refused reason
  · obtain ⟨cause', hdirect⟩ := hd c f hcall hb
    exact .failed (e := w.env.world) (hs.withEnv hA) hdirect hw (.inl rfl)

/-- An operation on a released wrapper is refused. -/
theorem meets_unlessReleased {o : Owned} {action : Action V β} {Q : β → State α V → Prop}
    (hr : o.held = none → action.RefusedAt s.env (.released o.kind))
    (hf : ∀ h, o.held = some h →
      Meets (· = s) (perform action) Q (Ends engine calm asked w g step s)) :
    Meets (· = s) (perform action) Q (Ends engine calm asked w g step s) := by
  cases hh : o.held with
  | some h => exact hf h hh
  | none =>
    refine meets_operating ?_
    rintro _ rfl
    rw [show action s.env = _ from hr hh]
    exact .refused _

omit [Scalar α] [Sampler α] in
theorem refusedAt_of_released {W γ : Type} {o : Owned} {env : Env W} (hn : o.held = none)
    (f : Handle → Action W γ) :
    Action.RefusedAt env (.released o.kind) (Action.check o.handle >>= f) :=
  .of_check (Owned.handle_of_released (by rw [Owned.isReleased, hn]; rfl)) f

end

section

/-- When its tracking has been changed, a tensor is tracked or not as it was told to be. -/
theorem Stands.tracked_of_done (hw : Stands w g) {name : String} {x : Tensor} {h : Handle}
    {flag : Bool} {g' : GraphSession.State α} (hx : (w.slots .tensor).find? name = some x)
    (hh : x.owned.held = some h) (hd : Direct.answer (.setTracked name flag) g = (.done, g')) :
    ∃ n, g'.nodes.find? name = some n ∧ g'.store.tracked n = flag := by
  obtain ⟨n, hn, ho, -⟩ := hw.live hx hh
  have hlt : n < g.store.nodes.size := hw.store ▸ hw.sound.objects h _ ho
  have h : Direct.answer (.setTracked name flag) g = _ := Direct.answer_setTracked hn
  rw [hd] at h
  cases hs : g.store.setTracked n flag with
  | error cause =>
    rw [hs] at h
    cases h
  | ok store =>
    rw [hs] at h
    cases h
    exact ⟨n, hn, Store.tracked_setTracked hlt hs⟩

omit [Scalar α] [Sampler α] in
theorem persists_fillAll : ∀ (names : List String) (ts : List Tensor) (w : State α (Engine α)),
    w.env.world.Persists (w.fillAll names ts).env.world
  | [], [], _ | _ :: _, [], _ => .refl _
  | [], t :: ts, w => (Engine.Persists.release _ t.owned.held).trans
      (persists_fillAll [] ts (w.withEngine (w.env.world.release t.owned.held)))
  | name :: names, t :: ts, w => (Engine.Persists.release _ (w.heldIn .tensor name)).trans
      (persists_fillAll names ts (w.fill .tensor name t))

variable {setting : Setting α V} {engine : V → Engine α} {calm asked : V → Prop} {s : State α V}
  {showData : Bool} (hS : Serving setting.libraries engine calm asked) (hs : In engine calm w s)
  (hw : Stands w g)

include hS hs hw

omit hw in
/-- A step that makes a tensor is balked, or makes a node and keeps its wrapper in the slot. -/
theorem meets_keptNode {operation : Action V Tensor} {call : Except HostError (Creation α Handle)}
    {library : LibraryId} {Q E : Answer α → State α V → Prop} (hsound : w.env.world.Sound)
    (hop : Meets (· = s.env) operation (Serving.Made engine asked w.env.world library call)
      (Serving.Balked engine asked w.env.world s.env call))
    (hc : ∀ c, call = .ok c → (Call.create c true).Representable)
    (hbalked : ∀ cause env, Serving.Balked engine asked w.env.world s.env call cause env →
      E (.failed cause) { s with env })
    (hmade : ∀ c n new, call = .ok c → w.env.world.build c = .ok (.tensor n, new) →
      ∀ shown s', In engine asked
        ((w.withEngine (w.env.world.made (.tensor n, new))).fill .tensor out
          (.wrapping library w.env.world.objects.size new.1 n)) s' → Q (.tensor shown) s') :
    Meets (· = s)
      (do let t ← perform operation
          return (.tensor (← keep setting showData out t) : Answer α)) Q E := by
  refine .bind (R := fun t s' => ∃ c n new, call = .ok c ∧
      w.env.world.build c = .ok (.tensor n, new) ∧
      t = .wrapping library w.env.world.objects.size new.1 n ∧
      In engine asked (w.withEngine (w.env.world.made (.tensor n, new))) s')
    (meets_operating (hop.imp ?_ hbalked)) fun t => ?_
  · rintro t env ⟨c, n, new, hcall, hb, ht, hA⟩
    exact ⟨c, n, new, hcall, hb, ht, hs.withEnv hA⟩
  · refine .exists_left fun c => .exists_left fun n => .exists_left fun new =>
      .assume fun hcall => .assume fun hb => .assume ?_
    rintro rfl
    exact .bind (meets_keeping hS.again (hsound.made (hc c hcall) hb) rfl
      (w.env.world.object?_made_new (.tensor n, new))) fun shown =>
        .pure (hmade c n new hcall hb shown)

/-- A step that makes a node is an operation with the same computation. -/
theorem meets_newNode {operation : Action V Tensor} {call : Except HostError (Creation α Handle)}
    {library : LibraryId}
    (hop : Meets (· = s.env) operation (Serving.Made engine asked w.env.world library call)
      (Serving.Balked engine asked w.env.world s.env call))
    (hc : ∀ c, call = .ok c → Computes w g step out c)
    (ht : ∀ shown, step.tells (.tensor shown) = [out]) :
    Meets (· = s)
      (do let t ← perform operation
          return (.tensor (← keep setting showData out t) : Answer α))
      (Ends engine calm asked w g step s) (Ends engine calm asked w g step s) := by
  refine meets_keptNode hS hs hw.sound hop (fun c hcall => (hc c hcall).1)
    (fun cause env hbalked => .of_balked hs hw hbalked fun c f hcall hb => ?_)
    fun c n new hcall hb shown s' hs' => ?_
  · obtain ⟨-, outcome, hbuild, hdirect⟩ := hc c hcall
    cases outcome with
    | ok made =>
      rw [hbuild] at hb
      cases hb
    | error cause' => exact ⟨cause', hdirect⟩
  · obtain ⟨hrep, outcome, hbuild, hdirect⟩ := hc c hcall
    cases outcome with
    | error cause =>
      rw [hbuild] at hb
      cases hb
    | ok made =>
      obtain ⟨m, store, stream⟩ := made
      obtain ⟨answer, hanswer, hok⟩ := hdirect
      rw [hbuild] at hb
      cases hb
      have hfill := hw.fill_made .tensor out (i := m) (x := .wrapping library
        w.env.world.objects.size store m) hrep hbuild rfl rfl rfl
      exact .done (.of trivial) (hs'.mono fun _ => hS.still) hanswer hok hfill
        ((Engine.Persists.made ..).trans (.release ..))
        (.fill hfill (ht shown) (slots_withEngine ..) rfl (Slots.find?_insert_self ..) rfl)

omit hS hw in
/-- An operation that gives a command, and then changes its wrapper at most. -/
theorem meets_commanding {o : Owned} {operation : Action V β} {c : Handle → Command Handle}
    {R : β → Prop} {Q : β → State α V → Prop}
    (hr : o.held = none → operation.RefusedAt s.env (.released o.kind))
    (hop : ∀ h, o.held = some h → Meets (At engine calm w.env.world) operation
      (fun x env => R x ∧ Obeyed engine asked w.env.world (c h) env)
      fun _ => Defied engine asked w.env.world (c h))
    (hd : ∀ h, o.held = some h → Commands w g step (c h))
    (hQ : ∀ x h g' s', o.held = some h → R x → Direct.answer step g = (.done, g') →
      Stands (w.withEngine (w.env.world.run (c h)).2.1) g' →
      In engine asked (w.withEngine (w.env.world.run (c h)).2.1) s' → Q x s') :
    Meets (· = s) (perform operation) Q (Ends engine calm asked w g step s) := by
  refine meets_unlessReleased hr fun h hh => meets_operating (.start hs.at_env
    ((hop h hh).imp (fun x env hrun => ?_) fun cause env hrun => ?_))
  · obtain ⟨g', hanswer, hstands⟩ := hd h hh
    rw [hrun.2.1] at hanswer
    exact hQ x h g' _ hh hrun.1 hanswer hstands (hs.withEnv hrun.2.2)
  · obtain ⟨g', hanswer, hstands⟩ := hd h hh
    cases hfail : (w.env.world.run (c h)).1 with
    | ok _ => exact absurd hfail hrun.1
    | error cause' =>
      rw [hfail] at hanswer
      exact .failed (hs.withEnv hrun.2) hanswer hstands (.inr ⟨c h, rfl, hrun.1⟩)

omit hw in
/-- A step that only gives a command. -/
theorem meets_commandOnly {o : Owned} {operation : Action V Unit} {c : Handle → Command Handle}
    (hr : o.held = none → operation.RefusedAt s.env (.released o.kind))
    (hop : ∀ h, o.held = some h → Meets (At engine calm w.env.world) operation
      (fun _ => Obeyed engine asked w.env.world (c h))
      fun _ => Defied engine asked w.env.world (c h))
    (hd : ∀ h, o.held = some h → Commands w g step (c h)) (ht : step.tells .done = []) :
    Meets (· = s) (do perform operation; return .done)
      (Ends engine calm asked w g step s) (Ends engine calm asked w g step s) := by
  refine .bind (R := fun _ => Ends engine calm asked w g step s .done)
    (meets_commanding hs (R := fun _ => True) hr
      (fun h hh => (hop h hh).imp_result fun _ _ h => ⟨trivial, h⟩) hd
      fun _ h g' s' hh _ hd hst hs' => ?_) fun _ => .pure fun _ h => h
  exact .done (.of trivial) (hs'.mono fun _ => hS.still) hd (.of trivial) hst (.run ..)
    (.withEngine ht _)

/-- A step that makes an optimizer. -/
theorem meets_newOptimizer {names : List String} {ts : List Tensor} {library : LibraryId}
    {operation : Action V (Host.Optimizer α)} {call : Except HostError (Creation α Handle)}
    {c : List Handle → Creation α Handle} {kind : OptimizerKind} {rate : α}
    (hts : names.mapM (w.slots .tensor).find? = some ts)
    (hop : Meets (· = s.env) operation
      (fun o env' => ∃ handles new,
        Host.Optimizer.someParameterHandles library ts = .ok handles ∧
        w.env.world.build (c handles) = .ok new ∧
        o = ⟨⟨.optimizer, library, some w.env.world.objects.size⟩, kind, rate, handles.length⟩ ∧
        At engine asked (w.env.world.made new) env')
      (Serving.Balked engine asked w.env.world s.env call))
    (hcall : ∀ c', call = .ok c' → ∃ handles,
      Host.Optimizer.someParameterHandles library ts = .ok handles ∧ c' = c handles)
    (hc : ∀ handles, (Call.create (c handles) true).Representable)
    (hbuild : ∀ handles nodes, names.mapM g.nodes.find? = some nodes →
      w.env.world.readParameters (some (handles.map some)) handles.length = .ok nodes →
      ∃ outcome : Outcome (Optimizer α),
        w.env.world.build (c handles) =
          (fun o => (.optimizer o, w.env.world.store, w.env.world.stream)) <$> outcome ∧
        (∀ o, outcome = .ok o → o.parameters = nodes) ∧
        Direct.answer step g = match outcome with
          | .ok o => (.optimizer o.parameters.length,
              { g with optimizers := g.optimizers.insert out o })
          | .error cause => (.failed cause, g))
    (ht : step.tells .done = []) :
    Meets (· = s)
      (do store setting .optimizer out (← perform operation)
          return .done)
      (Ends engine calm asked w g step s) (Ends engine calm asked w g step s) := by
  have hread : ∀ handles, Host.Optimizer.someParameterHandles library ts = .ok handles →
      ∃ nodes, names.mapM g.nodes.find? = some nodes ∧ nodes.length = handles.length ∧
        w.env.world.readParameters (some (handles.map some)) handles.length = .ok nodes := by
    intro handles hh
    obtain ⟨nodes, hn, hm⟩ :=
      nodes_of_parameters hw hts (Host.Optimizer.parameterHandles_of_some hh)
    refine ⟨nodes, hn, ?_, (Engine.readParameters_passed _ handles).trans hm⟩
    simpa using congrArg List.length
      (map_of_mapM (g := fun _ => ()) (k := fun _ => ()) (fun _ _ _ => rfl) hm)
  refine .bind (R := fun o s' => ∃ handles new,
      Host.Optimizer.someParameterHandles library ts = .ok handles ∧
      w.env.world.build (c handles) = .ok new ∧
      o = ⟨⟨.optimizer, library, some w.env.world.objects.size⟩, kind, rate, handles.length⟩ ∧
      In engine asked (w.withEngine (w.env.world.made new)) s')
    (meets_operating (hop.imp ?_ ?_)) fun o => ?_
  · rintro o env ⟨handles, new, hh, hb, ho, hA⟩
    exact ⟨handles, new, hh, hb, ho, hs.withEnv hA⟩
  · refine fun cause env hbalked => .of_balked hs hw hbalked fun c' f hc' hb => ?_
    obtain ⟨handles, hh, rfl⟩ := hcall c' hc'
    obtain ⟨nodes, hn, -, hr⟩ := hread handles hh
    obtain ⟨outcome, hout, -, hdirect⟩ := hbuild handles nodes hn hr
    cases outcome with
    | ok o =>
      rw [hout] at hb
      cases hb
    | error cause' => exact ⟨cause', hdirect⟩
  · refine .exists_left fun handles => .exists_left fun new => .assume fun hh => .assume fun hb =>
      .assume ?_
    rintro rfl
    obtain ⟨nodes, hn, hlen, hr⟩ := hread handles hh
    obtain ⟨outcome, hout, hpar, hdirect⟩ := hbuild handles nodes hn hr
    cases outcome with
    | error cause =>
      rw [hout] at hb
      cases hb
    | ok state =>
      rw [hout] at hb
      cases hb
      have hcount : handles.length = state.parameters.length := by rw [hpar state rfl, hlen]
      have hmade := hw.fill_made .optimizer out (i := state) (x := ⟨⟨.optimizer, library,
        some w.env.world.objects.size⟩, kind, rate, handles.length⟩) (hc handles) hout rfl rfl
        hcount
      rw [← hw.store, ← hw.stream] at hmade
      refine .bind (meets_storing hS.again .optimizer _) fun _ => .pure fun s' hs' => ?_
      refine .done (.of trivial) (hs'.mono fun _ => hS.still) hdirect (.of trivial) ?_
        ((Engine.Persists.made ..).trans (.release ..))
        (.fill_other ht (by decide) (slots_withEngine ..) _)
      rw [← hw.store, ← hw.stream]
      exact hmade

theorem meets_newAdam {library : LibraryId} {params : List String} {rates : AdamRates α} :
    Meets (· = s) (run setting showData (.adam library params rates out))
      (Ends engine calm asked w g (.adam library params rates out) s)
      (Ends engine calm asked w g (.adam library params rates out) s) := by
  refine meets_operands hs hw nofun (fun name hm => List.mem_map.2 ⟨name, hm, rfl⟩) fun ts hts => ?_
  refine meets_newOptimizer hS hs hw hts (hS.meets_adam hs.at_env)
    (c := fun handles => .adam (some (handles.map some)) handles.length rates) (fun c' hc' => ?_)
    (fun _ => trivial) (fun handles nodes hn hr => ?_) rfl
  · simp only [Host.Optimizer.adamCall, HostError.bind_eq_ok_iff] at hc'
    obtain ⟨_, -, handles, hh, hc'⟩ := hc'
    cases hc'
    exact ⟨handles, hh, rfl⟩
  · have hd : Direct.answer (.adam library params rates out) g = _ := Direct.answer_adam hn
    have hstore : Adam.new g.store nodes rates = Adam.new w.env.world.store nodes rates := by
      rw [hw.store]
    rw [hstore] at hd
    refine ⟨.adam <$> Adam.new w.env.world.store nodes rates, ?_, fun o ho => ?_, hd.trans ?_⟩
    · simp only [Engine.build, hr, Outcome.ok_bind]
      cases Adam.new w.env.world.store nodes rates <;> rfl
    · cases hnew : Adam.new w.env.world.store nodes rates with
      | error cause =>
        rw [hnew] at ho
        cases ho
      | ok state =>
        rw [hnew] at ho
        cases ho
        exact Adam.parameters_new hnew
    · cases Adam.new w.env.world.store nodes rates <;> rfl

theorem meets_newSgd {library : LibraryId} {params : List String} {rates : SgdRates α} :
    Meets (· = s) (run setting showData (.sgd library params rates out))
      (Ends engine calm asked w g (.sgd library params rates out) s)
      (Ends engine calm asked w g (.sgd library params rates out) s) := by
  refine meets_operands hs hw nofun (fun name hm => List.mem_map.2 ⟨name, hm, rfl⟩) fun ts hts => ?_
  refine meets_newOptimizer hS hs hw hts (hS.meets_sgd hs.at_env)
    (c := fun handles => .sgd (some (handles.map some)) handles.length rates) (fun c' hc' => ?_)
    (fun _ => trivial) (fun handles nodes hn hr => ?_) rfl
  · simp only [Host.Optimizer.sgdCall, HostError.bind_eq_ok_iff] at hc'
    obtain ⟨_, -, handles, hh, hc'⟩ := hc'
    cases hc'
    exact ⟨handles, hh, rfl⟩
  · refine ⟨.sgd <$> Sgd.new nodes rates, ?_, fun o ho => ?_, (Direct.answer_sgd hn).trans ?_⟩
    · simp only [Engine.build, hr, Outcome.ok_bind]
      cases Sgd.new nodes rates <;> rfl
    · cases hnew : Sgd.new nodes rates with
      | error cause =>
        rw [hnew] at ho
        cases ho
      | ok state =>
        rw [hnew] at ho
        cases ho
        exact Sgd.parameters_new hnew
    · cases Sgd.new nodes rates <;> rfl

/-- A step that makes a layer. -/
theorem meets_newLayer {library : LibraryId} {inputs outputs : Nat} :
    Meets (· = s) (run setting showData (.linear library inputs outputs out))
      (Ends engine calm asked w g (.linear library inputs outputs out) s)
      (Ends engine calm asked w g (.linear library inputs outputs out) s) := by
  have hdirect : Direct.answer (.linear library inputs outputs out) g = _ := Direct.answer_linear
  rw [hw.store, hw.stream] at hdirect
  refine .bind (R := fun l s' => ∃ layer store stream,
      w.env.world.store.newLinear w.env.world.stream inputs outputs = .ok (layer, store, stream) ∧
      l = ⟨⟨.layer, library, some w.env.world.objects.size⟩, inputs, outputs⟩ ∧
      In engine asked (w.withEngine (w.env.world.made (.layer layer, store, stream))) s')
    (meets_operating ((hS.meets_layer hs.at_env).imp ?_ ?_)) fun l => ?_
  · rintro l env ⟨layer, store, stream, -, hl, rfl, hA⟩
    exact ⟨layer, store, stream, hl, rfl, hs.withEnv hA⟩
  · refine fun cause env hbalked => .of_balked hs hw hbalked fun c f hc hb => ?_
    obtain ⟨_, -, hc⟩ := HostError.bind_eq_ok_iff.1 hc
    cases hc
    cases hl : w.env.world.store.newLinear w.env.world.stream inputs outputs with
    | ok made =>
      simp only [Engine.build, hl, Outcome.ok_bind, Outcome.pure_eq] at hb
      cases hb
    | error cause' =>
      rw [hl] at hdirect
      exact ⟨cause', hdirect⟩
  · refine .exists_left fun layer => .exists_left fun store => .exists_left fun stream =>
      .assume fun hl => .assume ?_
    rintro rfl
    have hb : w.env.world.build (.newLinear inputs outputs) =
        .ok (.layer layer, store, stream) := by
      simp only [Engine.build, hl, Outcome.ok_bind, Outcome.pure_eq]
    obtain ⟨-, -, _, _, _, -, -, hlayer, -⟩ := Store.newLinear_inv hl
    rw [hl] at hdirect
    refine .bind (meets_storing hS.again .layer _) fun _ => .pure fun s' hs' => ?_
    refine .done (.of trivial) (hs'.mono fun _ => hS.still) hdirect (.of trivial)
      (hw.fill_made .layer out (i := layer) (c := .newLinear inputs outputs) trivial hb rfl rfl ?_)
      ((Engine.Persists.made ..).trans (.release ..))
      (.fill_other rfl (by decide) (slots_withEngine ..) _)
    rw [hlayer]
    exact ⟨rfl, rfl⟩

/-- A step that takes the gradient of a tensor out. -/
theorem meets_takingGradient {name : String} {x : Tensor}
    (hx : (w.slots .tensor).find? name = some x) :
    Meets (· = s)
      (do match ← perform (x.gradient setting.libraries) with
          | none => return .gradient none
          | some t => return .gradient (some (← keep setting showData out t)))
      (Ends engine calm asked w g (.gradient name out) s)
      (Ends engine calm asked w g (.gradient name out) s) := by
  refine .bind (R := fun t s' => ∃ n e, g.nodes.find? name = some n ∧
      Serving.Taken w.env.world x.library n t e ∧ In engine asked (w.withEngine e) s')
    (meets_unlessReleased (fun hn => refusedAt_of_released hn _) fun h hh => ?_) fun t => ?_
  · obtain ⟨n, hn, ho, -⟩ := hw.live hx hh
    refine meets_operating ((hS.meets_gradient hw.sound hh ho hs.at_env
      (E := fun _ _ => False)).imp ?_ fun _ _ h => h.elim)
    rintro t env ⟨e, ht, hA⟩
    exact ⟨n, e, hn, ht, hs.withEnv hA⟩
  · refine .exists_left fun n => .exists_left fun e => .assume fun hn => .assume fun ht => ?_
    have hdirect : Direct.answer (.gradient name out) g = _ := Direct.answer_gradient hn
    have hgradient : g.store.gradient n = w.env.world.store.gradient n := by rw [hw.store]
    rw [hgradient] at hdirect
    cases ht with
    | none hk =>
      rw [hk] at hdirect
      exact .pure fun s' hs' => .done (.of trivial) (hs'.mono fun _ => hS.still) hdirect
        (.of trivial) hw (.refl _) (.of_slots_eq rfl rfl)
    | @some k hk =>
      rw [hk] at hdirect
      have hout := hw.handOut (hw.sound.graph.sound.held n k hk).1
      have ho := w.env.world.object?_handOut_new (.tensor k)
      refine .bind (meets_keeping hS.again hout.sound (h := w.env.world.objects.size) rfl ho)
        fun shown => .pure fun s' hs' => ?_
      have hfill := hout.fill .tensor out (i := k) (x := .wrapping x.library
        w.env.world.objects.size w.env.world.store k) rfl rfl ho rfl
        (hw.unheld_new _ (Nat.le_refl _))
      exact .done (.of trivial) (hs'.mono fun _ => hS.still) hdirect (.of trivial) hfill
        ((Engine.Persists.handOut ..).trans (.release ..))
        (.fill hfill rfl (slots_withEngine ..) rfl (Slots.find?_insert_self ..) rfl)

/-- A step that takes the parameters of a layer out. -/
theorem meets_takingParameters {name : String} {outs : List String} {x : Layer}
    (hx : (w.slots .layer).find? name = some x) :
    Meets (· = s)
      (do let params ← perform (x.parameters setting.libraries)
          let views ← params.mapM (view setting showData)
          storeTensors setting outs params
          return .parameters views)
      (Ends engine calm asked w g (.parameters name outs) s)
      (Ends engine calm asked w g (.parameters name outs) s) := by
  refine .bind (R := fun ts s' => ∃ h l, w.env.world.object? h = some (.layer l) ∧
      g.layers.find? name = some l ∧
      ts = [.wrapping x.library w.env.world.objects.size w.env.world.store l.weight,
        .wrapping x.library (w.env.world.objects.size + 1) w.env.world.store l.bias] ∧
      In engine asked (w.withEngine (w.env.world.handOutNodes l.parameters).2) s')
    (meets_unlessReleased (fun hn => refusedAt_of_released hn _) fun h hh => ?_) fun ts => ?_
  · obtain ⟨l, hl, ho, -⟩ := hw.live hx hh
    refine meets_operating ((hS.meets_parameters hw.sound hh ho hs.at_env
      (E := fun _ _ => False)).imp (fun ts env ht => ?_) fun _ _ h => h.elim)
    exact ⟨h, l, ho, hl, ht.1, hs.withEnv ht.2⟩
  · refine .exists_left fun h => .exists_left fun l => .assume fun ho => .assume fun hl =>
      .assume ?_
    rintro rfl
    obtain ⟨b, hdirect, hok⟩ : ∃ b, Direct.answer (.parameters _ outs) g = _ ∧ _ :=
      Direct.answer_parameters hl
    have hfits : l.Fits w.env.world.store := hw.sound.objects h _ ho
    have hboth := (hw.handOut hfits.weight.1).handOut hfits.bias.1
    have hobject := fun k => Engine.object?_handOutParameters w.env.world l k
    have hweight : (w.env.world.handOutNodes l.parameters).2.object? w.env.world.objects.size =
        some (.tensor l.weight) := by
      rw [hobject, if_neg (Nat.ne_of_lt (Nat.lt_succ_self _)), if_pos rfl]
    have hbias : (w.env.world.handOutNodes l.parameters).2.object?
        (w.env.world.objects.size + 1) = some (.tensor l.bias) := by
      rw [hobject, if_pos rfl]
    let items : List (Tensor × NodeId) :=
      [(.wrapping x.library w.env.world.objects.size w.env.world.store l.weight, l.weight),
        (.wrapping x.library (w.env.world.objects.size + 1) w.env.world.store l.bias, l.bias)]
    have hloose : ∀ p ∈ items,
        Loose (w.withEngine (w.env.world.handOutNodes l.parameters).2) p.1 p.2 := by
      simp only [items, List.forall_mem_cons]
      exact ⟨⟨rfl, ⟨_, rfl, hweight, hw.unheld_new _ (Nat.le_refl _)⟩, rfl⟩,
        ⟨rfl, ⟨_, rfl, hbias, hw.unheld_new _ (Nat.le_succ _)⟩, rfl⟩, nofun⟩
    have hlive : ∀ t ∈ items.map Prod.fst, ∃ h n, t.owned.held = some h ∧
        (w.withEngine (w.env.world.handOutNodes l.parameters).2).env.world.object? h =
          some (.tensor n) := by
      intro t ht
      obtain ⟨p, hp, rfl⟩ := List.mem_map.1 ht
      obtain ⟨h, hh, ho, -⟩ := (hloose p hp).held
      exact ⟨h, p.2, hh, ho⟩
    have hdistinct : (items.map fun p => p.1.owned.held).Nodup := by
      simp [items, Tensor.wrapping]
    refine .bind (meets_showingAll hS.again hboth.sound hlive) fun views => ?_
    refine .bind (meets_storingAll hS.again outs (items.map Prod.fst)) fun _ =>
      .pure fun s' hs' => ?_
    have hfill := Stands.fillAll items outs hboth hloose hdistinct
    refine .done (.of trivial) (hs'.mono fun _ => hS.still) hdirect hok hfill ?_
      (.fillAll hfill rfl rfl (slots_withEngine ..) ?_ ?_)
    · exact (Engine.Persists.handOutNodes l.parameters _).trans (persists_fillAll outs
        (items.map Prod.fst) (w.withEngine (w.env.world.handOutNodes l.parameters).2))
    · simp only [items, List.forall_mem_cons]
      exact ⟨Option.some_ne_none _, Option.some_ne_none _, List.forall_mem_nil _⟩
    · simp only [items, List.forall_mem_cons]
      exact ⟨rfl, rfl, List.forall_mem_nil _⟩

/-- A step that turns tracking of a tensor on or off. -/
theorem meets_tracking {name : String} {x : Tensor} {flag : Bool}
    (hx : (w.slots .tensor).find? name = some x) :
    Meets (· = s)
      (do put .tensor name (← perform (x.setTracked setting.libraries flag))
          return .done)
      (Ends engine calm asked w g (.setTracked name flag) s)
      (Ends engine calm asked w g (.setTracked name flag) s) := by
  refine .bind (R := fun y s' => ∃ h e g', y = { x with tracked := flag } ∧
      x.owned.held = some h ∧ Direct.answer (.setTracked name flag) g = (.done, g') ∧
      Stands (w.withEngine e) g' ∧ w.env.world.Persists e ∧ In engine asked (w.withEngine e) s')
    (meets_commanding hs (R := fun y => y = { x with tracked := flag })
      (fun hn => refusedAt_of_released hn _) (fun h hh => hS.meets_setTracked hh)
      (fun h hh => commands_setTracked hw hx hh) fun y h g' s' hh hy hd hst hs' =>
        ⟨h, _, g', hy, hh, hd, hst, .run .., hs'⟩) fun y => ?_
  rintro s' ⟨h, e, g', rfl, hh, hd, hst, hp, hs'⟩
  have hx' : ((w.withEngine e).slots .tensor).find? name = some x := by
    rw [slots_withEngine]
    exact hx
  have hput := hs'.setSlots .tensor
    (((w.withEngine e).slots .tensor).insert name { x with tracked := flag })
  have hchange := hst.change hx' { x with tracked := flag } rfl fun _ h => h
  obtain ⟨n, hn, hf⟩ := hw.tracked_of_done hx hh hd
  rw [hst.store] at hf
  have htold : Told (.setTracked name flag : Step α) .done w ((w.withEngine e).setSlots .tensor
      (((w.withEngine e).slots .tensor).insert name { x with tracked := flag })) := by
    refine .of_stands (t := { x with tracked := flag }) hchange rfl ?_ hh hn hf.symm
      fun other hne => ?_
    · rw [State.slots_setSlots, Slots.find?_insert_self]
    · rw [State.slots_setSlots, Slots.find?_insert, if_neg hne, slots_withEngine]
  rw [← hs'.slots_eq] at hput hchange htold
  exact .done (.of trivial) (hput.mono fun _ => hS.still) hd (.of trivial) hchange hp htold

/-- A step that gives a handle back. -/
theorem meets_givingBack (kind : ResourceKind) (name : String) :
    Meets (· = s) (destroyAt setting kind name)
      (Ends engine calm asked w g (.destroy kind name) s)
      (Ends engine calm asked w g (.destroy kind name) s) := by
  cases hx : (w.slots kind).find? name with
  | none =>
    refine meets_slot (fun x hx' => ?_) fun _ => ?_
    · rw [hs.slots_eq, hx] at hx'
      cases hx'
    · exact .idle nofun (.inl rfl) rfl (hw.erase_empty hx)
  | some x =>
    have hm := hw.slots kind name
    rw [hx] at hm
    cases hh : x.owned.held with
    | none =>
      refine meets_slot (fun y hy => ?_) fun hn => ?_
      · obtain rfl : x = y := by
          rw [hs.slots_eq, hx] at hy
          exact Option.some.inj hy
        refine .bind (R := fun _ _ => False) (meets_unlessReleased (o := x.owned) (fun hn => ?_)
          fun h hh' => ?_) fun _ _ h => h.elim
        · cases kind <;> exact (refusedAt_of_released hn _).bind _
        · rw [hh] at hh'
          cases hh'
      · rw [hs.slots_eq, hx] at hn
        cases hn
    | some h =>
      refine (meets_destroying hS hx hh hs).imp_result fun a s' ha => ?_
      obtain ⟨rfl, hs'⟩ := ha
      have hk : x.givenBack.owned.kind = kind := by
        rw [Wrapper.owned_givenBack]
        exact hm.1
      have hheld : x.givenBack.owned.held = none := by rw [Wrapper.owned_givenBack]
      exact .done (.of trivial) (hs'.mono fun _ => hS.still) (b := .done) rfl (.of trivial)
        (hw.destroy hk hheld name) (.release ..) (.givenBack rfl hx)

/-- Every step ends as it does without wrappers, but those that the host refuses. -/
theorem ends_run (step : Step α) (hstep : step.Ordinary) :
    Meets (· = s) (run setting showData step) (Ends engine calm asked w g step s)
      (Ends engine calm asked w g step s) := by
  cases step with
  | seed library value =>
    refine .bind (R := fun _ => Ends engine calm asked w g (.seed library value) s .done)
      (meets_operating (.start hs.at_env (meets_hushed fun he => (hS.meets_call (.seed value)
        nofun).imp_result fun _ env hA => ?_))) fun _ => .pure fun _ h => h
    have hA : At engine asked { w.env.world with stream := .ofSeed value } env :=
      ⟨hA.2.1, hA.2.2.trans (congrArg (fun e : Engine α => { e with stream := .ofSeed value }) he)⟩
    exact .done (.of trivial) ((hs.withEnv hA).mono fun _ => hS.still) (b := .done) rfl
      (.of trivial) (hw.reseed _) (.of_object? (Nat.le_refl _) fun _ _ => rfl) (.withEngine rfl _)
  | filled library filling dims out =>
    exact meets_newNode hS hs hw (hS.meets_filled hs.at_env hw.sound hstep)
      (fun c hc => computes_filled hw hstep hc) fun _ => rfl
  | ofValues library values dims out =>
    exact meets_newNode hS hs hw (hS.meets_ofValues hs.at_env hw.sound hstep.1 hstep.2)
      (fun c hc => computes_ofValues hw hstep.1 hstep.2 hc) fun _ => rfl
  | binary op a b out =>
    refine meets_operand hs hw nofun List.mem_cons_self fun x hx => ?_
    refine meets_operand hs hw nofun (List.mem_cons_of_mem _ List.mem_cons_self) fun y hy => ?_
    exact meets_newNode hS hs hw (hS.meets_binary hs.at_env hw.sound)
      (fun c hc => computes_binary hw hx hy hc) fun _ => rfl
  | unary op a out =>
    refine meets_operand hs hw nofun List.mem_cons_self fun x hx => ?_
    exact meets_newNode hS hs hw (hS.meets_unary hs.at_env hw.sound)
      (fun c hc => computes_unary hw hx hc) fun _ => rfl
  | values a =>
    refine meets_operand hs hw nofun List.mem_cons_self fun x hx => ?_
    refine .bind (R := fun _ s' => (∃ n, g.nodes.find? a = some n) ∧ In engine calm w s')
      (meets_unlessReleased (fun hn => refusedAt_of_released hn _) fun h hh => ?_)
      fun _ => .pure fun _ h => .read hw h.1 h.2 rfl (.of trivial) rfl
    obtain ⟨n, hn, ho, -⟩ := hw.live hx hh
    exact meets_operating (.start hs.at_env ((hS.meets_values ho hh
      (hw.sound.graph.sound.values n)).imp_result
        fun _ _ hA => ⟨⟨n, hn⟩, (hs.withEnv hA.2).mono fun _ => hS.still⟩))
  | item a =>
    refine meets_operand hs hw nofun List.mem_cons_self fun x hx => ?_
    refine .bind (R := fun _ s' => (∃ n, g.nodes.find? a = some n) ∧ In engine calm w s')
      (meets_unlessReleased (fun hn => refusedAt_of_released hn _) fun h hh => ?_)
      fun _ => .pure fun _ h => .read hw h.1 h.2 rfl (.of trivial) rfl
    obtain ⟨n, hn, ho, hshow⟩ := hw.live hx hh
    refine meets_operating ((hS.meets_item ho hh (hw.sound.graph.sound.values n) hshow
      hs.at_env).imp (fun _ _ hA => ⟨⟨n, hn⟩, (hs.withEnv hA).mono fun _ => hS.still⟩) ?_)
    rintro _ _ ⟨rfl, rfl⟩
    exact .refused _
  | info a | debug a =>
    exact meets_slot (fun _ _ => by rintro _ rfl; exact .looked hw trivial nofun)
      fun _ => .looked hw trivial nofun
  | setTracked a flag =>
    refine meets_operand hs hw nofun List.mem_cons_self fun x hx => ?_
    exact meets_tracking hS hs hw hx
  | backward a =>
    refine meets_operand hs hw nofun List.mem_cons_self fun x hx => ?_
    exact meets_commandOnly hS hs (fun hn => refusedAt_of_released hn _)
      (fun h hh => hS.meets_backward hh) (fun h hh => commands_backward hw hx hh) rfl
  | gradient a out =>
    refine meets_operand hs hw nofun List.mem_cons_self fun x hx => ?_
    exact meets_takingGradient hS hs hw hx
  | linear library inputs outputs out => exact meets_newLayer hS hs hw
  | forward layer a out =>
    refine meets_operand hs hw nofun List.mem_cons_self fun l hl => ?_
    refine meets_operand hs hw nofun (List.mem_cons_of_mem _ List.mem_cons_self) fun x hx => ?_
    exact meets_newNode hS hs hw (hS.meets_forward hs.at_env hw.sound)
      (fun c hc => computes_forward hw hl hx hc) fun _ => rfl
  | parameters layer outs =>
    refine meets_operand hs hw nofun List.mem_cons_self fun l hl => ?_
    exact meets_takingParameters hS hs hw hl
  | layerInfo layer | optimizerInfo optimizer =>
    exact meets_slot (fun _ _ => by rintro _ rfl; exact .looked hw trivial nofun)
      fun _ => .looked hw trivial nofun
  | adam library params rates out => exact meets_newAdam hS hs hw
  | sgd library params rates out => exact meets_newSgd hS hs hw
  | step optimizer =>
    refine meets_operand hs hw nofun List.mem_cons_self fun x hx => ?_
    exact meets_commandOnly hS hs (fun hn => refusedAt_of_released hn _)
      (fun h hh => hS.meets_step hh) (fun h hh => commands_step hw hx hh) rfl
  | clearGradients optimizer =>
    refine meets_operand hs hw nofun List.mem_cons_self fun x hx => ?_
    exact meets_commandOnly hS hs (fun hn => refusedAt_of_released hn _)
      (fun h hh => hS.meets_clearGradients hh) (fun h hh => commands_clearGradients hw hx hh) rfl
  | destroy kind name => exact meets_givingBack hS hs hw kind name
  | drop kind name =>
    refine .start hs ((meets_dropping hS).imp_result fun a s' ha => ?_)
    obtain ⟨⟨filled, rfl⟩, hs'⟩ := ha
    exact .done (.of trivial) hs' (b := .done) rfl (.of trivial) (hw.empty kind name) (.release ..)
      (.empty rfl)
  | inject fault => exact hstep.elim
  | census =>
    rintro _ rfl
    exact .looked hw trivial nofun

end

end DiffTensor.HostSession
