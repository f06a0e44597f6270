import DiffTensor.Proofs.Journal
import DiffTensor.Proofs.StepEnds

/-!
# Sessions without wrappers

A session on the host runs alongside one without wrappers, which leaves out the steps that the host
declines (`Setting.alongside`). After any steps each live wrapper stands for what is in the slot of
its name there, with its shape, its elements and its gradient; and the next step that makes a call
succeeds on both sides or on none (`refines_direct`).
-/

namespace DiffTensor

variable {α V : Type}

/-- A journal changes nothing in how libraries serve, and shows that they were asked. -/
theorem Serving.journaled [Scalar α] [Sampler α] {libs : Libraries α V} {engine : V → Engine α}
    {calm asked : V → Prop} (hS : Serving libs engine calm asked) :
    Serving libs.journaled (fun j => engine j.world) (fun j => calm j.world)
      fun j => asked j.world ∧ j.calls ≠ [] where
  reply library c h := hS.reply library c h
  state library c h := hS.state library c h
  after library c h := ⟨hS.after library c h, nofun⟩
  still h := hS.still h.1

/-- No failures have been ordered. -/
def Rehearsal.Calm {W : Type} (r : Rehearsal W) : Prop := r.faults = [] ∧ r.injected = none

/-- Then calls are passed on. -/
theorem Rehearsal.answer_calm {W : Type} {inner : Library α W} {c : Call α} {r : Rehearsal W}
    (hr : r.Calm) : (answer inner c r).1 = (inner.answer c r.inner).1 ∧
      (answer inner c r).2.1.inner = (inner.answer c r.inner).2.1 ∧
      (answer inner c r).2.1.Calm := by
  obtain ⟨w, faults, injected, census⟩ := r
  obtain ⟨rfl, rfl⟩ := hr
  cases c with
  | release kind handle => cases handle <;> exact ⟨rfl, rfl, rfl, rfl⟩
  | _ => exact ⟨rfl, rfl, rfl, rfl⟩

/-- Without ordered failures all libraries of the usual setting serve as the reference library. -/
theorem serving_rehearsing [Scalar α] [Sampler α] :
    Serving (HostSession.Setting.rehearsing (Library.reference : Library α (Engine α))).libraries
      Rehearsal.inner Rehearsal.Calm Rehearsal.Calm := by
  have hlibrary (library : LibraryId) :
      let libraries := (HostSession.Setting.rehearsing
        (Library.reference : Library α (Engine α))).libraries
      libraries library = .direct .reference ∨ libraries library = .rehearsed .reference := by
    by_cases h : library = 0
    · exact .inl (if_pos h)
    · exact .inr (if_neg h)
  have h {library : Library α (Rehearsal (Engine α))}
      (hl : library = .direct .reference ∨ library = .rehearsed .reference) (c : Call α)
      {v : Rehearsal (Engine α)} (hv : v.Calm) :
      (library.answer c v).1 = (v.inner.answer c).1 ∧
        (library.answer c v).2.1.inner = (v.inner.answer c).2.1 ∧
        (library.answer c v).2.1.Calm := by
    rcases hl with rfl | rfl
    · exact ⟨rfl, rfl, hv⟩
    · exact Rehearsal.answer_calm hv
  exact ⟨fun l c hv => (h (hlibrary l) c hv).1, fun l c hv => (h (hlibrary l) c hv).2.1,
    fun l c hv => (h (hlibrary l) c hv).2.2, id⟩

/-- How a wrapper shows the node that it has just been made for. -/
def Store.shown (s : Store α) (showData : Bool) (n : NodeId) : HostSession.TensorView α where
  shape := (s.shape n).map Int.ofNat
  tracked := s.tracked n
  data := if showData then some (.ok (s.value n).data.toList) else none

namespace HostSession

open Host (Tensor Layer Owned)

/-! ## Two sessions side by side -/

/-- The same state, where calls are written down from now on. -/
def State.journaling (s : State α V) : State α (Journal α V) :=
  ⟨⟨⟨s.env.world, []⟩, s.env.log⟩, s.tensors, s.layers, s.optimizers⟩

variable [Scalar α] (setting : Setting α V) (showData : Bool)

/-- The calls that a step makes, latest first. -/
def Setting.callsFor (step : Step α) (s : State α V) : List (Exchange α) :=
  (setting.journaled.answer showData step s.journaling).2.env.world.calls

/-- Does the host refuse the step without making a call? -/
def Setting.declines (step : Step α) (s : State α V) : Bool :=
  match (setting.answer showData step s).1 with
  | .failed _ => (setting.callsFor showData step s).isEmpty
  | _ => false

/-- The same steps without wrappers, from `g` on, but for those that the host declines. -/
def Setting.alongside [Sampler α] :
    List (Step α) → State α V → GraphSession.State α → GraphSession.State α
  | [], _, g => g
  | step :: rest, s, g =>
    let s := { s with env.log := [] }
    Setting.alongside rest (setting.answer showData step s).2
      (if setting.declines showData step s then g else (Direct.answer step g).2)

variable [Sampler α] {setting} {showData} {engine : V → Engine α} {calm asked : V → Prop}
  {w : State α (Engine α)} {g : GraphSession.State α} {s : State α V} {step : Step α}

/-- A step has gone as it does without wrappers; `w'` is what is seen afterwards. -/
structure Parallel (setting : Setting α V) (showData : Bool) (engine : V → Engine α)
    (calm : V → Prop) (w : State α (Engine α)) (g : GraphSession.State α) (step : Step α)
    (s : State α V) (w' : State α (Engine α)) : Prop where
  kept : setting.declines showData step s = false
  seen : In engine calm w' (setting.answer showData step s).2
  stands : Stands w' (Direct.answer step g).2
  agree : (setting.answer showData step s).1.Succeeded ↔
    Direct.Succeeded (Direct.answer step g).1
  persists : w.env.world.Persists w'.env.world
  /-- Only a command does something before it fails. -/
  broken : ¬(setting.answer showData step s).1.Succeeded → ∃ e, w' = w.withEngine e ∧
    (e = w.env.world ∨ ∃ c, e = (w.env.world.run c).2.1 ∧ (w.env.world.run c).1 ≠ .ok ())

/-- A step has changed nothing: the host has declined it, or there is nothing to ask for. -/
structure Still (setting : Setting α V) (showData : Bool) (w : State α (Engine α))
    (g : GraphSession.State α) (step : Step α) (s : State α V) : Prop where
  unasked : setting.callsFor showData step s = []
  unchanged : (setting.answer showData step s).2 = s
  stands : Stands w
    (if setting.declines showData step s then g else (Direct.answer step g).2)
  declined : setting.declines showData step s = true → ∃ cause,
    (setting.answer showData step s).1 = .failed (.refused cause)
  idle : setting.declines showData step s = false →
    (setting.answer showData step s).1 = .emptySlot ∨ Direct.Looks step

omit [Sampler α] in
/-- What holds of the end of a step holds of its answer. -/
theorem answer_of_meets {P : Answer α → State α V → Prop}
    (h : Meets (· = s) (run setting showData step) P P) :
    P (setting.answer showData step s).1 (setting.answer showData step s).2 := by
  have h := h s rfl
  unfold Setting.answer
  revert h
  rcases run setting showData step s with ⟨_ | _, _⟩ <;> exact id

omit [Scalar α] [Sampler α] in
/-- Steps that do not fail are not declined. -/
theorem Setting.declines_eq_false [Scalar α] {a : Answer α}
    (ha : (setting.answer showData step s).1 = a) (hf : ∀ cause, a ≠ .failed cause) :
    setting.declines showData step s = false := by
  unfold Setting.declines
  rw [ha]
  cases a with
  | failed cause => exact absurd rfl (hf cause)
  | _ => rfl

/-- Every step changes nothing or goes as it does without wrappers. -/
theorem still_or_parallel (showData : Bool) (hS : Serving setting.libraries engine calm asked)
    (hs : In engine calm w s) (hw : Stands w g) (hstep : step.Ordinary) :
    Still setting showData w g step s ∨
      ∃ w', Parallel setting showData engine calm w g step s w' := by
  have hplain : setting.answer showData step s = _ :=
    answer_plain setting showData step s.journaling
  have hs' : In (fun j : Journal α V => engine j.world) (fun j => calm j.world) w s.journaling := by
    obtain ⟨hc, rfl⟩ := hs
    exact ⟨hc, rfl⟩
  have hends : Ends _ _ _ w g step s.journaling
      (setting.journaled.answer showData step s.journaling).1
      (setting.journaled.answer showData step s.journaling).2 :=
    answer_of_meets (ends_run hS.journaled hs' hw step hstep)
  cases hj : setting.journaled.answer showData step s.journaling with
  | mk a s' =>
    have hcalls : setting.callsFor showData step s = s'.env.world.calls := by
      rw [Setting.callsFor, hj]
    rw [hj] at hends hplain
    have ha := congrArg Prod.fst hplain
    cases hends with
    | refused cause =>
      have hd : setting.declines showData step s = true := by
        rw [Setting.declines, hplain, hcalls]
        rfl
      refine .inl ⟨hcalls, congrArg Prod.snd hplain, ?_, fun _ => ⟨cause, ha⟩,
        fun h => absurd (h.symm.trans hd) Bool.false_ne_true⟩
      rw [if_pos hd]
      exact hw
    | idle still reason direct stands =>
      have hd := Setting.declines_eq_false ha still
      refine .inl ⟨hcalls, congrArg Prod.snd hplain, ?_,
        fun h => absurd (hd.symm.trans h) Bool.false_ne_true, fun _ => ha ▸ reason⟩
      rw [hd, if_neg Bool.false_ne_true, direct]
      exact stands
    | @failed cause _ e cause' g' seen direct stands broken =>
      have hfailed : ¬Answer.Succeeded (.failed cause : Answer α) := fun h => h.1 cause rfl
      have hdirect : ¬Direct.Succeeded (.failed cause' : GraphSession.Answer α) :=
        fun h => h.1 cause' rfl
      refine .inr ⟨w.withEngine e, ?_, ?_, ?_, ?_, ?_, fun _ => ⟨e, rfl, broken⟩⟩
      · rw [Setting.declines, hplain, hcalls]
        exact List.isEmpty_eq_false_iff.2 seen.1.2
      · rw [hplain]
        exact ⟨hS.still seen.1.1, seen.2⟩
      · rw [direct]
        exact stands
      · rw [hplain, direct]
        exact ⟨fun h => (hfailed h).elim, fun h => (hdirect h).elim⟩
      · rcases broken with rfl | ⟨c, rfl, -⟩
        · exact .refl _
        · exact .run ..
    | @done _ _ w' b g' succeeded seen direct direct_succeeded stands persists _ =>
      refine .inr ⟨w', Setting.declines_eq_false ha succeeded.1, ?_, ?_, ?_, persists, fun h => ?_⟩
      · rw [hplain]
        exact seen
      · rw [direct]
        exact stands
      · rw [hplain, direct]
        exact ⟨fun _ => direct_succeeded, fun _ => succeeded⟩
      · rw [hplain] at h
        exact absurd succeeded h

omit [Scalar α] [Sampler α] in
/-- What is seen of a session does not depend on what was reported. -/
theorem In.withLog (hs : In engine calm w s) (log : List Event) :
    In engine calm w { s with env.log := log } := by
  obtain ⟨hc, rfl⟩ := hs
  exact ⟨hc, rfl⟩

/-- Wrappers and slots still stand side by side after any steps. -/
theorem stands_after (showData : Bool) (hS : Serving setting.libraries engine calm asked) :
    ∀ {steps : List (Step α)} {w : State α (Engine α)} {g : GraphSession.State α} {s : State α V},
    In engine calm w s → Stands w g → (∀ step ∈ steps, step.Ordinary) →
    ∃ w', In engine calm w' (setting.after showData steps s) ∧
      Stands w' (setting.alongside showData steps s g)
  | [], w, _, _, hs, hw, _ => ⟨w, hs, hw⟩
  | step :: rest, w, g, s, hs, hw, hsteps => by
    obtain ⟨hstep, hrest⟩ := List.forall_mem_cons.1 hsteps
    have hs' := hs.withLog []
    rw [Setting.after, Setting.alongside]
    rcases still_or_parallel showData hS hs' hw hstep with hq | ⟨w', hp⟩
    · rw [hq.unchanged]
      exact stands_after showData hS hs' hq.stands hrest
    · rw [hp.kept, if_neg Bool.false_ne_true]
      exact stands_after showData hS hp.seen hp.stands hrest

/-! ## What wrappers show -/

section

variable {name out : String} {t : Tensor} {h : Handle} {n : NodeId}

omit [Scalar α] [Sampler α] in
/-- Behind the handle of a live wrapper is the node in the slot of its name. -/
theorem Stands.live_at (hw : Stands w g) (hs : In engine calm w s)
    (ht : s.tensors.find? name = some t) (hh : t.owned.held = some h)
    (hn : g.nodes.find? name = some n) : w.env.world.object? h = some (.tensor n) ∧
      @Wrapper.Shows α w.env.world.store .tensor t n := by
  obtain ⟨m, hm, ho, hshow⟩ := hw.live (hs.find?_slot .tensor ht) hh
  obtain rfl : m = n := Option.some.inj (hm.symm.trans hn)
  exact ⟨ho, hshow⟩

/-- The elements that are told are those of the node. -/
theorem answer_values (showData : Bool) (hS : Serving setting.libraries engine calm asked)
    (hs : In engine calm w s) (hw : Stands w g) (ht : s.tensors.find? name = some t)
    (hh : t.owned.held = some h) (hn : g.nodes.find? name = some n) :
    (setting.answer showData (.values name) s).1 = .values (g.store.value n).data.toList := by
  obtain ⟨ho, -⟩ := hw.live_at hs ht hh hn
  rw [hw.store]
  refine answer_of_meets (P := fun a _ => a = .values (w.env.world.store.value n).data.toList)
    (meets_inSlot ht (.bind (meets_operating (.start hs.at_env ?_)) fun values =>
      .pure fun _ h => congrArg Answer.values h))
  exact (hS.meets_values ho hh (hw.sound.graph.sound.values n)).imp_result fun _ _ h => h.1

/-- The gradient of a tensor is shown as it is now; if there is one, the wrapper that is handed out
stands for it. -/
theorem answer_gradient (showData : Bool) (hS : Serving setting.libraries engine calm asked)
    (hs : In engine calm w s) (hw : Stands w g) (ht : s.tensors.find? name = some t)
    (hh : t.owned.held = some h) (ho : w.env.world.object? h = some (.tensor n)) (out : String) :
    (setting.answer showData (.gradient name out) s).1 =
        .gradient ((w.env.world.store.gradient n).map (w.env.world.store.shown showData)) ∧
      ∃ w', In engine calm w' (setting.answer showData (.gradient name out) s).2 ∧
        w'.env.world.store = w.env.world.store ∧
        ∀ k, w.env.world.store.gradient n = some k →
          w'.env.world.tensor (w'.heldIn .tensor out) = .ok k := by
  refine answer_of_meets (P := fun answer s' => answer = .gradient _ ∧ ∃ w', In engine calm w' s' ∧
    w'.env.world.store = w.env.world.store ∧ ∀ k, w.env.world.store.gradient n = some k →
      w'.env.world.tensor (w'.heldIn .tensor out) = .ok k) (meets_inSlot ht ?_)
  refine .bind (R := fun taken s' => ∃ e, Serving.Taken w.env.world t.library n taken e ∧
      In engine asked (w.withEngine e) s')
    (meets_operating ((hS.meets_gradient hw.sound hh ho hs.at_env (E := fun _ _ => False)).imp ?_
      fun _ _ h => h.elim)) fun taken => ?_
  · rintro taken env ⟨e, htaken, hA⟩
    exact ⟨e, htaken, hs.withEnv hA⟩
  · refine .exists_left fun e => .assume fun htaken => ?_
    cases htaken with
    | none hk =>
      rw [hk]
      exact .pure fun s' hs' => ⟨rfl, _, hs'.mono fun _ => hS.still, rfl, fun k hk' => nomatch hk'⟩
    | @some k hk =>
      have hout := hw.handOut (hw.sound.graph.sound.held n k hk).1
      have ho := w.env.world.object?_handOut_new (.tensor k)
      have hfill := hout.fill .tensor out (i := k) (x := .wrapping t.library
        w.env.world.objects.size w.env.world.store k) rfl rfl ho rfl
        (hw.unheld_new _ (Nat.le_refl _))
      rw [hk]
      refine .bind (meets_kept hS.again hout.sound (h := w.env.world.objects.size) rfl ho)
        fun shown => .assume fun hshown => .pure fun s' hs' => ?_
      refine ⟨by rw [hshown]; rfl, _, hs'.mono fun _ => hS.still, store_fill .., fun l hl => ?_⟩
      cases hl
      exact hfill.tensor_of_node (Slots.find?_insert_self ..)

/-- A gradient is handed out exactly if the node has one. -/
theorem answer_gradient_isSome (showData : Bool)
    (hS : Serving setting.libraries engine calm asked) (hs : In engine calm w s) (hw : Stands w g)
    (ht : s.tensors.find? name = some t) (hh : t.owned.held = some h)
    (hn : g.nodes.find? name = some n) (out : String) :
    ∃ shown, (setting.answer showData (.gradient name out) s).1 = .gradient shown ∧
      (shown.isSome ↔ g.store.gradient n ≠ none) := by
  obtain ⟨ho, -⟩ := hw.live_at hs ht hh hn
  refine ⟨_, (answer_gradient showData hS hs hw ht hh ho out).1, ?_⟩
  rw [Option.isSome_map, hw.store, Option.isSome_iff_ne_none]

end

/-- What the wrappers of a session stand for is in the slots of a session without wrappers. -/
structure Refines (setting : Setting α V) (showData : Bool) (e : Engine α) (s : State α V)
    (g : GraphSession.State α) : Prop where
  /-- The graph and the stream are the library's. -/
  library : g.store = e.store ∧ g.stream = e.stream
  /-- Behind the handle of a live wrapper is what is in the slot of its name, and the sizes that
  the wrapper keeps are those of it. -/
  live : ∀ {kind name} {x : Wrapper α kind} {h}, (s.slots kind).find? name = some x →
    x.owned.held = some h → ∃ i, (g.items kind).find? name = some i ∧
      e.object? h = some i.object ∧ x.Shows g.store i
  /-- All other slots are empty. -/
  empty : ∀ {kind name}, (∀ x, (s.slots kind).find? name = some x → x.owned.held = none) →
    (g.items kind).find? name = none
  /-- Two live tensors are the same one of the library exactly if their nodes are the same. -/
  aliases : ∀ {a b} {t u : Tensor} {h k n m}, s.tensors.find? a = some t →
    s.tensors.find? b = some u → t.owned.held = some h → u.owned.held = some k →
    g.nodes.find? a = some n → g.nodes.find? b = some m →
    (e.tensor (some h) = e.tensor (some k) ↔ n = m)
  /-- A live tensor tells the elements of its node. -/
  values : ∀ {name} {t : Tensor} {h n}, s.tensors.find? name = some t → t.owned.held = some h →
    g.nodes.find? name = some n →
    (setting.answer showData (.values name) s).1 = .values (g.store.value n).data.toList
  /-- It has a gradient exactly if its node has. -/
  gradient : ∀ {name} {t : Tensor} {h n}, s.tensors.find? name = some t → t.owned.held = some h →
    g.nodes.find? name = some n → ∀ out, ∃ shown,
      (setting.answer showData (.gradient name out) s).1 = .gradient shown ∧
      (shown.isSome ↔ g.store.gradient n ≠ none)
  /-- A step that the host declines changes nothing. -/
  declined : ∀ step : Step α, step.Ordinary → setting.declines showData step s = true →
    ∃ cause, setting.answer showData step s = (.failed (.refused cause), s)
  /-- A step that makes a call succeeds exactly if it does so without wrappers. -/
  next : ∀ step : Step α, step.Ordinary → setting.callsFor showData step s ≠ [] →
    ((setting.answer showData step s).1.Succeeded ↔ Direct.Succeeded (Direct.answer step g).1)

/-- Where wrappers and slots stand side by side, one session refines the other. -/
theorem Stands.refines (hS : Serving setting.libraries engine calm asked)
    (hs : In engine calm w s) (hw : Stands w g) :
    Refines setting showData (engine s.env.world) s g where
  library := by
    obtain ⟨-, rfl⟩ := hs
    exact ⟨hw.store, hw.stream⟩
  live hx hh := by
    rw [hs.slots_eq] at hx
    obtain ⟨i, hi, ho, hshow⟩ := hw.live hx hh
    obtain ⟨-, rfl⟩ := hs
    exact ⟨i, hi, ho, hw.store ▸ hshow⟩
  empty {kind name} hx := by
    rw [hs.slots_eq] at hx
    have hm := hw.slots kind name
    cases hf : (w.slots kind).find? name with
    | none =>
      rw [hf] at hm
      exact hm
    | some x =>
      rw [hf] at hm
      simpa only [Matches, hx x hf] using hm.2
  aliases := by
    intro a b t u h k n m ht hu hh hk hn hm
    have hh := Engine.tensor_of_object? (hw.live_at hs ht hh hn).1
    have hk := Engine.tensor_of_object? (hw.live_at hs hu hk hm).1
    obtain ⟨-, rfl⟩ := hs
    refine ⟨fun heq => Except.ok.inj (hh.symm.trans (heq.trans hk)), ?_⟩
    rintro rfl
    exact hh.trans hk.symm
  values ht hh hn := answer_values showData hS hs hw ht hh hn
  gradient ht hh hn out := answer_gradient_isSome showData hS hs hw ht hh hn out
  declined step hstep hd := by
    rcases still_or_parallel showData hS hs hw hstep with hq | ⟨w', hp⟩
    · obtain ⟨cause, ha⟩ := hq.declined hd
      exact ⟨cause, Prod.ext ha hq.unchanged⟩
    · rw [hp.kept] at hd
      cases hd
  next step hstep hc := by
    rcases still_or_parallel showData hS hs hw hstep with hq | ⟨w', hp⟩
    · exact absurd hq.unasked hc
    · exact hp.agree

omit [Scalar α] [Sampler α] in
/-- At the start nothing stands for anything. -/
theorem stands_start (seed : UInt64) :
    In Rehearsal.inner Rehearsal.Calm ((State.new (Engine.ofSeed seed)) : State α (Engine α))
      (.new { inner := .ofSeed seed }) ∧
    Stands ((State.new (Engine.ofSeed seed)) : State α (Engine α)) { stream := .ofSeed seed } := by
  refine ⟨⟨⟨rfl, rfl⟩, rfl⟩, Engine.sound_ofSeed seed, rfl, rfl,
    fun kind name => ?_, fun kind => ?_⟩
  · cases kind <;> trivial
  · cases kind <;> exact fun _ _ _ _ _ h => nomatch h

/-- A session with the reference library refines one without wrappers, in which the steps that the
host declines are left out. -/
theorem refines_direct (seed : UInt64) (showData : Bool) {steps : List (Step α)}
    (hsteps : ∀ step ∈ steps, step.Ordinary) :
    let setting : Setting α (Rehearsal (Engine α)) := .rehearsing .reference
    let start : State α (Rehearsal (Engine α)) := .new { inner := .ofSeed seed }
    let s := setting.after showData steps start
    let g := setting.alongside showData steps start { stream := .ofSeed seed }
    Refines setting showData s.env.world.inner s g := by
  intro setting start s g
  obtain ⟨w, hs, hw⟩ := stands_after showData serving_rehearsing (stands_start seed).1
    (stands_start seed).2 hsteps
  exact hw.refines serving_rehearsing hs

/-- A layer is trained by one step, and one of its parameters goes away. -/
theorem refines_direct_training :
    let steps : List (Step Float) := [.linear 0 2 1 "l", .parameters "l" ["w", "b"],
      .sgd 0 ["w", "b"] .standard "o", .filled 0 .ones [3, 2] "x", .forward "l" "x" "y",
      .unary .sum "y" "loss", .backward "loss", .gradient "w" "dw", .step "o", .drop .tensor "b"]
    let setting : Setting Float (Rehearsal (Engine Float)) := .rehearsing .reference
    let start : State Float (Rehearsal (Engine Float)) := .new { inner := .ofSeed 7 }
    let s := setting.after true steps start
    let g := setting.alongside true steps start { stream := .ofSeed 7 }
    Refines setting true s.env.world.inner s g := by
  intro steps
  have hsteps : ∀ step ∈ steps, step.Ordinary := by decide
  exact refines_direct 7 true hsteps

end HostSession

end DiffTensor
