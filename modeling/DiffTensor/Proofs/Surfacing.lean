import DiffTensor.Proofs.Candour
import DiffTensor.Proofs.Refinement

/-!
# Failures come to the surface

A step of a session in which an operation was refused says why, with any libraries
(`cause_of_failed`). If they serve as the reference library, the text that is told is that of the
failure of the very call (`Surfaced`), since nothing is called between the failure and the reading
of the last error.
-/

namespace DiffTensor

variable {α V β γ : Type} {libs : Libraries α V} {v : V} {calls : List (Exchange α)}

/-! ## Steps -/

namespace HostSession

open Host (Tensor Layer)

/-- A part of a step says why an operation of the host was refused in it. -/
abbrev CandidIn (libs : Libraries α V) (a : Running α V β) : Prop :=
  Speaks libs (fun s : State α V => s.env.world) a fun v calls r =>
    ∀ reason, r = .error (.failed (.refused reason)) → Cause libs v calls reason

/-- In this part of a step no operation of the host is refused. -/
abbrev Smooth (libs : Libraries α V) (a : Running α V β) : Prop :=
  Speaks libs (fun s : State α V => s.env.world) a fun _ _ r =>
    ∀ reason, r ≠ .error (.failed (.refused reason))

/-- In this part of a step no call is made, and no operation of the host is refused. -/
abbrev Silent (libs : Libraries α V) (a : Running α V β) : Prop :=
  Speaks libs (fun s : State α V => s.env.world) a fun _ calls r =>
    calls = [] ∧ ∀ reason, r ≠ .error (.failed (.refused reason))

section

variable {a : Running α V γ} {k : γ → Running α V β}

theorem Silent.pure {x : β} : Silent libs (Pure.pure x : Running α V β) :=
  fun _ => ⟨[], .nil, rfl, nofun⟩

theorem Silent.smooth {a : Running α V β} (ha : Silent libs a) : Smooth libs a :=
  Speaks.imp ha fun _ _ _ h => h.2

theorem Smooth.candid {a : Running α V β} (ha : Smooth libs a) : CandidIn libs a :=
  Speaks.imp ha fun _ _ _ h reason hr => absurd hr (h reason)

theorem Smooth.bind (ha : Smooth libs a) (hk : ∀ x, Smooth libs (k x)) :
    Smooth libs (a >>= k) :=
  Speaks.bind ha hk (fun _ _ h => h) fun h reason hr => h reason (by cases hr; rfl)

theorem Silent.bind (ha : Silent libs a) (hk : ∀ x, Silent libs (k x)) : Silent libs (a >>= k) :=
  Speaks.bind ha hk (fun _ h h' => ⟨by rw [h.1, h'.1]; rfl, h'.2⟩)
    fun h => ⟨h.1, fun reason hr => h.2 reason (by cases hr; rfl)⟩

/-- Nothing has been said before. -/
theorem CandidIn.after (ha : Silent libs a) (hk : ∀ x, CandidIn libs (k x)) :
    CandidIn libs (a >>= k) := by
  refine Speaks.bind ha hk (fun ht h hr => ?_)
    fun h reason hr => absurd (by cases hr; rfl) (h.2 reason)
  obtain rfl := h.1
  cases ht
  exact hr

/-- Nothing is refused afterwards. -/
theorem CandidIn.before (ha : CandidIn libs a) (hk : ∀ x, Smooth libs (k x)) :
    CandidIn libs (a >>= k) :=
  Speaks.bind ha hk (fun _ _ h reason hr => absurd hr (h reason))
    fun h reason hr => h reason (by cases hr; rfl)

end

theorem candid_perform {a : Action V β} (ha : Candid libs a) :
    CandidIn (α := α) libs (perform a) := by
  intro s
  obtain ⟨calls, ht, hr⟩ := ha s.env
  refine ⟨calls, ht, fun reason h => ?_⟩
  have h : (a s.env).1.mapError Answer.failed = .error (.failed (.refused reason)) := h
  rcases hs : (a s.env).1 with (reason' | cause) | x <;> rw [hs] at h hr <;> cases h
  exact hr

theorem smooth_perform {a : Action V β} (ha : Unfailing libs a) :
    Smooth (α := α) libs (perform a) := by
  intro s
  obtain ⟨calls, ht, -, x, hx⟩ := ha s.env
  refine ⟨calls, ht, fun reason h => ?_⟩
  have h : (a s.env).1.mapError Answer.failed = .error (.failed (.refused reason)) := h
  rw [hx] at h
  cases h

theorem silent_filledSlot (kind : ResourceKind) (name : String) :
    Silent libs (filledSlot (V := V) kind name) := by
  intro s
  unfold filledSlot
  split <;> exact ⟨[], .nil, rfl, nofun⟩

theorem silent_get : Silent libs (get : Running α V (State α V)) := fun _ => ⟨[], .nil, rfl, nofun⟩

theorem silent_put (kind : ResourceKind) (name : String) (x : Wrapper α kind) :
    Silent libs (put (V := V) kind name x) := by
  intro s
  refine ⟨[], ?_, rfl, nofun⟩
  cases kind <;> exact .nil

theorem silent_mapM {f : γ → Running α V β} (hf : ∀ x, Silent libs (f x)) :
    ∀ l : List γ, Silent libs (l.mapM f)
  | [] => .pure
  | x :: l => by
    rw [List.mapM_cons]
    exact .bind (hf x) fun _ => .bind (silent_mapM hf l) fun _ => .pure

theorem smooth_mapM {f : γ → Running α V β} (hf : ∀ x, Smooth libs (f x)) :
    ∀ l : List γ, Smooth libs (l.mapM f)
  | [] => Silent.pure.smooth
  | x :: l => by
    rw [List.mapM_cons]
    exact .bind (hf x) fun _ => .bind (smooth_mapM hf l) fun _ => Silent.pure.smooth

variable {setting : Setting α V}

theorem smooth_discardOld {kind : ResourceKind} (old : Option (Wrapper α kind)) :
    Smooth setting.libraries (discardOld setting old) := by
  cases old with
  | none => exact Silent.pure.smooth
  | some x => exact smooth_perform x.owned.unfailing_discard

theorem smooth_store (kind : ResourceKind) (name : String) (x : Wrapper α kind) :
    Smooth setting.libraries (store setting kind name x) :=
  .bind silent_get.smooth fun _ => .bind (silent_put kind name x).smooth fun _ =>
    smooth_discardOld _

theorem smooth_storeTensors : ∀ (names : List String) (tensors : List Tensor),
    Smooth setting.libraries (storeTensors (α := α) setting names tensors)
  | [], [] => Silent.pure.smooth
  | _ :: _, [] => Silent.pure.smooth
  | [], t :: tensors => .bind (smooth_perform t.owned.unfailing_discard) fun _ =>
    smooth_storeTensors [] tensors
  | name :: names, t :: tensors => .bind (smooth_store .tensor name t) fun _ =>
    smooth_storeTensors names tensors

theorem smooth_dropFrom (kind : ResourceKind) (name : String) :
    Smooth setting.libraries (dropFrom setting kind name) := by
  refine .bind silent_get.smooth fun s => .bind ?_ fun _ => .bind (smooth_discardOld _) fun _ =>
    Silent.pure.smooth
  intro s
  refine ⟨[], ?_, nofun⟩
  cases kind <;> exact .nil

theorem Wrapper.candid_destroy {kind : ResourceKind} (x : Wrapper α kind) :
    Candid libs (x.destroy libs) := by
  cases kind <;> exact .bind (Host.Owned.candid_release _) fun _ => .pure

theorem candid_destroyAt (kind : ResourceKind) (name : String) :
    CandidIn setting.libraries (destroyAt setting kind name) :=
  .after (silent_filledSlot kind name) fun x => .before (candid_perform x.candid_destroy) fun _ =>
    .bind (silent_put kind name _).smooth fun _ => Silent.pure.smooth

variable [Scalar α] {showData : Bool}

/-- What goes wrong when a tensor is shown is shown, and ends nothing. -/
theorem smooth_view (t : Tensor) : Smooth setting.libraries (view setting showData t) := by
  unfold view
  split
  · refine .bind ?_ fun _ => Silent.pure.smooth
    intro s
    have hvalues : Candid setting.libraries (t.values setting.libraries) := t.candid_values
    obtain ⟨calls, ht, -⟩ := hvalues s.env
    exact ⟨calls, ht, nofun⟩
  · exact Silent.pure.smooth

theorem smooth_keep (out : String) (t : Tensor) :
    Smooth setting.libraries (keep setting showData out t) :=
  .bind (smooth_view t) fun _ => .bind (smooth_store .tensor out t) fun _ => Silent.pure.smooth

/-- The step orders no failures and does not read a single element. -/
def Step.Plain : Step α → Prop
  | .inject _ | .item _ => False
  | _ => True

/-- A step in which an operation of the host is refused says why. -/
theorem candid_run {step : Step α} (hstep : step.Plain) :
    CandidIn setting.libraries (run setting showData step) := by
  have hdone {a : Answer α} : Smooth setting.libraries (pure a : Running α V (Answer α)) :=
    Silent.pure.smooth
  have hnew {a : Action V Tensor} {out : String} (h : Candid setting.libraries a) :
      CandidIn setting.libraries
        (do return (.tensor (← keep setting showData out (← perform a)) : Answer α)) :=
    .before (candid_perform h) fun t => .bind (smooth_keep out t) fun _ => hdone
  cases step with
  | seed library value =>
    exact .before (candid_perform (.of_unfailing (Action.unfailing_call fun _ => rfl)))
      fun _ => hdone
  | filled library filling dims out => exact hnew (Tensor.candid_filled _ _)
  | ofValues library values dims out => exact hnew (Tensor.candid_ofValues _ _)
  | binary op a b out =>
    exact .after (silent_filledSlot _ _) fun a => .after (silent_filledSlot _ _) fun b =>
      hnew (Tensor.candid_binary op a b)
  | unary op a out =>
    exact .after (silent_filledSlot _ _) fun a => hnew (Tensor.candid_unary op a)
  | values a =>
    exact .after (silent_filledSlot _ _) fun a => .before (candid_perform (Tensor.candid_values a))
      fun _ => hdone
  | item a => exact hstep.elim
  | info a | debug a | layerInfo a | optimizerInfo a =>
    exact .after (silent_filledSlot _ _) fun _ => hdone.candid
  | setTracked a flag =>
    exact .after (silent_filledSlot _ _) fun t =>
      .before (candid_perform (Tensor.candid_setTracked t flag)) fun _ =>
        .bind (silent_put .tensor _ _).smooth fun _ => hdone
  | backward a =>
    exact .after (silent_filledSlot _ _) fun a =>
      .before (candid_perform (Tensor.candid_backward a)) fun _ => hdone
  | gradient a out =>
    refine .after (silent_filledSlot _ _) fun a =>
      .before (candid_perform (Tensor.candid_gradient a)) fun g => ?_
    cases g with
    | none => exact hdone
    | some g => exact .bind (smooth_keep out g) fun _ => hdone
  | linear library inputs outputs out =>
    exact .before (candid_perform (Layer.candid_create _ _)) fun l =>
      .bind (smooth_store .layer _ l) fun _ => hdone
  | forward layer a out =>
    exact .after (silent_filledSlot _ _) fun l => .after (silent_filledSlot _ _) fun a =>
      hnew (Layer.candid_forward l a)
  | parameters layer outs =>
    exact .after (silent_filledSlot _ _) fun l =>
      .before (candid_perform (Layer.candid_parameters l)) fun ts =>
        .bind (smooth_mapM smooth_view ts) fun _ => .bind (smooth_storeTensors outs ts)
          fun _ => hdone
  | adam library params rates out =>
    exact .after (silent_mapM (fun _ => silent_filledSlot _ _) params) fun ts =>
      .before (candid_perform (Host.Optimizer.candid_adam ts rates)) fun o =>
        .bind (smooth_store .optimizer _ o) fun _ => hdone
  | sgd library params rates out =>
    exact .after (silent_mapM (fun _ => silent_filledSlot _ _) params) fun ts =>
      .before (candid_perform (Host.Optimizer.candid_sgd ts rates)) fun o =>
        .bind (smooth_store .optimizer _ o) fun _ => hdone
  | step optimizer =>
    exact .after (silent_filledSlot _ _) fun o =>
      .before (candid_perform (Host.Optimizer.candid_step o)) fun _ => hdone
  | clearGradients optimizer =>
    exact .after (silent_filledSlot _ _) fun o =>
      .before (candid_perform (Host.Optimizer.candid_clearGradients o)) fun _ => hdone
  | destroy kind name => exact candid_destroyAt kind name
  | drop kind name => exact (smooth_dropFrom kind name).candid
  | inject fault => exact hstep.elim
  | census => exact .after silent_get fun s => hdone.candid

variable (setting showData) in
/-- A step that goes through to its end does not answer that it has failed. -/
theorem meets_ending (step : Step α) : Meets (fun _ => True) (run setting showData step)
    (fun a _ => ∀ cause, a ≠ .failed cause) fun _ _ => True := by
  have hend {γ : Type} {a : Running α V γ} {k : γ → Running α V (Answer α)}
      (hk : ∀ x, Meets (fun _ => True) (k x) (fun a _ => ∀ cause, a ≠ .failed cause)
        fun _ _ => True) : Meets (fun _ => True) (a >>= k) (fun a _ => ∀ cause, a ≠ .failed cause)
        fun _ _ => True :=
    .bind (R := fun _ _ => True) meets_anything hk
  cases step with
  | census | inject _ | seed _ _ => exact hend fun _ => .pure nofun
  | info _ | debug _ | layerInfo _ | optimizerInfo _ => exact hend fun _ => .pure nofun
  | filled _ _ _ _ | ofValues _ _ _ _ | values _ | item _ | backward _ | linear _ _ _ _ | step _
  | clearGradients _ => exact hend fun _ => hend fun _ => .pure nofun
  | unary _ _ _ | setTracked _ _ | adam _ _ _ _ | sgd _ _ _ _ | destroy _ _ =>
    exact hend fun _ => hend fun _ => hend fun _ => .pure nofun
  | binary _ _ _ _ | forward _ _ _ | parameters _ _ =>
    exact hend fun _ => hend fun _ => hend fun _ => hend fun _ => .pure nofun
  | gradient _ _ =>
    refine hend fun _ => hend fun g => ?_
    cases g with
    | none => exact .pure nofun
    | some g => exact hend fun _ => .pure nofun
  | drop _ _ => exact hend fun _ => hend fun _ => hend fun _ => .pure nofun

end HostSession

/-! ## The reference library -/

section

variable [Scalar α] [Sampler α] {engine : V → Engine α} {calm asked : V → Prop}

/-- The engine after calls, of which the first comes first. -/
def Engine.replay (e : Engine α) : List (Exchange α) → Engine α
  | [] => e
  | x :: rest => (e.answer x.call).2.1.replay rest

/-- Why an operation was refused that made calls of an engine. -/
inductive Surfaced (e : Engine α) (calls : List (Exchange α)) : HostError → Prop
  /-- The host has found a reason, though no call has failed. -/
  | own {reason : HostError} (fine : ∀ x ∈ calls, x.Fine) (own : reason.Own) :
    Surfaced e calls reason
  /-- A call has failed, the first one that did, and the error is what its own failure comes to. -/
  | told {earlier later : List (Exchange α)} {x : Exchange α} {f : Failure} (site : CallSite)
    (split : calls = earlier ++ x :: later) (fine : ∀ y ∈ earlier, y.Fine)
    (verdict : (e.replay earlier).verdict x.call = some (.error f)) :
    Surfaced e calls (site.failure f.status f.text)

namespace Serving

variable (hS : Serving libs engine calm asked)
include hS

theorem tells {library : LibraryId} (hc : calm v) :
    (libs library).tells v = (engine v).lastError := by
  have hc' := hS.still (hS.after library (.lastError none) hc)
  refine Library.errorText_fst (hS.reply library _ hc) fun buffer => ?_
  rw [hS.reply library _ hc', hS.state library _ hc]
  rfl

theorem talk {j j' : Journal α V} (h : Talk libs.journaled j calls j') (hc : calm j.world) :
    j'.calls = calls.reverse ++ j.calls ∧ calm j'.world ∧
      engine j'.world = (engine j.world).replay calls := by
  induction h with
  | nil => exact ⟨rfl, hc, rfl⟩
  | cons library c _ ih =>
    obtain ⟨hcalls, hcalm, hengine⟩ := ih (hS.still (hS.after library c hc))
    refine ⟨?_, hcalm, ?_⟩
    · rw [hcalls, List.reverse_cons, List.append_assoc]
      rfl
    · rw [hengine]
      exact congrArg (Engine.replay · _) (hS.state library c hc)

/-- The text that is told is that of the call's own failure. -/
theorem surfaced {j : Journal α V} {reason : HostError} (hc : calm j.world)
    (h : Cause libs.journaled j calls reason) (hh : ∀ x ∈ calls, ¬x.Hollow) :
    Surfaced (engine j.world) calls reason := by
  cases h with
  | own fine own => exact .own fine own
  | hollow operation made missing => exact absurd missing (hh _ made)
  | @told earlier later j' library c status site split talk fine reported failed =>
    obtain ⟨-, hc', he⟩ := hS.talk talk hc
    have hafter := hS.journaled.after library c hc'
    rw [hS.journaled.tells (hS.still hafter.1), hS.journaled.state library c hc']
    rw [hS.journaled.reply library c hc'] at reported
    obtain ⟨result, hv, rfl⟩ := Engine.status_answer reported
    rw [Engine.lastError_answer hv]
    cases result with
    | ok u => exact absurd rfl failed
    | error f => exact .told site split fine (he ▸ hv)

/-- No object is missing. -/
theorem not_hollow {j j' : Journal α V} (h : Talk libs.journaled j calls j') (hc : calm j.world) :
    ∀ x ∈ calls, ¬x.Hollow := by
  induction h with
  | nil => exact List.forall_mem_nil _
  | @cons v v' library c calls _ ih =>
    refine List.forall_mem_cons.2 ⟨?_, ih (hS.still (hS.after library c hc))⟩
    rintro ⟨library', body, made, hx, hs, hn⟩
    cases hx
    have hr : ((libs.journaled library).answer (.create body true) v).1 = _ :=
      (hS.reply library _ hc).trans (Engine.answer_create _ body).1
    rw [hr] at hs hn
    cases hb : (engine v.world).build body with
    | ok new =>
      rw [hb] at hn
      cases hn
    | error f =>
      rw [hb] at hs
      exact f.status_ne_success (Option.some.inj hs)

end Serving

namespace HostSession

variable {setting : Setting α V} {showData : Bool} {w : State α (Engine α)}
  {g : GraphSession.State α} {s : State α V} {step : Step α} {reason : HostError}

omit [Sampler α] in
/-- The calls of a step in which an operation was refused say why. -/
theorem cause_of_failed (hstep : step.Plain)
    (ha : (setting.answer showData step s).1 = .failed (.refused reason)) :
    ∃ calls j, Talk setting.libraries.journaled s.journaling.env.world calls j ∧
      setting.callsFor showData step s = j.calls ∧
      Cause setting.libraries.journaled s.journaling.env.world calls reason := by
  have hplain : setting.answer showData step s = _ :=
    answer_plain setting showData step s.journaling
  rw [hplain] at ha
  have hcandid : CandidIn setting.journaled.libraries (run setting.journaled showData step) :=
    candid_run hstep
  obtain ⟨calls, ht, hr⟩ := hcandid s.journaling
  have hend := meets_ending setting.journaled showData step s.journaling trivial
  unfold Setting.callsFor
  unfold Setting.answer at ha ⊢
  rcases hrun : run setting.journaled showData step s.journaling with ⟨a | a, s'⟩ <;>
    rw [hrun] at ht hr hend ha
  · exact ⟨calls, _, ht, rfl, hr reason (congrArg Except.error ha)⟩
  · exact absurd ha (hend _)

/-- A single element is refused by the host itself, before any call. -/
theorem Stands.own_of_item (hS : Serving setting.libraries engine calm asked)
    (hs : In engine calm w s) (hw : Stands w g) {name : String}
    (ha : (setting.answer showData (.item name) s).1 = .failed (.refused reason)) :
    reason.Own ∧ setting.callsFor showData (.item name) s = [] := by
  have hs' : In (fun j : Journal α V => engine j.world) (fun j => calm j.world) w s.journaling := by
    obtain ⟨hc, rfl⟩ := hs
    exact ⟨hc, rfl⟩
  have hplain : setting.answer showData (.item name) s = _ :=
    answer_plain setting showData (.item name) s.journaling
  rw [hplain] at ha
  refine answer_of_meets (P := fun a s' => a = .failed (.refused reason) →
    reason.Own ∧ s'.env.world.calls = []) ?_ ha
  refine meets_slot (fun t ht => ?_) fun _ => nofun
  refine .bind (R := fun _ _ => True) (meets_operating ?_) fun x => .pure fun _ _ => nofun
  cases hh : t.owned.held with
  | none =>
    rintro _ rfl
    rw [show t.item setting.journaled.libraries s.journaling.env = _ from
      refusedAt_of_released hh _]
    rintro ⟨⟩
    exact ⟨trivial, rfl⟩
  | some h =>
    obtain ⟨n, -, ho, hshow⟩ := hw.live (hs'.find?_slot .tensor ht) hh
    refine (hS.journaled.meets_item ho hh (hw.sound.graph.sound.values n) hshow hs'.at_env).imp
      (fun _ _ _ => trivial) ?_
    rintro _ _ ⟨rfl, rfl⟩ hr
    cases hr
    exact ⟨trivial, rfl⟩

/-- In a session, the error of a step tells why it was refused. -/
theorem Stands.surfaced (hS : Serving setting.libraries engine calm asked)
    (hs : In engine calm w s) (hw : Stands w g) (hstep : step.Ordinary)
    (ha : (setting.answer showData step s).1 = .failed (.refused reason)) :
    Surfaced (engine s.env.world) (setting.callsFor showData step s).reverse reason := by
  by_cases hplain : step.Plain
  · obtain ⟨calls, j, ht, hcalls, hcause⟩ := cause_of_failed hplain ha
    have hc : calm s.journaling.env.world.world := hs.1
    have hj : j.calls = calls.reverse := (hS.talk ht hc).1.trans (List.append_nil _)
    rw [hcalls, hj, List.reverse_reverse]
    exact hS.surfaced hc hcause (hS.not_hollow ht hc)
  · cases step with
    | item name =>
      obtain ⟨hown, hcalls⟩ := hw.own_of_item hS hs ha
      rw [hcalls]
      exact .own (List.forall_mem_nil _) hown
    | inject fault => exact hstep.elim
    | _ => exact absurd trivial hplain

end HostSession

end

/-- The reference library keeps the words of the last failure until the next call that is settled,
they are read whole, and the host tells each failure in the words of the very call. -/
theorem error_channel [Scalar α] [Sampler α] (hu : Sampler.Unrefusing α) :
    (∀ e : Engine α, e.Reachable → e.Channel) ∧
    (∀ (e : Engine α) (buffer : List UInt8), buffer ≠ [] →
      let text := Text.Utf8.encode e.lastError
      let n := min (buffer.length - 1) text.length
      e.answer (.lastError (some buffer)) =
        (⟨text.length, text.take n ++ 0 :: buffer.drop (n + 1)⟩, e, [])) ∧
    (∀ (e : Engine α) (log : List Event),
      (Library.reference : Library α (Engine α)).errorText ⟨e, log⟩ = (e.lastError, ⟨e, log⟩)) ∧
    ∀ (seed : UInt64) (showData : Bool) (steps : List (HostSession.Step α)),
      (∀ step ∈ steps, step.Ordinary) →
      let setting : HostSession.Setting α (Rehearsal (Engine α)) := .rehearsing .reference
      let s := setting.after showData steps (.new { inner := .ofSeed seed })
      ∀ (step : HostSession.Step α) (reason : HostError), step.Ordinary →
        (setting.answer showData step s).1 = .failed (.refused reason) →
        Surfaced s.env.world.inner (setting.callsFor showData step s).reverse reason := by
  refine ⟨fun e he => he.sound.channel hu, fun e buffer hb => ?_, Library.errorText_reference,
    fun seed showData steps hsteps => ?_⟩
  · intro text n
    cases buffer with
    | nil => exact absurd rfl hb
    | cons b bytes =>
      have hn : n = min text.length bytes.length := Nat.min_comm _ _
      rw [hn]
      rfl
  · intro setting s step reason hstep ha
    obtain ⟨w, hs, hw⟩ := HostSession.stands_after showData serving_rehearsing
      (HostSession.stands_start seed).1 (HostSession.stands_start seed).2 hsteps
    exact hw.surfaced serving_rehearsing hs hstep ha

/-- A null handle is refused by the library; in a session, operands that do not go together are
refused by the host, and the host tells what the library says of a tensor that is no scalar. -/
theorem error_channel_refusals :
    let e : Engine Float := (Engine.answer (.command (.backward none)) (.ofSeed 7)).2.1
    let steps : List (HostSession.Step Float) :=
      [.filled 0 .ones [2] "x", .filled 0 .ones [3] "y"]
    let setting : HostSession.Setting Float (Rehearsal (Engine Float)) := .rehearsing .reference
    let s := setting.after false steps (.new { inner := .ofSeed 7 })
    let told : HostError :=
      .autograd "grad can be implicitly created only for scalar outputs, got shape [2]"
    e.Channel ∧ (Library.reference : Library Float (Engine Float)).errorText ⟨e, []⟩ =
      ("invalid argument: null tensor handle", ⟨e, []⟩) ∧
    Surfaced s.env.world.inner (setting.callsFor false (.binary .add "x" "y" "z") s).reverse
      (.shapeMismatch "add" [2] [3]) ∧
    (setting.answer false (.backward "x") s).1.failure? = some (.refused told) ∧ ¬told.Own ∧
    Surfaced s.env.world.inner (setting.callsFor false (.backward "x") s).reverse told := by
  intro e steps setting s told
  have hsteps : ∀ step ∈ steps, step.Ordinary := by decide
  obtain ⟨hchannel, -, hread, hsurfaced⟩ := error_channel Sampler.unrefusing_double
  have hadd : (setting.answer false (.binary .add "x" "y" "z") s).1 =
      .failed (.refused (.shapeMismatch "add" [2] [3])) := rfl
  have hbackward : (setting.answer false (.backward "x") s).1.failure? = some (.refused told) := by
    decide +kernel
  exact ⟨hchannel e (.call (.start 7) trivial), hread e [],
    hsurfaced 7 false steps hsteps (.binary .add "x" "y" "z") _ trivial hadd, hbackward, id,
    hsurfaced 7 false steps hsteps (.backward "x") told trivial
      (HostSession.Answer.failure?_eq_some.1 hbackward)⟩

end DiffTensor
