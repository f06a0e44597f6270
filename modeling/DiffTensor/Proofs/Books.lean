import DiffTensor.Host.Owned
import DiffTensor.Proofs.Custody

/-!
# The books of a caller

A caller that keeps to its side of the custody can account for all handles at any time: each one
that it holds is `owned` by a wrapper, or still `raw`; and what the log tells agrees with this
(`Books`). The few operations that change the books are here, each with what it does to them:
calls, taking a handle over, and giving a handle back.

`Meets` is how such things are said of computations that may fail.
-/

namespace DiffTensor

/-! ## Results and failures -/

/-- Started where `P` holds, a computation comes to a result with `Q`, or fails with `E`. -/
def Meets {ε σ β : Type} (P : σ → Prop) (a : ExceptT ε (StateM σ) β) (Q : β → σ → Prop)
    (E : ε → σ → Prop) : Prop :=
  ∀ s, P s → match a s with
    | (.ok x, s') => Q x s'
    | (.error e, s') => E e s'

namespace Meets

variable {ε σ β γ : Type} {P P' : σ → Prop} {Q Q' : β → σ → Prop} {E E' : ε → σ → Prop}

theorem pure {x : β} (h : ∀ s, P s → Q x s) :
    Meets P (Pure.pure x : ExceptT ε (StateM σ) β) Q E := h

theorem throw {e : ε} (h : ∀ s, P s → E e s) :
    Meets P (throw e : ExceptT ε (StateM σ) β) Q E := h

theorem bind {a : ExceptT ε (StateM σ) γ} {f : γ → ExceptT ε (StateM σ) β} {R : γ → σ → Prop}
    (ha : Meets P a R E) (hf : ∀ x, Meets (R x) (f x) Q E) : Meets P (a >>= f) Q E := by
  intro s hs
  have h := ha s hs
  have e : (a >>= f) s = match a s with
      | (.ok x, s') => f x s'
      | (.error e, s') => (.error e, s') := by
    show (match a s with | (r, s') => ExceptT.bindCont f r s') = _
    rcases a s with ⟨_ | _, s'⟩ <;> rfl
  rw [e]
  revert h
  rcases a s with ⟨_ | x, s'⟩
  · exact id
  · exact hf x s'

/-- Less may be known before, and less may be asked for afterwards. -/
theorem mono {a : ExceptT ε (StateM σ) β} (h : Meets P a Q E) (hP : ∀ s, P' s → P s)
    (hQ : ∀ x s, Q x s → Q' x s) (hE : ∀ e s, E e s → E' e s) : Meets P' a Q' E' := by
  intro s hs
  have h := h s (hP s hs)
  revert h
  rcases a s with ⟨e | x, s'⟩
  · exact hE e s'
  · exact hQ x s'

/-- Less may be asked for afterwards. -/
theorem imp {a : ExceptT ε (StateM σ) β} (h : Meets P a Q E) (hQ : ∀ x s, Q x s → Q' x s)
    (hE : ∀ e s, E e s → E' e s) : Meets P a Q' E' :=
  h.mono (fun _ hs => hs) hQ hE

/-- Less may be asked for of results. -/
theorem imp_result {a : ExceptT ε (StateM σ) β} (h : Meets P a Q E)
    (hQ : ∀ x s, Q x s → Q' x s) : Meets P a Q' E :=
  h.imp hQ fun _ _ hs => hs

/-- It need not be said what failures are like. -/
theorem forget {a : ExceptT ε (StateM σ) β} {R : ε → Prop}
    (h : Meets P a Q fun e s => R e ∧ E e s) : Meets P a Q E :=
  h.mono (fun _ hs => hs) (fun _ _ hs => hs) fun _ _ hs => hs.2

/-- What is known before and does not depend on the state can be used at once. -/
theorem assume {p : Prop} {a : ExceptT ε (StateM σ) β} (h : p → Meets P a Q E) :
    Meets (fun s => p ∧ P s) a Q E := fun s hs => h hs.1 s hs.2

theorem exists_left {ι : Type} {R : ι → σ → Prop} {a : ExceptT ε (StateM σ) β}
    (h : ∀ i, Meets (R i) a Q E) : Meets (fun s => ∃ i, R i s) a Q E :=
  fun s ⟨i, hi⟩ => h i s hi

/-- What each item of a list meets, and what it gives, the whole list does. -/
theorem mapM {R : β → Prop} {f : γ → ExceptT ε (StateM σ) β} : ∀ {l : List γ},
    (∀ x ∈ l, Meets P (f x) (fun y s => R y ∧ P s) E) →
      Meets P (l.mapM f) (fun ys s => (∀ y ∈ ys, R y) ∧ P s) E
  | [], _ => .pure fun _ hs => ⟨fun _ h => absurd h List.not_mem_nil, hs⟩
  | x :: l, h => by
    obtain ⟨hx, hl⟩ := List.forall_mem_cons.1 h
    rw [List.mapM_cons]
    refine bind hx fun y => assume fun hy => ?_
    refine bind (mapM hl) fun ys => assume fun hys => ?_
    exact .pure fun _ hs => ⟨List.forall_mem_cons.2 ⟨hy, hys⟩, hs⟩

end Meets

namespace Action

variable {W β : Type} {P : Env W → Prop} {Q : β → Env W → Prop} {E : HostFailure → Env W → Prop}

theorem meets_check {e : Except HostError β} (hok : ∀ x, e = .ok x → ∀ env, P env → Q x env)
    (herr : ∀ cause env, P env → E (.refused cause) env) : Meets P (Action.check e) Q E := by
  intro env h
  cases e with
  | ok x => exact hok x rfl env h
  | error cause => exact herr cause env h

/-- An attempt does not fail. -/
theorem meets_attempt {a : Action W β} {E' : HostFailure → Env W → Prop} (h : Meets P a Q E) :
    Meets P a.attempt (fun result env => match result with
      | .ok x => Q x env
      | .error cause => E cause env) E' := by
  intro env hP
  have h := h env hP
  show match ((a env).1 : Except HostFailure β) with
    | .ok x => Q x (a env).2
    | .error cause => E cause (a env).2
  revert h
  rcases a env with ⟨_ | _, env'⟩ <;> exact id

/-- What holds in either case holds after an attempt. -/
theorem meets_attempt_either {a : Action W β} {I : Env W → Prop}
    {E : HostFailure → Env W → Prop} (h : Meets P a (fun _ => I) fun _ => I) :
    Meets P a.attempt (fun _ => I) E :=
  (meets_attempt h).mono (fun _ hP => hP) (fun result _ hI => by cases result <;> exact hI)
    fun _ _ hE => hE

end Action

/-! ## What the log tells -/

namespace Event

/-- The handle that was taken over. -/
def acquired? : Event → Option (ResourceKind × Handle)
  | acquired kind h => some (kind, h)
  | _ => none

/-- The handle that was given back on request. -/
def released? : Event → Option (ResourceKind × Handle)
  | released kind h => some (kind, h)
  | _ => none

/-- The handle that was given back because its owner went away. -/
def leaked? : Event → Option (ResourceKind × Handle)
  | leaked kind h => some (kind, h)
  | _ => none

end Event

/-- All handles that were taken over. -/
def acquiredIn (log : List Event) : Multiset (ResourceKind × Handle) :=
  log.filterMap Event.acquired?

/-- All handles that were given back on request. -/
def releasedIn (log : List Event) : Multiset (ResourceKind × Handle) :=
  log.filterMap Event.released?

/-- All handles that were given back because their owners went away. -/
def leakedIn (log : List Event) : Multiset (ResourceKind × Handle) :=
  log.filterMap Event.leaked?

@[simp] theorem acquiredIn_append (a b : List Event) :
    acquiredIn (a ++ b) = acquiredIn a + acquiredIn b := by
  simp [acquiredIn]

@[simp] theorem releasedIn_append (a b : List Event) :
    releasedIn (a ++ b) = releasedIn a + releasedIn b := by
  simp [releasedIn]

@[simp] theorem leakedIn_append (a b : List Event) :
    leakedIn (a ++ b) = leakedIn a + leakedIn b := by
  simp [leakedIn]

/-- Other events tell nothing of handles. -/
theorem nothing_in_quiet {log : List Event} (h : ∀ e ∈ log, e.face? = none) :
    acquiredIn log = 0 ∧ releasedIn log = 0 ∧ leakedIn log = 0 := by
  induction log with
  | nil => exact ⟨rfl, rfl, rfl⟩
  | cons e log ih =>
    obtain ⟨he, hlog⟩ := List.forall_mem_cons.1 h
    obtain ⟨ha, hr, hl⟩ := ih hlog
    simp only [acquiredIn, releasedIn, leakedIn, Multiset.coe_eq_zero] at ha hr hl ⊢
    cases e <;> simp_all [Event.face?, Event.acquired?, Event.released?, Event.leaked?]

/-! ## The books -/

variable {α V : Type} {libs : Libraries α V} {Valid : V → Multiset Holding → Prop}

/-- Only a release gives something back. -/
theorem Exchange.onto_of_ne {x : Exchange α} (h : ∀ kind k, x.call ≠ .release kind k)
    (held : Multiset Holding) : x.onto held = x.gained + held := by
  have hr : x.returned = 0 := by
    unfold returned
    split
    · exact absurd ‹_› (h _ _)
    · rfl
  rw [onto, hr, Multiset.sub_zero]

/-- All calls so far were in order, and this is what is held after them. -/
structure Stock (Valid : V → Multiset Holding → Prop) (held : Multiset Holding)
    (j : Journal α V) : Prop where
  orderly : Orderly j.calls
  counted : heldAfter j.calls = held
  valid : Valid j.world held

/-- The books agree with the calls and the log: what is held is owned by wrappers or still raw,
what was taken over was given back or is still owned, and all that was handed out was taken over,
unless it is still raw or was given back without a report. `past` is the log before the
present one. -/
structure Books (Valid : V → Multiset Holding → Prop) (past : List Event)
    (owned raw untraced : Multiset Holding) (env : Env (Journal α V)) : Prop
    extends Stock Valid (owned + raw) env.world where
  traced : acquiredIn (past ++ env.log) =
    releasedIn (past ++ env.log) + leakedIn (past ++ env.log) + owned.map Holding.face
  handedOut : (handedOutBy env.world.calls).map Holding.face =
    acquiredIn (past ++ env.log) + raw.map Holding.face + untraced.map Holding.face

variable {past : List Event} {owned raw untraced held : Multiset Holding}
  {env : Env (Journal α V)}

theorem Stock.call (hc : Custody libs Valid) {j : Journal α V} (h : Stock Valid held j)
    {library : LibraryId} {c : Call α} (hr : c.Representable) (hb : c.Backed library held) :
    Stock Valid (Exchange.onto ⟨library, c, ((libs library).answer c j.world).1⟩ held)
      ((libs.journaled library).answer c j).2.1 := by
  refine ⟨⟨h.counted ▸ hb, h.orderly⟩, ?_, hc.valid library c h.valid hr hb⟩
  show Exchange.onto _ (heldAfter j.calls) = _
  rw [h.counted]

/-- Events that tell nothing of handles leave the books as they are. -/
theorem Books.quiet (h : Books Valid past owned raw untraced env) {events : List Event}
    (hq : ∀ e ∈ events, e.face? = none) :
    Books Valid past owned raw untraced { env with log := env.log ++ events } := by
  obtain ⟨ha, hr, hl⟩ := nothing_in_quiet hq
  have e : past ++ (env.log ++ events) = (past ++ env.log) ++ events := (List.append_assoc ..).symm
  constructor
  · exact h.toStock
  · rw [e, acquiredIn_append, releasedIn_append, leakedIn_append, ha, hr, hl]
    simpa using h.traced
  · rw [e, acquiredIn_append, ha]
    simpa using h.handedOut

/-- A wrapper takes over a handle that was raw. -/
theorem Books.acquire {x : Holding} (h : Books Valid past owned (x ::ₘ raw) untraced env) :
    Books Valid past (x ::ₘ owned) raw untraced
      { env with log := env.log ++ [.acquired x.kind x.handle] } := by
  have e : past ++ (env.log ++ [.acquired x.kind x.handle]) =
    (past ++ env.log) ++ [.acquired x.kind x.handle] := (List.append_assoc ..).symm
  have ha : acquiredIn [.acquired x.kind x.handle] = {x.face} := rfl
  have hr : releasedIn [.acquired x.kind x.handle] = 0 := rfl
  have hl : leakedIn [.acquired x.kind x.handle] = 0 := rfl
  constructor
  · have hs := h.toStock
    rwa [Multiset.add_cons, ← Multiset.cons_add] at hs
  · rw [e, acquiredIn_append, releasedIn_append, leakedIn_append, h.traced, ha, hr, hl, add_zero,
      add_zero, Multiset.map_cons, ← Multiset.singleton_add]
    ac_rfl
  · rw [e, acquiredIn_append, h.handedOut, ha, Multiset.map_cons, ← Multiset.singleton_add]
    ac_rfl

/-- A handle is being given back, and the log tells so already. -/
def Leaving (Valid : V → Multiset Holding → Prop) (past : List Event) (x : Holding)
    (owned raw untraced : Multiset Holding) (env : Env (Journal α V)) : Prop :=
  ∃ log e, env.log = log ++ [e] ∧ (e = .released x.kind x.handle ∨ e = .leaked x.kind x.handle) ∧
    Books Valid past (x ::ₘ owned) raw untraced ⟨env.world, log⟩

section Moves

variable (hc : Custody libs Valid) {E : HostFailure → Env (Journal α V) → Prop}

omit hc in
theorem meets_report {e : Event} (he : e.face? = none) :
    Meets (Books Valid past owned raw untraced) (Action.report e)
      (fun _ => Books Valid past owned raw untraced) E := by
  intro env h
  exact h.quiet (by simpa using he)

omit hc in
theorem meets_acquire {library : LibraryId} {kind : ResourceKind} {h : Handle} :
    Meets (Books Valid past owned (⟨library, kind, h⟩ ::ₘ raw) untraced)
      (Host.Owned.acquire kind library h) (fun o env => o = ⟨kind, library, some h⟩ ∧
        Books Valid past (⟨library, kind, h⟩ ::ₘ owned) raw untraced env) E := by
  intro env hb
  exact ⟨rfl, hb.acquire⟩

include hc

/-- A call that gives nothing back adds to what is raw. -/
theorem meets_call {library : LibraryId} (c : Call α) (hr : c.Representable)
    (hb : c.Backed library (owned + raw))
    (hn : ∀ reply, Exchange.returned ⟨library, c, reply⟩ = 0) :
    Meets (Books Valid past owned raw untraced) (Action.call (libs.journaled library) c)
      (fun reply env => c.Honest reply ∧
        Books Valid past owned (Exchange.gained ⟨library, c, reply⟩ + raw) untraced env) E := by
  intro env h
  have hs := h.toStock.call hc hr hb
  rw [Exchange.onto, hn, Multiset.sub_zero, add_left_comm] at hs
  have hb' : Books Valid past owned
      (Exchange.gained ⟨library, c, ((libs library).answer c env.world.world).1⟩ + raw) untraced
      ⟨((libs.journaled library).answer c env.world).2.1, env.log⟩ := by
    refine ⟨hs, h.traced, ?_⟩
    show (_ + handedOutBy env.world.calls).map Holding.face = _
    rw [Multiset.map_add, h.handedOut, Multiset.map_add]
    ac_rfl
  exact ⟨hc.honest library c h.valid hr hb, hb'.quiet (hc.quiet library c env.world.world)⟩

omit hc in
theorem onto_release {library : LibraryId} {kind : ResourceKind} {h : Handle}
    {reply : (Call.release kind (some h) : Call α).Reply} {held : Multiset Holding} :
    Exchange.onto ⟨library, .release kind (some h), reply⟩ (⟨library, kind, h⟩ ::ₘ held) =
      held := by
  simp [Exchange.onto, Exchange.gained, Exchange.returned, Call.handedOut, Multiset.sub_singleton]

omit hc in
theorem handedOutBy_release {library : LibraryId} {kind : ResourceKind} {h : Option Handle}
    {reply : (Call.release kind h : Call α).Reply} {calls : List (Exchange α)} :
    handedOutBy (⟨library, .release kind h, reply⟩ :: calls) = handedOutBy calls :=
  Multiset.zero_add _

/-- Giving a handle back makes it one less that is held. -/
theorem Stock.release {x : Holding} {j : Journal α V} (h : Stock Valid (x ::ₘ held) j) :
    Stock Valid held
      ((libs.journaled x.library).answer (.release x.kind (some x.handle)) j).2.1 := by
  have hb : (Call.release x.kind (some x.handle) : Call α).Backed x.library (x ::ₘ held) := by
    intro a ha
    obtain rfl := List.mem_singleton.1 ha
    exact ⟨x.handle, rfl, Multiset.mem_cons_self _ _⟩
  have hs := h.call hc (c := .release x.kind (some x.handle)) trivial hb
  rwa [onto_release] at hs

omit hc in
theorem meets_reportLeaving {x : Holding} {e : Event}
    (he : e = .released x.kind x.handle ∨ e = .leaked x.kind x.handle) :
    Meets (Books Valid past (x ::ₘ owned) raw untraced) (Action.report e)
      (fun _ => Leaving Valid past x owned raw untraced) E := by
  intro env h
  exact ⟨env.log, e, rfl, he, h⟩

/-- Gives a handle back that a wrapper owned. -/
theorem meets_release {x : Holding} :
    Meets (Leaving Valid past x owned raw untraced)
      (Action.call (libs.journaled x.library) (.release x.kind (some x.handle)))
      (fun _ => Books Valid past owned raw untraced) E := by
  rintro ⟨j, -⟩ ⟨log, e, rfl, he, h⟩
  have hs : Stock Valid (x ::ₘ (owned + raw)) j := Multiset.cons_add .. ▸ h.toStock
  have ha : acquiredIn [e] = 0 := by
    rcases he with rfl | rfl <;> rfl
  have hg : releasedIn [e] + leakedIn [e] = {x.face} := by
    rcases he with rfl | rfl <;> rfl
  have hl : past ++ (log ++ [e]) = (past ++ log) ++ [e] := (List.append_assoc ..).symm
  have hb : Books Valid past owned raw untraced
      ⟨((libs.journaled x.library).answer (.release x.kind (some x.handle)) j).2.1,
        log ++ [e]⟩ := by
    refine ⟨hs.release hc, ?_, ?_⟩
    · rw [hl, acquiredIn_append, releasedIn_append, leakedIn_append, ha, add_zero, h.traced,
        Multiset.map_cons, ← Multiset.singleton_add, ← hg]
      ac_rfl
    · rw [hl, acquiredIn_append, ha, add_zero, ← h.handedOut]
      exact congrArg _ handedOutBy_release
  exact hb.quiet (hc.quiet x.library _ j.world)

/-- Gives a raw handle back; the log does not tell. -/
theorem meets_releaseRaw {library : LibraryId} {kind : ResourceKind} {h : Handle} :
    Meets (Books Valid past owned (⟨library, kind, h⟩ ::ₘ raw) untraced)
      (Action.call (libs.journaled library) (.release kind (some h)))
      (fun _ => Books Valid past owned raw (⟨library, kind, h⟩ ::ₘ untraced)) E := by
  intro env hb
  have hs : Stock Valid (⟨library, kind, h⟩ ::ₘ (owned + raw)) env.world :=
    Multiset.add_cons .. ▸ hb.toStock
  have hb' : Books Valid past owned raw (⟨library, kind, h⟩ ::ₘ untraced)
      ⟨((libs.journaled library).answer (.release kind (some h)) env.world).2.1, env.log⟩ := by
    refine ⟨hs.release hc, hb.traced, ?_⟩
    refine (congrArg _ handedOutBy_release).trans (hb.handedOut.trans ?_)
    · rw [Multiset.map_cons, Multiset.map_cons, Multiset.add_cons, Multiset.add_cons,
        Multiset.cons_add]
  exact hb'.quiet (hc.quiet library _ env.world.world)

end Moves

end DiffTensor
