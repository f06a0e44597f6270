import DiffTensor.Proofs.ErrorChannel
import DiffTensor.Proofs.Serving

/-!
# Operations that say why they fail

An operation of the host that is refused says why (`Candid`). Either the host has found the reason
itself, and all calls that it made went well; or one of its calls has failed, and the error has the
status of that very call and the text that could be read directly after it, whatever was called
later on, as when handles are given back (`Cause`). This holds with any libraries.
-/

namespace DiffTensor

variable {α V β γ : Type}

/-- The error that a failed call comes to, by its status. -/
def CallSite.failure (site : CallSite) (status : Status) (text : String) : HostError :=
  if status = .shapeMismatch then .shapeMismatch site.operation site.left site.right
  else if status = .unsupportedRank then
    .unsupportedRank site.operation (max site.left.length site.right.length)
  else if status = .autograd then .autograd text
  else .library site.operation status text

/-- The host has found the reason itself. -/
def HostError.Own : HostError → Prop
  | autograd _ | library .. => False
  | _ => True

theorem Action.statusError_eq (library : Library α V) (site : CallSite) (status : Status) :
    (statusError library site status : Action V β) =
      errorText library >>= fun text => refuse (site.failure status text) := by
  refine congrArg _ (funext fun text => ?_)
  unfold CallSite.failure
  split_ifs <;> rfl

/-- The check fails for reasons of the host only. -/
def Local (check : Except HostError β) : Prop := ∀ reason, check = .error reason → reason.Own

/-! ## What is said between host and libraries -/

/-- The call did not report a failure. -/
def Exchange.Fine (x : Exchange α) : Prop :=
  ∀ status, x.call.status? x.reply = some status → status = .success

/-- The call has reported success, but has not handed out the object that it was to make. -/
def Exchange.Hollow (x : Exchange α) : Prop :=
  ∃ library body made, x = ⟨library, .create body true, made⟩ ∧ made.status = some .success ∧
    made.handle = none

/-- A call, with its reply. -/
def Libraries.exchange (libs : Libraries α V) (library : LibraryId) (c : Call α) (v : V) :
    Exchange α := ⟨library, c, ((libs library).answer c v).1⟩

/-- The text that is read as the last error. -/
def Library.tells (library : Library α V) (v : V) : String := (library.errorText ⟨v, []⟩).1

/-- Calls lead from one world to another; the first comes first. -/
inductive Talk (libs : Libraries α V) : V → List (Exchange α) → V → Prop
  | nil {v : V} : Talk libs v [] v
  | cons {v v' : V} (library : LibraryId) (c : Call α) {calls : List (Exchange α)} :
    Talk libs ((libs library).answer c v).2.1 calls v' →
      Talk libs v (libs.exchange library c v :: calls) v'

variable {libs : Libraries α V} {v v' v'' : V} {calls calls' : List (Exchange α)}

theorem Talk.append (h : Talk libs v calls v') (h' : Talk libs v' calls' v'') :
    Talk libs v (calls ++ calls') v'' := by
  induction h with
  | nil => exact h'
  | cons library c _ ih => exact .cons library c (ih h')

/-- Why an operation was refused in the course of its calls. -/
inductive Cause (libs : Libraries α V) (v : V) (calls : List (Exchange α)) : HostError → Prop
  /-- The host has found a reason, though no call has failed. -/
  | own {reason : HostError} (fine : ∀ x ∈ calls, x.Fine) (own : reason.Own) :
    Cause libs v calls reason
  /-- A call has failed, the first one that did, and what it left as the last error was read. -/
  | told {earlier later : List (Exchange α)} {v' : V} {library : LibraryId} {c : Call α}
    {status : Status} (site : CallSite)
    (split : calls = earlier ++ libs.exchange library c v' :: later)
    (talk : Talk libs v earlier v') (fine : ∀ x ∈ earlier, x.Fine)
    (reported : c.status? ((libs library).answer c v').1 = some status)
    (failed : status ≠ .success) :
    Cause libs v calls
      (site.failure status ((libs library).tells ((libs library).answer c v').2.1))
  /-- An object was missing. -/
  | hollow {x : Exchange α} (operation : String) (made : x ∈ calls) (missing : x.Hollow) :
    Cause libs v calls
      (.library operation .internal "native library returned a null handle")

/-- What an operation comes to says how its calls went. -/
def Accounts (libs : Libraries α V) (v : V) (calls : List (Exchange α)) :
    Except HostFailure β → Prop
  | .ok _ => ∀ x ∈ calls, x.Fine
  | .error (.refused reason) => Cause libs v calls reason
  | .error (.crashed _) => True

theorem forall_mem_append_of {P : Exchange α → Prop} (h : ∀ x ∈ calls, P x)
    (h' : ∀ x ∈ calls', P x) : ∀ x ∈ calls ++ calls', P x := fun x hx =>
  (List.mem_append.1 hx).elim (h x) (h' x)

/-- Calls that went well may come before. -/
theorem Cause.after {reason : HostError} (ht : Talk libs v calls v') (hf : ∀ x ∈ calls, x.Fine)
    (h : Cause libs v' calls' reason) : Cause libs v (calls ++ calls') reason := by
  cases h with
  | own fine own => exact .own (forall_mem_append_of hf fine) own
  | told site split talk fine reported failed =>
    exact .told site ((congrArg (calls ++ ·) split).trans (List.append_assoc ..).symm)
      (ht.append talk) (forall_mem_append_of hf fine) reported failed
  | hollow operation made missing =>
    exact .hollow operation (List.mem_append_right _ made) missing

/-- Calls that cannot fail may come afterwards. -/
theorem Cause.before {reason : HostError} (h : Cause libs v calls reason)
    (hf : ∀ x ∈ calls', x.Fine) : Cause libs v (calls ++ calls') reason := by
  cases h with
  | own fine own => exact .own (forall_mem_append_of fine hf) own
  | told site split talk fine reported failed =>
    exact .told site ((congrArg (· ++ calls') split).trans (List.append_assoc ..)) talk fine
      reported failed
  | hollow operation made missing =>
    exact .hollow operation (List.mem_append_left _ made) missing

theorem Accounts.after {r : Except HostFailure β} (ht : Talk libs v calls v')
    (hf : ∀ x ∈ calls, x.Fine) (h : Accounts libs v' calls' r) :
    Accounts libs v (calls ++ calls') r := by
  rcases r with (reason | cause) | x
  · exact Cause.after ht hf h
  · trivial
  · exact forall_mem_append_of hf h

/-! ## Computations that talk -/

/-- The computation makes calls, and what they were and what it comes to are as `R` says. -/
def Speaks {ε σ : Type} (libs : Libraries α V) (world : σ → V) (a : ExceptT ε (StateM σ) β)
    (R : V → List (Exchange α) → Except ε β → Prop) : Prop :=
  ∀ s, ∃ calls, Talk libs (world s) calls (world (a s).2) ∧ R (world s) calls (a s).1

namespace Speaks

variable {ε σ : Type} {world : σ → V} {a : ExceptT ε (StateM σ) γ}
  {k : γ → ExceptT ε (StateM σ) β} {R : V → List (Exchange α) → Except ε γ → Prop}
  {S T : V → List (Exchange α) → Except ε β → Prop}

theorem imp {a : ExceptT ε (StateM σ) β} (ha : Speaks libs world a S)
    (h : ∀ v calls r, S v calls r → T v calls r) : Speaks libs world a T := fun s =>
  let ⟨calls, ht, hr⟩ := ha s
  ⟨calls, ht, h _ _ _ hr⟩

/-- One computation after the other. -/
theorem bind (ha : Speaks libs world a R) (hk : ∀ x, Speaks libs world (k x) S)
    (hok : ∀ {v calls v' calls' x r}, Talk libs v calls v' → R v calls (.ok x) → S v' calls' r →
      T v (calls ++ calls') r)
    (herror : ∀ {v calls e}, R v calls (.error e) → T v calls (.error e)) :
    Speaks libs world (a >>= k) T := by
  intro s
  obtain ⟨calls, ht, hr⟩ := ha s
  rcases hs : a s with ⟨e | x, s'⟩ <;> rw [hs] at ht hr
  · rw [bind_of_error hs]
    exact ⟨calls, ht, herror hr⟩
  · rw [bind_of_ok hs]
    obtain ⟨calls', ht', hr'⟩ := hk x s'
    exact ⟨calls ++ calls', ht.append ht', hok ht hr hr'⟩

end Speaks

/-- An operation whose outcome says how its calls went. -/
abbrev Candid (libs : Libraries α V) (a : Action V β) : Prop :=
  Speaks libs Env.world a (Accounts libs)

/-- An operation that does not fail, and makes only calls that cannot. -/
abbrev Unfailing (libs : Libraries α V) (a : Action V β) : Prop :=
  Speaks libs Env.world a fun _ calls r => (∀ x ∈ calls, x.Fine) ∧ ∃ x, r = .ok x

/-- An operation that fails in a given way, after calls that cannot fail. -/
abbrev Passes (libs : Libraries α V) (failure : HostFailure) (a : Action V β) : Prop :=
  Speaks libs Env.world a fun _ calls r => (∀ x ∈ calls, x.Fine) ∧ r = .error failure

namespace Candid

variable {a : Action V γ} {k : γ → Action V β}

theorem pure {x : β} : Candid libs (Pure.pure x : Action V β) :=
  fun _ => ⟨[], .nil, List.forall_mem_nil _⟩

theorem bind (ha : Candid libs a) (hk : ∀ x, Candid libs (k x)) : Candid libs (a >>= k) := by
  refine Speaks.bind ha hk (fun ht hf h => h.after ht hf) fun {v calls e} h => ?_
  cases e <;> exact h

theorem crash {cause : Crash} : Candid libs (Action.crash cause : Action V β) :=
  fun _ => ⟨[], .nil, trivial⟩

theorem refuse {reason : HostError} (h : reason.Own) :
    Candid libs (Action.refuse reason : Action V β) :=
  fun _ => ⟨[], .nil, .own (List.forall_mem_nil _) h⟩

theorem of_unfailing {a : Action V β} (ha : Unfailing libs a) : Candid libs a := by
  refine Speaks.imp ha fun v calls r h => ?_
  obtain ⟨hf, x, rfl⟩ := h
  exact hf

/-- A failure is taken as a result, and then goes on. -/
theorem attempt {k : Except HostFailure γ → Action V β} {P : γ → Prop} (ha : Candid libs a)
    (hP : Meets (fun _ => True) a (fun x _ => P x) fun _ _ => True)
    (hok : ∀ x, P x → Candid libs (k (.ok x)))
    (hrefused : ∀ reason, Passes libs (.refused reason) (k (.error (.refused reason))))
    (hcrashed : ∀ cause, Passes libs (.crashed cause) (k (.error (.crashed cause)))) :
    Candid libs (a.attempt >>= k) := by
  intro env
  obtain ⟨calls, ht, hr⟩ := ha env
  have hP := hP env trivial
  rcases henv : a env with ⟨r, env'⟩
  rw [henv] at ht hr hP
  have heq : (a.attempt >>= k) env = k r env' := by
    refine bind_of_ok ?_ k
    show (Except.ok (a env).1, (a env).2) = _
    rw [henv]
  rw [heq]
  rcases r with (reason | cause) | x
  · obtain ⟨calls', ht', hf, hr'⟩ := hrefused reason env'
    exact ⟨calls ++ calls', ht.append ht', hr' ▸ Cause.before hr hf⟩
  · obtain ⟨calls', ht', hf, hr'⟩ := hcrashed cause env'
    exact ⟨calls ++ calls', ht.append ht', hr' ▸ trivial⟩
  · obtain ⟨calls', ht', hr'⟩ := hok x hP env'
    exact ⟨calls ++ calls', ht.append ht', hr'.after ht hr⟩

end Candid

namespace Unfailing

variable {a : Action V γ} {k : γ → Action V β}

theorem pure {x : β} : Unfailing libs (Pure.pure x : Action V β) :=
  fun _ => ⟨[], .nil, List.forall_mem_nil _, x, rfl⟩

theorem bind (ha : Unfailing libs a) (hk : ∀ x, Unfailing libs (k x)) :
    Unfailing libs (a >>= k) :=
  Speaks.bind ha hk (fun _ h h' => ⟨forall_mem_append_of h.1 h'.1, h'.2⟩) fun h => nomatch h.2

/-- What cannot fail leaves the failure that goes on. -/
theorem passes {failure : HostFailure} (ha : Unfailing libs a)
    (hk : ∀ x, Passes libs failure (k x)) : Passes libs failure (a >>= k) :=
  Speaks.bind ha hk (fun _ h h' => ⟨forall_mem_append_of h.1 h'.1, h'.2⟩) fun h => nomatch h.2

end Unfailing

theorem passes_throw {failure : HostFailure} :
    Passes libs failure (throw failure : Action V β) :=
  fun _ => ⟨[], .nil, List.forall_mem_nil _, rfl⟩

/-- Nothing is said of what a computation comes to. -/
theorem meets_anything {ε σ : Type} {P : σ → Prop} {a : ExceptT ε (StateM σ) β} :
    Meets P a (fun _ _ => True) fun _ _ => True := by
  intro s _
  rcases a s with ⟨_ | _, _⟩ <;> trivial

/-! ## Operations of the host -/

variable {library : LibraryId}

namespace Action

theorem unfailing_report (e : Event) : Unfailing libs (report e) :=
  fun _ => ⟨[], .nil, List.forall_mem_nil _, (), rfl⟩

/-- A call that reports no status. -/
theorem unfailing_call {c : Call α} (hc : ∀ reply, c.status? reply = none) :
    Unfailing libs (call (libs library) c) := by
  intro env
  refine ⟨[libs.exchange library c env.world], .cons library c .nil, ?_, _, rfl⟩
  intro x hx status hs
  obtain rfl := List.mem_singleton.1 hx
  exact nomatch (hc _).symm.trans hs

theorem candid_check {check : Except HostError β} (h : Local check) :
    Candid libs (Action.check check) := by
  cases check with
  | ok x => exact .pure
  | error reason => exact .refuse (h reason rfl)

theorem candid_reserve (length : Nat) : Candid libs (reserve length) := by
  unfold reserve
  split
  · exact .pure
  · exact .crash

theorem unfailing_errorText : Unfailing libs (errorText (libs library)) := by
  rw [errorText_eq]
  refine .bind (unfailing_call fun _ => rfl) fun full => ?_
  split
  · exact .pure
  · exact .bind (unfailing_call fun _ => rfl) fun _ => .pure

theorem errorText_apply (libs : Libraries α V) (library : LibraryId) (env : Env V) :
    (errorText (libs library) env).1 = .ok ((libs library).tells env.world) := by
  show Except.ok (((libs library).errorText env).1) = _
  rw [Library.tells, Library.errorText_apply, Library.errorText_apply]
  dsimp only
  split_ifs with h h' h'
  · rfl
  · exact absurd h h'
  · exact absurd h' h
  · rfl

/-- A call whose status is checked, and what is done after a success. -/
theorem speaks_checked {c : Call α} {site : CallSite} {f : c.Reply → Status}
    (hf : ∀ reply, c.status? reply = some (f reply)) {k : c.Reply → Action V β}
    (hk : ∀ reply, f reply = .success → Speaks libs Env.world (k reply)
      fun v calls r => ∀ v', Talk libs v' [⟨library, c, reply⟩] v →
        Accounts libs v' (⟨library, c, reply⟩ :: calls) r) :
    Candid libs (call (libs library) c >>= fun reply =>
      checkStatus (libs library) site (f reply) >>= fun _ => k reply) := by
  intro env
  let x := libs.exchange library c env.world
  have hone : Talk libs env.world [x] ((libs library).answer c env.world).2.1 :=
    .cons library c .nil
  have hcall : call (libs library) c env = (.ok x.reply, ((libs library).call c env).2) := rfl
  rw [bind_of_ok hcall]
  by_cases hs : f x.reply = .success
  · obtain ⟨calls, ht, hr⟩ := hk x.reply hs ((libs library).call c env).2
    rw [checkStatus, if_pos hs, pure_bind]
    exact ⟨x :: calls, hone.append ht, hr env.world hone⟩
  · rw [checkStatus, if_neg hs, statusError_eq]
    have hread : Unfailing libs (errorText (libs library)) := unfailing_errorText
    obtain ⟨reads, ht, -, -⟩ := hread ((libs library).call c env).2
    have htext := errorText_apply libs library ((libs library).call c env).2
    rcases he : errorText (libs library) ((libs library).call c env).2 with ⟨r, env'⟩
    rw [he] at ht htext
    obtain rfl : r = _ := htext
    rw [bind_of_error (bind_of_ok he _)]
    exact ⟨x :: reads, hone.append ht, .told site rfl .nil (List.forall_mem_nil _) (hf _) hs⟩

/-- A call whose status is checked, and an operation after it. -/
theorem candid_checked {c : Call α} {site : CallSite} {f : c.Reply → Status}
    (hf : ∀ reply, c.status? reply = some (f reply)) {k : c.Reply → Action V β}
    (hk : ∀ reply, Candid libs (k reply)) :
    Candid libs (call (libs library) c >>= fun reply =>
      checkStatus (libs library) site (f reply) >>= fun _ => k reply) := by
  refine speaks_checked hf fun reply hs => (hk reply).imp fun v calls r hr v' ht => ?_
  refine hr.after ht fun x hx status hstatus => ?_
  obtain rfl := List.mem_singleton.1 hx
  exact (Option.some.inj ((hf reply).symm.trans hstatus)).symm.trans hs

theorem candid_checkStatus {c : Call α} {site : CallSite} {f : c.Reply → Status}
    (hf : ∀ reply, c.status? reply = some (f reply)) :
    Candid libs (call (libs library) c >>= fun reply =>
      checkStatus (libs library) site (f reply)) := by
  have h : Candid libs (call (libs library) c >>= fun reply =>
      checkStatus (libs library) site (f reply) >>= fun _ => (Pure.pure () : Action V Unit)) :=
    candid_checked hf fun _ => .pure
  simpa only [bind_pure_unit] using h

theorem candid_create (site : CallSite) (c : Creation α Handle) :
    Candid libs (create (libs library) site c) := by
  refine speaks_checked (fun _ => rfl) fun made hs => ?_
  cases hm : made.handle with
  | some h =>
    refine fun env => ⟨[], .nil, fun v' _ x hx status hstatus => ?_⟩
    obtain rfl := List.mem_singleton.1 hx
    exact (Option.some.inj hstatus).symm.trans hs
  | none =>
    refine fun env => ⟨[], .nil, fun v' _ =>
      .hollow _ (List.mem_singleton.2 rfl) ⟨_, _, made, rfl, ?_, hm⟩⟩
    cases hst : made.status with
    | none =>
      rw [hst] at hs
      cases hs
    | some status =>
      rw [hst] at hs
      exact congrArg some hs

end Action

/-! ## Checks of the host -/

section

variable {check : Except HostError γ}

theorem Local.ok {x : β} : Local (.ok x) := nofun

theorem Local.error {reason : HostError} (h : reason.Own) :
    Local (.error reason : Except HostError β) := by
  rintro _ ⟨⟩
  exact h

theorem Local.bind {f : γ → Except HostError β} (hc : Local check) (hf : ∀ x, Local (f x)) :
    Local (check >>= f) := by
  cases check with
  | ok x => exact hf x
  | error reason => exact .error (hc reason rfl)

theorem Host.Owned.local_handle (o : Host.Owned) : Local o.handle := by
  unfold handle
  split
  · exact .ok
  · exact .error trivial

theorem Host.local_sameLibrary (operation : String) (a b : Host.Owned) :
    Local (sameLibrary operation a b) := by
  unfold sameLibrary
  split
  · exact .ok
  · exact .error trivial

theorem Dims.local_nonNegative (dims : List Int) : Local (nonNegative dims) := by
  unfold nonNegative
  split
  · exact .error trivial
  · exact .ok

theorem Dims.local_checked (dims : List Int) : Local (checked dims) := by
  refine (local_nonNegative dims).bind fun _ => ?_
  split
  · exact .error trivial
  · exact .ok

theorem Dims.local_join (operation : String) (left right : List Int) :
    Local (join operation left right) := by
  unfold join
  split
  · exact .ok
  · exact .error trivial

theorem Dims.local_product (left right : List Int) : Local (product left right) := by
  unfold product
  split
  · split
    · exact .ok
    · exact .error trivial
  · exact .error trivial
  · exact .error trivial

theorem Dims.local_transposed (dims : List Int) : Local (transposed dims) := by
  unfold transposed
  split
  · exact .ok
  · exact .ok
  · exact .ok
  · exact .error trivial

theorem BinaryOp.local_resultShape (op : BinaryOp) (left right : List Int) :
    Local (op.resultShape left right) := by
  cases op with
  | matmul => exact Dims.local_product left right
  | _ => exact Dims.local_join _ left right

theorem UnaryOp.local_resultShape (op : UnaryOp) (dims : List Int) :
    Local (op.resultShape dims) := by
  cases op with
  | transpose => exact Dims.local_transposed dims
  | _ => exact .ok

namespace Host

theorem Tensor.local_shapeOfValues (count : Nat) (dims : Option (List Int)) :
    Local (shapeOfValues count dims) := by
  unfold shapeOfValues
  split
  · exact .ok
  · split
    · exact .error trivial
    · refine (Dims.local_nonNegative _).bind fun _ => ?_
      split
      · exact .ok
      · exact .error trivial

theorem Layer.local_checkFeatures (inputs outputs : Nat) :
    Local (checkFeatures inputs outputs) := by
  unfold checkFeatures
  split_ifs
  · exact .error trivial
  · exact .error trivial
  · exact .ok

theorem Layer.local_checkInput (l : Layer) (dims : List Int) : Local (l.checkInput dims) := by
  unfold checkInput
  split_ifs
  · exact .error trivial
  · exact .ok
  · exact .error trivial

theorem Optimizer.local_parameterHandles (library : LibraryId) :
    ∀ params : List Tensor, Local (parameterHandles library params)
  | [] => .ok
  | t :: rest => by
    refine t.owned.local_handle.bind fun _ => ?_
    split
    · exact .error trivial
    · exact (local_parameterHandles library rest).bind fun _ => .ok

theorem Optimizer.local_someParameterHandles (library : LibraryId) (params : List Tensor) :
    Local (someParameterHandles library params) := by
  refine (local_parameterHandles library params).bind fun _ => ?_
  split
  · exact .error trivial
  · exact .ok

end Host

section

variable [Scalar α]

theorem local_checkRate (rate : α) : Local (checkRate rate) := by
  unfold checkRate
  split
  · exact .ok
  · exact .error trivial

theorem local_checkDecay (setting : String) (value : α) : Local (checkDecay setting value) := by
  unfold checkDecay
  split
  · exact .ok
  · exact .error trivial

theorem local_checkNonNegative (setting : String) (value : α) :
    Local (checkNonNegative setting value) := by
  unfold checkNonNegative
  split
  · exact .ok
  · exact .error trivial

theorem AdamRates.local_check (r : AdamRates α) : Local r.check :=
  (local_checkRate _).bind fun _ => (local_checkDecay _ _).bind fun _ =>
    (local_checkDecay _ _).bind fun _ => (local_checkNonNegative _ _).bind fun _ =>
      local_checkNonNegative _ _

theorem SgdRates.local_check (r : SgdRates α) : Local r.check :=
  (local_checkRate _).bind fun _ => (local_checkNonNegative _ _).bind fun _ =>
    local_checkNonNegative _ _

end

end

namespace Host

open DiffTensor.Action

namespace Owned

theorem unfailing_release {o : Owned} {h : Handle} (hh : o.held = some h) :
    Unfailing libs (o.release libs) := by
  unfold release
  rw [Owned.handle_eq_ok.2 hh, Action.check_ok, pure_bind]
  exact .bind (unfailing_report _) fun _ => .bind (unfailing_call fun _ => rfl) fun _ => .pure

theorem unfailing_discard (o : Owned) : Unfailing libs (o.discard libs) := by
  unfold discard
  split
  · exact .pure
  · exact .bind (unfailing_report _) fun _ => unfailing_call fun _ => rfl

theorem candid_release (o : Owned) : Candid libs (o.release libs) :=
  .bind (candid_check o.local_handle) fun _ => .of_unfailing <|
    .bind (unfailing_report _) fun _ => .bind (unfailing_call fun _ => rfl) fun _ => .pure

theorem candid_whileHolding {o : Owned} {h : Handle} (hh : o.held = some h) {a : Action V β}
    (ha : Candid libs a) : Candid libs (o.whileHolding libs a) :=
  .attempt ha meets_anything (fun _ _ => .pure)
    (fun _ => (unfailing_release hh).passes fun _ => passes_throw)
    fun _ => (unfailing_discard o).passes fun _ => passes_throw

end Owned

namespace Tensor

theorem candid_queryShape (h : Handle) : Candid libs (queryShape (libs library) h) :=
  .bind (.of_unfailing (unfailing_call fun _ => rfl)) fun _ => .bind (candid_reserve _) fun _ =>
    candid_checked (fun _ => rfl) fun _ => .pure

theorem candid_wrap (h : Handle) : Candid libs (wrap libs library h) := by
  unfold wrap Owned.acquire
  rw [bind_assoc]
  refine .bind (.of_unfailing (unfailing_report _)) fun _ => ?_
  rw [pure_bind]
  exact .bind (Owned.candid_whileHolding rfl (candid_queryShape h)) fun _ =>
    .bind (.of_unfailing (unfailing_call fun _ => rfl)) fun _ => .pure

theorem held_wrap (h : Handle) : Meets (fun _ => True) (wrap libs library h)
    (fun t _ => t.owned.held = some h) fun _ _ => True := by
  unfold wrap Owned.acquire
  rw [bind_assoc]
  refine .bind (R := fun _ _ => True) meets_anything fun _ => ?_
  rw [pure_bind]
  exact .bind (R := fun _ _ => True) meets_anything fun _ =>
    .bind (R := fun _ _ => True) meets_anything fun _ => .pure fun _ _ => rfl

theorem candid_create (site : CallSite) (c : Creation α Handle) :
    Candid libs (create libs library site c) :=
  .bind (Action.candid_create _ _) fun h => candid_wrap h

theorem candid_filled (filling : Filling) (dims : List Int) :
    Candid libs (filled libs library filling dims) :=
  .bind (candid_check (Dims.local_checked dims)) fun _ => candid_create _ _

theorem candid_ofValues (values : List α) (dims : Option (List Int)) :
    Candid libs (ofValues libs library values dims) :=
  .bind (candid_check (local_shapeOfValues _ _)) fun _ => candid_create _ _

theorem candid_binary (op : BinaryOp) (a b : Tensor) : Candid libs (binary libs op a b) :=
  .bind (candid_check a.owned.local_handle) fun _ =>
    .bind (candid_check b.owned.local_handle) fun _ =>
      .bind (candid_check (op.local_resultShape _ _)) fun _ =>
        .bind (candid_check (local_sameLibrary _ _ _)) fun _ => candid_create _ _

theorem candid_unary (op : UnaryOp) (a : Tensor) : Candid libs (unary libs op a) :=
  .bind (candid_check a.owned.local_handle) fun _ =>
    .bind (candid_check (op.local_resultShape _)) fun _ => candid_create _ _

theorem candid_copyData [Zero α] (h : Handle) : Candid libs (copyData (libs library) h) :=
  .bind (.of_unfailing (unfailing_call fun _ => rfl)) fun _ => .bind (candid_reserve _) fun _ =>
    candid_checked (fun _ => rfl) fun _ => .pure

theorem candid_values [Zero α] (t : Tensor) : Candid libs (t.values libs) :=
  .bind (candid_check t.owned.local_handle) fun h => candid_copyData h

theorem unfailing_destroy {t : Tensor} {h : Handle} (hh : t.owned.held = some h) :
    Unfailing libs (t.destroy libs) :=
  .bind (Owned.unfailing_release hh) fun _ => .pure

theorem candid_setTracked (t : Tensor) (flag : Bool) : Candid libs (t.setTracked libs flag) :=
  .bind (candid_check t.owned.local_handle) fun _ => candid_checked (fun _ => rfl) fun _ => .pure

theorem candid_backward (t : Tensor) : Candid libs (t.backward libs) :=
  .bind (candid_check t.owned.local_handle) fun _ =>
    .bind (.of_unfailing (unfailing_report _)) fun _ => candid_checkStatus fun _ => rfl

theorem candid_gradient (t : Tensor) : Candid libs (t.gradient libs) := by
  refine .bind (candid_check t.owned.local_handle) fun _ =>
    .bind (.of_unfailing (unfailing_call fun _ => rfl)) fun g => ?_
  split
  · exact .pure
  · exact .bind (candid_wrap _) fun _ => .pure

end Tensor

namespace Layer

theorem candid_create (inputs outputs : Nat) : Candid libs (create libs library inputs outputs) :=
  .bind (candid_check (local_checkFeatures _ _)) fun _ => .bind (Action.candid_create _ _) fun _ =>
    .bind (.bind (.of_unfailing (unfailing_report _)) fun _ => .pure) fun _ => .pure

theorem candid_forward (l : Layer) (x : Tensor) : Candid libs (l.forward libs x) :=
  .bind (candid_check l.owned.local_handle) fun _ =>
    .bind (candid_check x.owned.local_handle) fun _ =>
      .bind (candid_check (local_sameLibrary _ _ _)) fun _ =>
        .bind (candid_check (l.local_checkInput _)) fun _ => Tensor.candid_create _ _

theorem unfailing_releaseRaw : ∀ handles : List (Option Handle),
    Unfailing libs (releaseRaw libs library handles)
  | [] => .pure
  | _ :: rest => .bind (unfailing_call fun _ => rfl) fun _ => unfailing_releaseRaw rest

theorem unfailing_destroyAll : ∀ {tensors : List Tensor},
    (∀ t ∈ tensors, ∃ h, t.owned.held = some h) → Unfailing libs (destroyAll libs tensors)
  | [], _ => .pure
  | t :: rest, ht => by
    obtain ⟨⟨h, hh⟩, ht⟩ := List.forall_mem_cons.1 ht
    exact .bind (Tensor.unfailing_destroy hh) fun _ => unfailing_destroyAll ht

theorem unfailing_discardAll : ∀ tensors : List Tensor, Unfailing libs (discardAll libs tensors)
  | [] => .pure
  | t :: rest => .bind t.owned.unfailing_discard fun _ => unfailing_discardAll rest

/-- What was wrapped already is given back without fail if a handle cannot be wrapped. -/
theorem candid_wrapAll : ∀ (handles : List (Option Handle)) {wrapped : List Tensor},
    (∀ t ∈ wrapped, ∃ h, t.owned.held = some h) →
      Candid libs (wrapAll libs library wrapped handles)
  | [], _, _ => .pure
  | h :: rest, wrapped, hw => by
    have hraw : Candid libs (wrapRaw libs library h) := by
      cases h with
      | none => exact .crash
      | some h => exact Tensor.candid_wrap h
    have hheld : Meets (fun _ => True) (wrapRaw libs library h)
        (fun t _ => ∃ k, t.owned.held = some k) fun _ _ => True := by
      cases h with
      | none => exact .throw fun _ _ => trivial
      | some k => exact (Tensor.held_wrap k).imp_result fun t _ ht => ⟨k, ht⟩
    refine .attempt hraw hheld (fun t ht => candid_wrapAll rest ?_)
      (fun _ => (unfailing_releaseRaw rest).passes fun _ =>
        (unfailing_destroyAll hw).passes fun _ => passes_throw)
      fun _ => (unfailing_discardAll wrapped).passes fun _ => passes_throw
    intro u hu
    rcases List.mem_append.1 hu with hu | hu
    · exact hw u hu
    · exact List.mem_singleton.1 hu ▸ ht

theorem candid_parameters (l : Layer) : Candid libs (l.parameters libs) :=
  .bind (candid_check l.owned.local_handle) fun _ =>
    .bind (.of_unfailing (unfailing_call fun _ => rfl)) fun _ => .bind (candid_reserve _) fun _ =>
      candid_checked (fun _ => rfl) fun _ => candid_wrapAll _ nofun

end Layer

namespace Optimizer

theorem candid_create (kind : OptimizerKind) (rate : α) (handles : List Handle)
    (c : Creation α Handle) : Candid libs (create libs library kind rate handles c) :=
  .bind (Action.candid_create _ _) fun _ => .bind (.of_unfailing (unfailing_report _)) fun _ =>
    .bind (.bind (.of_unfailing (unfailing_report _)) fun _ => .pure) fun _ => .pure

theorem candid_adam [Scalar α] (params : List Tensor) (rates : AdamRates α) :
    Candid libs (adam libs library params rates) :=
  .bind (candid_check rates.local_check) fun _ =>
    .bind (candid_check (local_someParameterHandles _ _)) fun _ => candid_create _ _ _ _

theorem candid_sgd [Scalar α] (params : List Tensor) (rates : SgdRates α) :
    Candid libs (sgd libs library params rates) :=
  .bind (candid_check rates.local_check) fun _ =>
    .bind (candid_check (local_someParameterHandles _ _)) fun _ => candid_create _ _ _ _

theorem candid_step (o : Optimizer α) : Candid libs (o.step libs) :=
  .bind (candid_check o.owned.local_handle) fun _ =>
    .bind (.of_unfailing (unfailing_report _)) fun _ => candid_checkStatus fun _ => rfl

theorem candid_clearGradients (o : Optimizer α) : Candid libs (o.clearGradients libs) :=
  .bind (candid_check o.owned.local_handle) fun _ => candid_checkStatus fun _ => rfl

end Optimizer

end Host

end DiffTensor
