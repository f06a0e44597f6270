import DiffTensor.Library.Rehearsal
import DiffTensor.Proofs.HostLayer
import DiffTensor.Proofs.Refusal

/-!
# Exporting parameters

The parameters of a layer come as raw handles, and each of them is asked for its shape before it
has a wrapper. Any of these questions may fail. The handles are given back in three ways then: those
behind the failing one as they are, that one while it is being wrapped, and those before it by
destroying their wrappers.

Nothing is assumed of the library here. What is given back is read off the journal of the calls
(`Ledger`), and what the questions come to is told by asking them alone (`Tensor.inspect`).
-/

namespace DiffTensor

variable {α V : Type}

/-- All that calls gave back. -/
def givenBackBy : List (Exchange α) → Multiset Holding
  | [] => 0
  | x :: earlier => x.returned + givenBackBy earlier

/-- Since these calls, exactly this has been given back. -/
def Ledger (start : List (Exchange α)) (given : Multiset Holding) (env : Env (Journal α V)) :
    Prop :=
  ∃ calls, env.world.calls = calls ++ start ∧ givenBackBy calls = given

namespace Meets

variable {ε σ β : Type} {P : σ → Prop} {a : ExceptT ε (StateM σ) β} {Q : β → σ → Prop}
  {E : ε → σ → Prop} {s s' : σ}

theorem of_ok {x : β} (h : Meets P a Q E) (hs : P s) (ha : a s = (.ok x, s')) : Q x s' := by
  have hm := h s hs
  rw [ha] at hm
  exact hm

theorem of_error {e : ε} (h : Meets P a Q E) (hs : P s) (ha : a s = (.error e, s')) : E e s' := by
  have hm := h s hs
  rw [ha] at hm
  exact hm

/-- Where no failure is possible there is a result. -/
theorem exists_result (h : Meets P a Q fun _ _ => False) (hs : P s) :
    ∃ x s', a s = (.ok x, s') ∧ Q x s' := by
  rcases ha : a s with ⟨e | x, s'⟩
  · exact (h.of_error hs ha).elim
  · exact ⟨x, s', rfl, h.of_ok hs ha⟩

end Meets

theorem Action.attempt_of {W β : Type} {action : Action W β} {env env' : Env W}
    {result : Except HostFailure β} (h : action env = (result, env')) :
    action.attempt env = (.ok result, env') := by
  show (Except.ok (action env).1, (action env).2) = _
  rw [h]

namespace Ledger

open Host

variable {libs : Libraries α V} {library : LibraryId} {start : List (Exchange α)}
  {given : Multiset Holding} {β : Type} {E : HostFailure → Env (Journal α V) → Prop}

theorem refl (env : Env (Journal α V)) : Ledger env.world.calls 0 env := ⟨[], rfl, rfl⟩

/-! ## Calls -/

theorem meets_call (c : Call α) : Meets (Ledger start given)
    (Action.call (libs.journaled library) c)
    (fun reply env => Ledger start (Exchange.returned ⟨library, c, reply⟩ + given) env) E := by
  rintro env ⟨calls, hcalls, hgiven⟩
  refine ⟨⟨library, c, ((libs library).answer c env.world.world).1⟩ :: calls, ?_, ?_⟩
  · show _ :: env.world.calls = _
    rw [hcalls]
    rfl
  · rw [givenBackBy, hgiven]
    rfl

/-- A call that gives nothing back. -/
theorem meets_keeping {c : Call α} (hc : ∀ reply, Exchange.returned ⟨library, c, reply⟩ = 0) :
    Meets (Ledger start given) (Action.call (libs.journaled library) c)
      (fun _ env => Ledger start given env) E := by
  refine (meets_call c).imp_result fun reply env h => ?_
  rw [hc, zero_add] at h
  exact h

theorem meets_report (e : Event) :
    Meets (Ledger (α := α) (V := V) start given) (Action.report e)
      (fun _ env => Ledger start given env) E := fun _ h => h

/-! ## Asking -/

/-- Reading the last error gives nothing back. -/
theorem meets_errorText : Meets (Ledger start given) (Action.errorText (libs.journaled library))
    (fun _ env => Ledger start given env) E := by
  rw [errorText_eq]
  refine Meets.bind (meets_keeping fun _ => rfl) fun full => ?_
  split
  · exact .pure fun _ h => h
  · refine Meets.bind (meets_keeping fun _ => rfl) fun copied => ?_
    exact .pure fun _ h => h

/-- Nor does sorting out what has failed. -/
theorem meets_checkStatus (site : CallSite) (status : Status) :
    Meets (Ledger start given) (Action.checkStatus (libs.journaled library) site status)
      (fun _ env => Ledger start given env) (fun _ env => Ledger start given env) := by
  unfold Action.checkStatus
  split
  · exact .pure fun _ h => h
  · refine Meets.bind meets_errorText fun text => ?_
    split_ifs <;> exact .throw fun _ h => h

theorem meets_reserve (length : Nat) :
    Meets (Ledger (α := α) (V := V) start given) (Action.reserve length)
      (fun _ env => Ledger start given env) (fun _ env => Ledger start given env) := by
  unfold Action.reserve
  split
  · exact .pure fun _ h => h
  · exact .throw fun _ h => h

theorem meets_queryShape (h : Handle) :
    Meets (Ledger start given) (Tensor.queryShape (libs.journaled library) h)
      (fun _ env => Ledger start given env) (fun _ env => Ledger start given env) := by
  refine Meets.bind (meets_keeping fun _ => rfl) fun rank => ?_
  refine Meets.bind (meets_reserve rank) fun _ => ?_
  refine Meets.bind (meets_keeping fun _ => rfl) fun dims => ?_
  refine Meets.bind (meets_checkStatus _ _) fun _ => ?_
  exact .pure fun _ h => h

/-! ## Giving back -/

theorem meets_release {o : Owned} (ho : o.held ≠ none) :
    Meets (Ledger start given) (o.release libs.journaled)
      (fun _ env => Ledger start (o.holdings + given) env) E := by
  obtain ⟨h, hh⟩ := Option.ne_none_iff_exists'.1 ho
  have hx : o.holdings = {⟨o.library, o.kind, h⟩} := by
    rw [Owned.holdings, hh]
  unfold Owned.release
  rw [Owned.handle_eq_ok.2 hh, Action.check_ok, pure_bind, hx]
  refine Meets.bind (meets_report _) fun _ => ?_
  refine Meets.bind (meets_call (.release o.kind (some h))) fun _ => ?_
  exact .pure fun _ hL => hL

theorem meets_discard {o : Owned} (ho : o.held ≠ none) :
    Meets (Ledger start given) (o.discard libs.journaled)
      (fun _ env => Ledger start (o.holdings + given) env) E := by
  obtain ⟨h, hh⟩ := Option.ne_none_iff_exists'.1 ho
  have hx : o.holdings = {⟨o.library, o.kind, h⟩} := by
    rw [Owned.holdings, hh]
  unfold Owned.discard
  rw [hh, hx]
  refine Meets.bind (meets_report _) fun _ => ?_
  exact meets_call (.release o.kind (some h))

theorem meets_destroy {t : Tensor} (ht : t.owned.held ≠ none) :
    Meets (Ledger start given) (t.destroy libs.journaled)
      (fun _ env => Ledger start (t.owned.holdings + given) env) E := by
  refine Meets.bind (meets_release ht) fun _ => ?_
  exact .pure fun _ h => h

theorem meets_releaseRaw : ∀ (handles : List Handle) {given : Multiset Holding},
    Meets (Ledger start given) (Layer.releaseRaw libs.journaled library (handles.map some))
      (fun _ env => Ledger start (rawTensors library handles + given) env) E
  | [], given => by
    refine .pure fun _ h => ?_
    rw [rawTensors, List.map_nil, Multiset.coe_nil, zero_add]
    exact h
  | h :: handles, given => by
    refine Meets.bind (meets_call (.release .tensor (some h))) fun _ => ?_
    refine (meets_releaseRaw handles).imp_result fun _ env hL => ?_
    rw [rawTensors_cons, ← Multiset.singleton_add]
    have he : ({⟨library, .tensor, h⟩} + rawTensors library handles + given : Multiset Holding) =
        rawTensors library handles + ({⟨library, .tensor, h⟩} + given) := by ac_rfl
    rw [he]
    exact hL

/-- Where each tensor is given back, all of them are, one after the other. -/
theorem meets_givingBack {γ : Type} {one : Tensor → Action (Journal α V) γ}
    {all : List Tensor → Action (Journal α V) Unit} (hnil : all [] = pure ())
    (hcons : ∀ t ts, all (t :: ts) = one t >>= fun _ => all ts)
    (hone : ∀ t given, t.owned.held ≠ none → Meets (Ledger start given) (one t)
      (fun _ env => Ledger start (t.owned.holdings + given) env) E) :
    ∀ (ts : List Tensor) {given : Multiset Holding}, (∀ t ∈ ts, t.owned.held ≠ none) →
      Meets (Ledger start given) (all ts) (fun _ env => Ledger start (heldBy ts + given) env) E
  | [], given, _ => by
    rw [hnil]
    refine .pure fun _ h => ?_
    rw [heldBy_nil, zero_add]
    exact h
  | t :: ts, given, ht => by
    obtain ⟨hfirst, hrest⟩ := List.forall_mem_cons.1 ht
    rw [hcons]
    refine Meets.bind (hone t given hfirst) fun _ => ?_
    refine (meets_givingBack hnil hcons hone ts hrest).imp_result fun _ env hL => ?_
    rw [heldBy_cons, add_assoc, add_left_comm]
    exact hL

theorem meets_destroyAll (ts : List Tensor) {given : Multiset Holding}
    (ht : ∀ t ∈ ts, t.owned.held ≠ none) :
    Meets (Ledger start given) (Layer.destroyAll libs.journaled ts)
      (fun _ env => Ledger start (heldBy ts + given) env) E :=
  meets_givingBack rfl (fun _ _ => rfl) (fun _ _ => meets_destroy) ts ht

/-- Tensors that are let go are given back too. -/
theorem meets_discardAll (ts : List Tensor) {given : Multiset Holding}
    (ht : ∀ t ∈ ts, t.owned.held ≠ none) :
    Meets (Ledger start given) (Layer.discardAll libs.journaled ts)
      (fun _ env => Ledger start (heldBy ts + given) env) E :=
  meets_givingBack rfl (fun _ _ => rfl) (fun _ _ => meets_discard) ts ht

/-! ## Wrapping -/

theorem meets_acquire (kind : ResourceKind) (h : Handle) :
    Meets (Ledger (α := α) (V := V) start given) (Owned.acquire kind library h)
      (fun o env => o = ⟨kind, library, some h⟩ ∧ Ledger start given env) E := by
  refine Meets.bind (meets_report _) fun _ => ?_
  exact .pure fun _ hL => ⟨rfl, hL⟩

/-- If something is refused on behalf of an owner, what it holds is given back. -/
theorem meets_whileHolding {o : Owned} (ho : o.held ≠ none) {action : Action (Journal α V) β}
    (ha : Meets (Ledger start given) action (fun _ env => Ledger start given env)
      fun _ env => Ledger start given env) :
    Meets (Ledger start given) (o.whileHolding libs.journaled action)
      (fun _ env => Ledger start given env)
      (fun _ env => Ledger start (o.holdings + given) env) := by
  unfold Owned.whileHolding
  refine Meets.bind (Action.meets_attempt ha) fun result => ?_
  rcases result with (cause | cause) | x
  · refine Meets.bind (meets_release ho) fun _ => ?_
    exact .throw fun _ hL => hL
  · refine Meets.bind (meets_discard ho) fun _ => ?_
    exact .throw fun _ hL => hL
  · exact .pure fun _ hL => hL

theorem meets_wrap (h : Handle) :
    Meets (Ledger start given) (Tensor.wrap libs.journaled library h)
      (fun _ env => Ledger start given env)
      (fun _ env => Ledger start ({⟨library, .tensor, h⟩} + given) env) := by
  refine Meets.bind (meets_acquire .tensor h) fun owned => Meets.assume fun ho => ?_
  subst ho
  refine Meets.bind (meets_whileHolding (Option.some_ne_none h) (meets_queryShape h))
    fun shape => ?_
  refine Meets.bind (meets_keeping fun _ => rfl) fun flag => ?_
  exact .pure fun _ hL => hL

end Ledger

namespace Host

variable {libs : Libraries α V} {library : LibraryId} {start : List (Exchange α)}
  {given : Multiset Holding} {env env' : Env (Journal α V)} {h : Handle}

namespace Owned

variable {β : Type} {o : Owned} {action : Action (Journal α V) β}

theorem whileHolding_ok {x : β} (ha : action env = (.ok x, env')) :
    o.whileHolding libs.journaled action env = (.ok x, env') := by
  rw [whileHolding, bind_of_ok (Action.attempt_of ha)]
  rfl

/-- The failure goes on after the handle has been given back. -/
theorem whileHolding_error {e : HostFailure} (ho : o.held ≠ none)
    (ha : action env = (.error e, env')) :
    ∃ env'', o.whileHolding libs.journaled action env = (.error e, env'') := by
  cases e with
  | refused cause =>
    obtain ⟨o', env'', hr, -⟩ := (Ledger.meets_release ho).exists_result (Ledger.refl env')
    refine ⟨env'', ?_⟩
    rw [whileHolding, bind_of_ok (Action.attempt_of ha)]
    exact bind_of_ok hr _
  | crashed cause =>
    obtain ⟨_, env'', hr, -⟩ := (Ledger.meets_discard ho).exists_result (Ledger.refl env')
    refine ⟨env'', ?_⟩
    rw [whileHolding, bind_of_ok (Action.attempt_of ha)]
    exact bind_of_ok hr _

end Owned

/-! ## Asking alone -/

/-- What is asked of a handle while it is wrapped. Nothing is given back, whatever the answer. -/
def Tensor.inspect {W : Type} (libs : Libraries α W) (library : LibraryId) (h : Handle) :
    Action W Tensor := do
  let owned ← Owned.acquire .tensor library h
  let shape ← Tensor.queryShape (libs library) h
  let flag ← Action.call (libs library) (.query (.tracked (some h)))
  return { owned, shape, tracked := flag ≠ 0 }

namespace Tensor

theorem meets_inspect (h : Handle) :
    Meets (Ledger start given) (inspect libs.journaled library h)
      (fun t env => t.owned = ⟨.tensor, library, some h⟩ ∧ Ledger start given env)
      (fun _ env => Ledger start given env) := by
  refine Meets.bind (Ledger.meets_acquire .tensor h) fun owned => Meets.assume fun ho => ?_
  refine Meets.bind (Ledger.meets_queryShape h) fun shape => ?_
  refine Meets.bind (Ledger.meets_keeping fun _ => rfl) fun flag => ?_
  exact .pure fun _ hL => ⟨ho, hL⟩

/-- Wrapping a handle goes as well as asking does. -/
theorem wrap_of_inspect {t : Tensor} (hi : inspect libs.journaled library h env = (.ok t, env')) :
    wrap libs.journaled library h env = (.ok t, env') := by
  have hacq : Owned.acquire (W := Journal α V) .tensor library h env = (.ok _, _) := rfl
  rw [inspect, bind_of_ok hacq] at hi
  rw [wrap, bind_of_ok hacq]
  rcases hq : queryShape (libs.journaled library) h
    ⟨env.world, env.log ++ [.acquired .tensor h]⟩ with ⟨e | shape, env₁⟩
  · rw [bind_of_error hq] at hi
    cases hi
  · rw [bind_of_ok hq] at hi
    rw [bind_of_ok (Owned.whileHolding_ok hq)]
    exact hi

theorem wrap_of_inspect_error {e : HostFailure}
    (hi : inspect libs.journaled library h env = (.error e, env')) :
    ∃ env'', wrap libs.journaled library h env = (.error e, env'') := by
  have hacq : Owned.acquire (W := Journal α V) .tensor library h env = (.ok _, _) := rfl
  have ho : (⟨.tensor, library, some h⟩ : Owned).held ≠ none := Option.some_ne_none h
  rw [inspect, bind_of_ok hacq] at hi
  rw [wrap, bind_of_ok hacq]
  rcases hq : queryShape (libs.journaled library) h
    ⟨env.world, env.log ++ [.acquired .tensor h]⟩ with ⟨e' | shape, env₁⟩
  · rw [bind_of_error hq] at hi
    cases hi
    have hw : ∃ env'', Owned.whileHolding libs.journaled ⟨.tensor, library, some h⟩
        (queryShape (libs.journaled library) h) _ = (.error e, env'') :=
      Owned.whileHolding_error ho hq
    obtain ⟨env'', hw⟩ := hw
    exact ⟨env'', bind_of_error hw _⟩
  · -- Nothing that comes after the shape can fail.
    rw [bind_of_ok hq] at hi
    cases hi

/-- Handles that are asked for one after the other, as long as this goes well. -/
theorem meets_mapM_inspect : ∀ handles : List Handle,
    Meets (Ledger start given) (handles.mapM (inspect libs.journaled library))
      (fun ts env => (ts.map fun t => t.owned) = (handles.map fun h => ⟨.tensor, library, some h⟩) ∧
        Ledger start given env)
      (fun _ env => Ledger start given env)
  | [] => .pure fun _ hL => ⟨rfl, hL⟩
  | h :: handles => by
    rw [List.mapM_cons]
    refine Meets.bind (meets_inspect h) fun t => Meets.assume fun ht => ?_
    refine Meets.bind (meets_mapM_inspect handles) fun ts => Meets.assume fun hts => ?_
    refine .pure fun _ hL => ⟨?_, hL⟩
    rw [List.map_cons, List.map_cons, ht, hts]

end Tensor

namespace Layer

/-! ## All handles -/

/-- As long as asking goes well, so does wrapping. -/
theorem wrapAll_append {before : List Handle} (rest : List (Option Handle))
    (wrapped : List Tensor) {ts : List Tensor}
    (hb : before.mapM (Tensor.inspect libs.journaled library) env = (.ok ts, env')) :
    wrapAll libs.journaled library wrapped (before.map some ++ rest) env =
      wrapAll libs.journaled library (wrapped ++ ts) rest env' := by
  induction before generalizing env wrapped ts with
  | nil =>
    cases hb
    show wrapAll libs.journaled library wrapped rest env' =
      wrapAll libs.journaled library (wrapped ++ []) rest env'
    rw [List.append_nil]
  | cons k before ih =>
    rw [List.mapM_cons] at hb
    rcases hi : Tensor.inspect libs.journaled library k env with ⟨e | t, env₁⟩
    · rw [bind_of_error hi] at hb
      cases hb
    · rw [bind_of_ok hi] at hb
      rcases hm : before.mapM (Tensor.inspect libs.journaled library) env₁ with ⟨e | ts', env₂⟩
      · rw [bind_of_error hm] at hb
        cases hb
      · rw [bind_of_ok hm] at hb
        cases hb
        have hw : wrapRaw libs.journaled library (some k) env = (.ok t, env₁) :=
          Tensor.wrap_of_inspect hi
        rw [List.map_cons, List.cons_append, wrapAll, bind_of_ok (Action.attempt_of hw)]
        show wrapAll libs.journaled library (wrapped ++ [t]) (before.map some ++ rest) env₁ = _
        rw [ih _ hm, List.append_assoc]
        rfl

/-- Where asking fails, all handles are given back, and the failure goes on. -/
theorem wrapAll_refused {rest : List Handle} {wrapped : List Tensor} {cause : HostError}
    (hw : ∀ t ∈ wrapped, t.owned.held ≠ none) (hL : Ledger start given env)
    (hi : Tensor.inspect libs.journaled library h env = (.error (.refused cause), env')) :
    ∃ env'', wrapAll libs.journaled library wrapped (some h :: rest.map some) env =
        (.error (.refused cause), env'') ∧
      Ledger start (heldBy wrapped + (rawTensors library (h :: rest) + given)) env'' := by
  obtain ⟨env₁, hwrap⟩ := Tensor.wrap_of_inspect_error hi
  have hL₁ : Ledger start ({⟨library, .tensor, h⟩} + given) env₁ :=
    (Ledger.meets_wrap h).of_error hL hwrap
  have hraw : ∃ x env₂, releaseRaw libs.journaled library (rest.map some) env₁ = (.ok x, env₂) ∧
      Ledger start (rawTensors library rest + ({⟨library, .tensor, h⟩} + given)) env₂ :=
    (Ledger.meets_releaseRaw rest).exists_result hL₁
  obtain ⟨_, env₂, hraw, hL₂⟩ := hraw
  have hdestroy : ∃ x env₃, destroyAll libs.journaled wrapped env₂ = (.ok x, env₃) ∧
      Ledger start (heldBy wrapped + _) env₃ :=
    (Ledger.meets_destroyAll wrapped hw).exists_result hL₂
  obtain ⟨_, env₃, hdestroy, hL₃⟩ := hdestroy
  have hwrap : wrapRaw libs.journaled library (some h) env = _ := hwrap
  refine ⟨env₃, ?_, ?_⟩
  · rw [wrapAll, bind_of_ok (Action.attempt_of hwrap)]
    show (releaseRaw libs.journaled library (rest.map some) >>= _) env₁ = _
    rw [bind_of_ok hraw, bind_of_ok hdestroy]
    rfl
  · rw [rawTensors_cons, ← Multiset.singleton_add]
    have he : heldBy wrapped + ({⟨library, .tensor, h⟩} + rawTensors library rest + given) =
        heldBy wrapped + (rawTensors library rest + ({⟨library, .tensor, h⟩} + given)) := by ac_rfl
    rw [he]
    exact hL₃

/-- Where asking breaks off, so does wrapping. The handles behind are not given back then. -/
theorem wrapAll_crashed {rest : List (Option Handle)} {wrapped : List Tensor} {cause : Crash}
    (hw : ∀ t ∈ wrapped, t.owned.held ≠ none) (hL : Ledger start given env)
    (hi : Tensor.inspect libs.journaled library h env = (.error (.crashed cause), env')) :
    ∃ env'', wrapAll libs.journaled library wrapped (some h :: rest) env =
        (.error (.crashed cause), env'') ∧
      Ledger start (heldBy wrapped + ({⟨library, .tensor, h⟩} + given)) env'' := by
  obtain ⟨env₁, hwrap⟩ := Tensor.wrap_of_inspect_error hi
  have hL₁ : Ledger start ({⟨library, .tensor, h⟩} + given) env₁ :=
    (Ledger.meets_wrap h).of_error hL hwrap
  have hdiscard : ∃ x env₂, discardAll libs.journaled wrapped env₁ = (.ok x, env₂) ∧
      Ledger start (heldBy wrapped + _) env₂ :=
    (Ledger.meets_discardAll wrapped hw).exists_result hL₁
  obtain ⟨_, env₂, hdiscard, hL₂⟩ := hdiscard
  have hwrap : wrapRaw libs.journaled library (some h) env = _ := hwrap
  refine ⟨env₂, ?_, hL₂⟩
  rw [wrapAll, bind_of_ok (Action.attempt_of hwrap)]
  show (discardAll libs.journaled wrapped >>= _) env₁ = _
  rw [bind_of_ok hdiscard]
  rfl

/-- What exporting comes to once the library has handed the handles out. -/
theorem parameters_eq {l : Layer} {count : Nat} {out : Written Handle} {handles : List Handle}
    {env₁ env₂ : Env (Journal α V)} (hl : l.owned.held = some h)
    (hcount : Action.call (libs.journaled l.library) (.query (.parameterCount (some h))) env =
      (.ok count, env₁)) (hroom : count < Extent.allocationLimit)
    (hout : Action.call (libs.journaled l.library) (.parameters (some h) true count) env₁ =
      (.ok out, env₂)) (hs : out.status = .success)
    (hh : handleSlots count out = handles.map some) :
    l.parameters libs.journaled env =
      wrapAll libs.journaled l.library [] (handles.map some) env₂ := by
  have hcheck : Action.check l.owned.handle env = (.ok h, env) := by
    rw [Owned.handle_eq_ok.2 hl]
    rfl
  have hreserve : (Action.reserve count : Action (Journal α V) Unit) env₁ = (.ok (), env₁) := by
    rw [Action.reserve, if_pos hroom]
    rfl
  have hstatus : Action.checkStatus (libs.journaled l.library) { operation := "parameters" }
      out.status env₂ = (.ok (), env₂) := by
    rw [Action.checkStatus, if_pos hs]
    rfl
  rw [parameters, bind_of_ok hcheck, bind_of_ok hcount, bind_of_ok hreserve, bind_of_ok hout,
    bind_of_ok hstatus, hh]

theorem rawTensors_append (before after : List Handle) :
    rawTensors library (before ++ after) = rawTensors library before + rawTensors library after := by
  rw [rawTensors, List.map_append, ← Multiset.coe_add, rawTensors, rawTensors]

section

variable {ts : List Tensor} {handles : List Handle}
  (ho : (ts.map fun t => t.owned) = handles.map fun h => ⟨.tensor, library, some h⟩)
include ho

theorem held_of_owned : ∀ t ∈ ts, t.owned.held ≠ none := by
  intro t ht
  have hm : t.owned ∈ ts.map fun t => t.owned := List.mem_map_of_mem ht
  rw [ho] at hm
  obtain ⟨h, -, hto⟩ := List.mem_map.1 hm
  rw [← hto]
  exact Option.some_ne_none h

/-- What the wrappers hold are the handles. -/
theorem heldBy_of_owned : heldBy ts = rawTensors library handles := by
  have hmap : (ts.map fun t => t.owned.holdings) =
      handles.map fun h => ({⟨library, .tensor, h⟩} : Multiset Holding) := by
    have h := congrArg (List.map Owned.holdings) ho
    rw [List.map_map, List.map_map] at h
    exact h
  rw [heldBy, hmap, rawTensors]
  clear hmap ho
  induction handles with
  | nil => rfl
  | cons h handles ih =>
    rw [List.map_cons, List.sum_cons, ih, List.map_cons, ← Multiset.cons_coe,
      Multiset.singleton_add]

end

theorem nodup_rawTensors {handles : List Handle} (hd : handles.Nodup) :
    (rawTensors library handles).Nodup := by
  apply Multiset.coe_nodup.2
  apply List.Nodup.map _ hd
  intro a b hab
  exact (Holding.mk.inj hab).2.2

/-- The library hands out the parameters of a layer: as many as it has said, none of them null, and
no two the same. If asking for them goes well one after the other, they come with a live wrapper
each, in this order, and nothing is given back. If it is refused at one of them, the export is
refused for the same reason, and it has given back all of them, each once, and nothing else. (If
asking breaks off, because there is no room for so many dimensions, the export breaks off and does
not return; those asked so far have been given back once.) -/
theorem parameters_kept_or_given_back {l : Layer} {count : Nat} {out : Written Handle}
    {handles : List Handle} {env env₁ env₂ : Env (Journal α V)} (hl : l.owned.held = some h)
    (hcount : Action.call (libs.journaled l.library) (.query (.parameterCount (some h))) env =
      (.ok count, env₁)) (hroom : count < Extent.allocationLimit)
    (hout : Action.call (libs.journaled l.library) (.parameters (some h) true count) env₁ =
      (.ok out, env₂)) (hs : out.status = .success)
    (hh : handleSlots count out = handles.map some) (hd : handles.Nodup) :
    let inspect := Tensor.inspect libs.journaled l.library
    let start := env.world.calls
    (∀ ts env₃, handles.mapM inspect env₂ = (.ok ts, env₃) →
      l.parameters libs.journaled env = (.ok ts, env₃) ∧
      (ts.map fun t => t.owned) = (handles.map fun k => ⟨.tensor, l.library, some k⟩) ∧
      Ledger start 0 env₃) ∧
    ∀ before k after ts env₃, handles = before ++ k :: after →
      before.mapM inspect env₂ = (.ok ts, env₃) →
      (∀ cause env₄, inspect k env₃ = (.error (.refused cause), env₄) →
        ∃ env₅, l.parameters libs.journaled env = (.error (.refused cause), env₅) ∧
          (rawTensors l.library handles).Nodup ∧
          Ledger start (rawTensors l.library handles) env₅) ∧
      ∀ cause env₄, inspect k env₃ = (.error (.crashed cause), env₄) →
        ∃ env₅, l.parameters libs.journaled env = (.error (.crashed cause), env₅) ∧
          Ledger start (rawTensors l.library (before ++ [k])) env₅ := by
  intro inspect start
  have hparams := parameters_eq hl hcount hroom hout hs hh
  have hL : Ledger start 0 env₂ := by
    have hL₁ : Ledger start 0 env₁ :=
      (Ledger.meets_keeping (E := fun _ _ => False) fun _ => rfl).of_ok (Ledger.refl env) hcount
    exact (Ledger.meets_keeping (E := fun _ _ => False) fun _ => rfl).of_ok hL₁ hout
  constructor
  · intro ts env₃ hts
    obtain ⟨howned, hL₃⟩ := (Tensor.meets_mapM_inspect handles).of_ok hL hts
    refine ⟨?_, howned, hL₃⟩
    have hwrap := wrapAll_append [] [] hts
    rw [List.append_nil] at hwrap
    rw [hparams, hwrap]
    rfl
  · intro before k after ts env₃ hsplit hts
    obtain ⟨howned, hL₃⟩ := (Tensor.meets_mapM_inspect before).of_ok hL hts
    have hlive : ∀ t ∈ ts, t.owned.held ≠ none := held_of_owned howned
    have hwrap : l.parameters libs.journaled env =
        wrapAll libs.journaled l.library ts (some k :: after.map some) env₃ := by
      rw [hparams, hsplit, List.map_append, wrapAll_append _ _ hts]
      rfl
    constructor
    · intro cause env₄ hi
      obtain ⟨env₅, hfail, hL₅⟩ := wrapAll_refused hlive hL₃ hi
      refine ⟨env₅, hwrap.trans hfail, nodup_rawTensors hd, ?_⟩
      rw [add_zero, heldBy_of_owned howned, ← rawTensors_append, ← hsplit] at hL₅
      exact hL₅
    · intro cause env₄ hi
      obtain ⟨env₅, hfail, hL₅⟩ := wrapAll_crashed hlive hL₃ hi
      refine ⟨env₅, hwrap.trans hfail, ?_⟩
      rw [add_zero, heldBy_of_owned howned] at hL₅
      rw [rawTensors_append]
      exact hL₅

/-- A library that hands out two numbers as the parameters of every layer, and fails to tell the
shape of the second. -/
def forgetful : Library α Unit where
  answer c _ :=
    let reply := match c with
      | .query (.parameterCount _) => 2
      | .parameters .. => ⟨.success, [1, 2]⟩
      | .shape (some 2) _ => ⟨.internal, []⟩
      | c => Fault.reply ⟨none, none, false, 0, [], 0⟩ c
    (reply, (), [])

theorem parameters_given_back_both :
    let libs : Libraries Int Unit := fun _ => forgetful
    let l : Layer := ⟨⟨.layer, 0, some 0⟩, 1, 1⟩
    ∃ env, l.parameters libs.journaled ⟨⟨(), []⟩, []⟩ =
        (.error (.refused (.library "shape" .internal "")), env) ∧
      (rawTensors 0 [1, 2]).Nodup ∧ Ledger [] (rawTensors 0 [1, 2]) env := by
  intro libs l
  have h := @parameters_kept_or_given_back Int _ libs 0 l 2 ⟨.success, [1, 2]⟩ [1, 2] ⟨⟨(), []⟩, []⟩
    _ _ rfl rfl (by decide) rfl rfl rfl (by decide)
  exact (h.2 [1] 2 [] _ _ rfl rfl).1 _ _ rfl

end Layer

end Host

end DiffTensor
