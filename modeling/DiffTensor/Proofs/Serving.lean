import DiffTensor.Host.Layer
import DiffTensor.Host.Operation
import DiffTensor.Host.Optimizer
import DiffTensor.Proofs.Engine
import DiffTensor.Proofs.HostTensor
import DiffTensor.Proofs.Refusal

/-!
# Operations of the host on the reference library

`Serving` says that libraries answer as the reference library does, on an engine that their world
holds. Then every operation of the host has a definite effect on that engine, up to its last error
(`At`): here is what each of them comes to, and when it fails.

Operations check what they can before they make a call. A refusal of that kind leaves everything
as it was, and a failure after the first call is one of the library's.
-/

namespace DiffTensor

open Host (Owned)

variable {α V β γ : Type} [Scalar α] [Sampler α]

/-- Where the world is `calm`, all libraries answer as the reference library does on the engine in
it; after a call `asked` holds, and the world is still calm. -/
structure Serving (libs : Libraries α V) (engine : V → Engine α) (calm asked : V → Prop) :
    Prop where
  reply {v : V} (library : LibraryId) (c : Call α) : calm v →
    ((libs library).answer c v).1 = ((engine v).answer c).1
  state {v : V} (library : LibraryId) (c : Call α) : calm v →
    engine ((libs library).answer c v).2.1 = ((engine v).answer c).2.1
  after {v : V} (library : LibraryId) (c : Call α) : calm v →
    asked ((libs library).answer c v).2.1
  still {v : V} : asked v → calm v

/-- The world is calm, and but for its last error the engine in it is `e`. -/
def At (engine : V → Engine α) (calm : V → Prop) (e : Engine α) (env : Env V) : Prop :=
  calm env.world ∧ (engine env.world).hushed = e

section

omit [Scalar α] [Sampler α]

variable {engine : V → Engine α} {calm : V → Prop} {e : Engine α} {env : Env V}

theorem At.hushed_eq (h : At engine calm e env) : e.hushed = e := by
  rw [← h.2]
  rfl

/-- An engine that is compared has no last error. -/
theorem meets_hushed {a : Action V β} {Q : β → Env V → Prop} {E : HostFailure → Env V → Prop}
    (h : e.hushed = e → Meets (At engine calm e) a Q E) : Meets (At engine calm e) a Q E :=
  fun env hA => h hA.hushed_eq env hA

theorem At.mono {asked : V → Prop} (h : At engine asked e env) (hc : ∀ v, asked v → calm v) :
    At engine calm e env := ⟨hc _ h.1, h.2⟩

end

/-- What is said of all states with `P` holds from each of them. -/
theorem Meets.start {ε σ : Type} {P : σ → Prop} {s : σ} {a : ExceptT ε (StateM σ) β}
    {Q : β → σ → Prop} {E : ε → σ → Prop} (hs : P s) (h : Meets P a Q E) : Meets (· = s) a Q E :=
  h.mono (fun _ he => he ▸ hs) (fun _ _ h => h) fun _ _ h => h

/-- What a computation checks by itself makes no difference to where it goes on from. -/
theorem meets_local {W : Type} {env : Env W} {check : Except HostError γ} {f : γ → Action W β}
    {Q : β → Env W → Prop} {E : HostFailure → Env W → Prop}
    (h : ∀ x, check = .ok x → Meets (· = env) (f x) Q E)
    (hE : ∀ cause, check = .error cause → E (.refused cause) env) :
    Meets (· = env) (Action.check check >>= f) Q E := by
  rintro _ rfl
  cases hc : check with
  | ok x => exact h x hc _ rfl
  | error cause => exact hE cause hc

theorem Action.reserve_eq {W : Type} {length : Nat} (h : length < Extent.allocationLimit) :
    (Action.reserve length : Action W Unit) = pure () := if_pos h

omit [Scalar α] [Sampler α] in
/-- Whoever holds a handle goes on with what cannot fail. -/
theorem Host.Owned.meets_holding {libs : Libraries α V} {o : Owned} {action : Action V β}
    {P : Env V → Prop} {Q : β → Env V → Prop} {E : HostFailure → Env V → Prop}
    (h : Meets P action Q fun _ _ => False) : Meets P (o.whileHolding libs action) Q E := by
  refine .bind (Action.meets_attempt h) fun result => ?_
  cases result with
  | ok x => exact .pure fun _ hx => hx
  | error cause => exact fun _ hx => hx.elim

/-- A command has done all that it was to do. -/
def Obeyed (engine : V → Engine α) (asked : V → Prop) (e : Engine α) (c : Command Handle)
    (env : Env V) : Prop :=
  (e.run c).1 = .ok () ∧ At engine asked (e.run c).2.1 env

/-- A command has failed, after what it has done. -/
def Defied (engine : V → Engine α) (asked : V → Prop) (e : Engine α) (c : Command Handle)
    (env : Env V) : Prop :=
  (e.run c).1 ≠ .ok () ∧ At engine asked (e.run c).2.1 env

omit [Scalar α] [Sampler α] in
/-- The host has dimensions as a library does. -/
theorem Dims.toNat_ofNat (dims : List Nat) : (dims.map Int.ofNat).map Int.toNat = dims :=
  (List.map_map ..).trans (List.map_id _)

/-- The wrapper of a handle that has just been handed out for a node. -/
def Host.Tensor.wrapping (library : LibraryId) (h : Handle) (s : Store α) (n : NodeId) :
    Host.Tensor :=
  ⟨⟨.tensor, library, some h⟩, (s.shape n).map Int.ofNat, s.tracked n⟩

/-- What is taken out for the gradient of a node, and the engine afterwards: nothing, or a wrapper
of the gradient under the next handle. -/
inductive Serving.Taken (e : Engine α) (library : LibraryId) (n : NodeId) :
    Option Host.Tensor → Engine α → Prop
  | none (hg : e.store.gradient n = none) : Taken e library n none e
  | some {k : NodeId} (hg : e.store.gradient n = some k) : Taken e library n
    (some (.wrapping library e.objects.size e.store k)) (e.handOut (.tensor k)).2

namespace Serving

variable {libs : Libraries α V} {engine : V → Engine α} {calm asked : V → Prop} {e : Engine α}
  {library : LibraryId} {E : HostFailure → Env V → Prop}

/-- Where there has been a call, there may be another one. -/
theorem again (hS : Serving libs engine calm asked) : Serving libs engine asked asked :=
  ⟨fun l c h => hS.reply l c (hS.still h), fun l c h => hS.state l c (hS.still h),
    fun l c h => hS.after l c (hS.still h), id⟩

variable (hS : Serving libs engine calm asked)
include hS

/-! ## Calls -/

theorem meets_call (c : Call α) (hc : ∀ buffer, c ≠ .lastError buffer) :
    Meets (At engine calm e) (Action.call (libs library) c)
      (fun reply env => reply = (e.answer c).1 ∧ At engine asked (e.answer c).2.1.hushed env)
      E := by
  rintro env ⟨hcalm, rfl⟩
  obtain ⟨hr, he⟩ := (engine env.world).answer_hushed hc
  refine ⟨(hS.reply library c hcalm).trans hr.symm, hS.after library c hcalm, ?_⟩
  rw [he]
  exact congrArg Engine.hushed (hS.state library c hcalm)

theorem meets_readError (buffer : Option (List UInt8)) :
    Meets (At engine calm e) (Action.call (libs library) (.lastError buffer))
      (fun _ => At engine asked e) E := by
  rintro env ⟨hcalm, rfl⟩
  exact ⟨hS.after library _ hcalm, congrArg Engine.hushed (hS.state library _ hcalm)⟩

theorem meets_errorText :
    Meets (At engine calm e) (Action.errorText (libs library)) (fun _ => At engine asked e) E := by
  rw [errorText_eq]
  refine .bind (hS.meets_readError none) fun full => ?_
  split
  · exact .pure fun _ h => h
  · exact .bind (hS.again.meets_readError _) fun _ => .pure fun _ h => h

theorem meets_statusError {site : CallSite} {status : Status} {Q : β → Env V → Prop} :
    Meets (At engine calm e) (Action.statusError (libs library) site status) Q
      (fun _ => At engine asked e) := by
  refine .bind hS.meets_errorText fun text => ?_
  split_ifs <;> exact .throw fun _ h => h

/-- A status that tells how a computation went is taken for what it says. -/
theorem meets_status {site : CallSite} {result : Outcome Unit} :
    Meets (At engine asked e)
      (Action.checkStatus (libs library) site (Engine.statusOf (result.mapError Failure.status)))
      (fun _ env => result = .ok () ∧ At engine asked e env)
      fun _ env => result ≠ .ok () ∧ At engine asked e env := by
  rcases result with cause | ⟨⟩
  · have hne : Engine.statusOf ((.error cause : Outcome Unit).mapError Failure.status) ≠ .success :=
      cause.status_ne_success
    rw [Action.checkStatus, if_neg hne]
    exact hS.again.meets_statusError.imp (fun _ _ h => h)
      fun _ _ h => ⟨nofun, h⟩
  · have heq : Engine.statusOf ((.ok () : Outcome Unit).mapError Failure.status) = .success := rfl
    rw [Action.checkStatus, if_pos heq]
    exact .pure fun _ h => ⟨rfl, h⟩

/-- Objects are made exactly if they can be built. -/
theorem meets_create {site : CallSite} (c : Creation α Handle) :
    Meets (At engine calm e) (Action.create (libs library) site c)
      (fun h env => ∃ new, e.build c = .ok new ∧ h = e.objects.size ∧
        At engine asked (e.made new) env)
      fun _ env => (∃ cause, e.build c = .error cause) ∧ At engine asked e env := by
  refine meets_hushed fun he => ?_
  refine .bind (hS.meets_call (.create c true) nofun) fun made => .assume fun hm => ?_
  obtain ⟨hr, hnew⟩ := e.answer_create c
  rw [hm, hr, hnew]
  cases hb : e.build c with
  | error cause =>
    refine .bind (R := fun _ _ => False) ?_ fun _ => fun _ h => h.elim
    have hne : (some cause.status).getD .internal ≠ .success := cause.status_ne_success
    rw [Action.checkStatus, if_neg hne, show (Except.toOption _).elim e e.made = e from rfl, he]
    exact hS.again.meets_statusError.imp (fun _ _ h => h)
      fun _ _ h => ⟨⟨cause, rfl⟩, h⟩
  | ok new =>
    have heq : (some Status.success).getD .internal = .success := rfl
    have hh : (e.made new).hushed = e.hushed.made new := rfl
    rw [Action.checkStatus, if_pos heq,
      show (Except.toOption _).elim e e.made = e.made new from rfl, hh, he]
    exact .pure fun env h => ⟨new, rfl, rfl, h⟩

/-! ## Looking -/

theorem meets_query {q : Query Handle} {k : Nat} (hq : e.look q = .ok k) :
    Meets (At engine calm e) (Action.call (libs library) (.query q))
      (fun x env => x = k ∧ At engine asked e env) E := by
  refine meets_hushed fun he => (hS.meets_call (.query q) nofun).imp_result ?_
  rintro x env ⟨hx, hA⟩
  obtain ⟨hr, hnew⟩ := e.answer_query q
  rw [hr, hq] at hx
  rw [hnew, he] at hA
  exact ⟨hx, hA⟩

variable {h : Handle} {n : NodeId} (ho : e.object? h = some (.tensor n))
include ho

theorem meets_shape :
    Meets (At engine calm e) (Action.call (libs library)
        (.shape (some h) ((e.store.value n).rank ≠ 0)))
      (fun out env => out = ⟨.success, (e.store.shape n).map Int.ofNat⟩ ∧ At engine asked e env)
      E := by
  refine meets_hushed fun he => (hS.meets_call (.shape _ _) nofun).imp_result ?_
  rintro out env ⟨hout, hA⟩
  have hd : e.readDims (some h) ((e.store.value n).rank ≠ 0) =
      .ok ((e.store.shape n).map Int.ofNat) := by
    simp only [Engine.readDims, Engine.tensor_of_object? ho]
    show (if (e.store.shape n).isEmpty then _ else _ : Outcome (List Int)) = _
    cases hs : e.store.shape n with
    | nil => rfl
    | cons d dims =>
      have hr : (e.store.value n).rank ≠ 0 := by
        show (e.store.shape n).length ≠ 0
        simp [hs]
      simp [hr]
  simp only [Engine.answer, hd, Engine.settle] at hout hA
  exact ⟨hout, hA.1, hA.2.trans he⟩

/-- The whole shape is told. -/
theorem meets_queryShape (hr : (e.store.value n).rank < Extent.allocationLimit) :
    Meets (At engine calm e) (Host.Tensor.queryShape (libs library) h)
      (fun dims env => dims = (e.store.shape n).map Int.ofNat ∧ At engine asked e env) E := by
  have hq : e.look (.rank (some h)) = .ok (e.store.value n).rank := by
    simp only [Engine.look, Engine.tensor_of_object? ho]
    rfl
  refine .bind (hS.meets_query hq) fun rank => .assume ?_
  rintro rfl
  rw [Action.reserve_eq hr, pure_bind]
  refine .bind (hS.again.meets_shape ho) fun out => .assume ?_
  rintro rfl
  rw [Action.checkStatus, if_pos rfl]
  refine .pure fun env hA => ⟨?_, hA⟩
  have hl : (e.store.value n).rank = ((e.store.shape n).map Int.ofNat).length := by
    rw [List.length_map]
    rfl
  simp [Written.onto, hl]

theorem meets_wrap (hr : (e.store.value n).rank < Extent.allocationLimit) :
    Meets (At engine calm e) (Host.Tensor.wrap libs library h)
      (fun t env => t = .wrapping library h e.store n ∧ At engine asked e env) E := by
  have hq : e.look (.tracked (some h)) = .ok (if e.store.tracked n then 1 else 0) := by
    simp only [Engine.look, Engine.tensor_of_object? ho]
    rfl
  refine .bind (R := fun o env => o = ⟨.tensor, library, some h⟩ ∧ At engine calm e env)
    (fun _ hA => ⟨rfl, hA⟩) fun o => .assume ?_
  rintro rfl
  refine .bind (Owned.meets_holding (hS.meets_queryShape ho hr)) fun dims => .assume ?_
  rintro rfl
  refine .bind (hS.again.meets_query hq) fun flag => .assume ?_
  rintro rfl
  refine .pure fun env hA => ⟨?_, hA⟩
  cases ht : e.store.tracked n <;> simp [Host.Tensor.wrapping, ht]

/-- All elements are told. -/
theorem meets_copyData (hs : (e.store.value n).size < Extent.allocationLimit) :
    Meets (At engine calm e) (Host.Tensor.copyData (libs library) h)
      (fun values env => values = (e.store.value n).data.toList ∧ At engine asked e env) E := by
  have hq : e.look (.size (some h)) = .ok (e.store.value n).size := by
    simp only [Engine.look, Engine.tensor_of_object? ho]
    rfl
  have hd : e.readValues (some h) true (e.store.value n).size =
      .ok (e.store.value n).data.toList := by
    simp only [Engine.readValues, Engine.tensor_of_object? ho]
    show (if _ then _ else if (e.store.value n).size = 0 then _ else _ : Outcome (List α)) = _
    by_cases h0 : (e.store.value n).size = 0
    · have hnil : (e.store.value n).data = #[] := Array.eq_empty_of_size_eq_zero h0
      simp [Buffer.size, hnil]
    · simp [h0]
  refine .bind (hS.meets_query hq) fun size => .assume ?_
  rintro rfl
  rw [Action.reserve_eq hs, pure_bind]
  refine meets_hushed fun he =>
    .bind (hS.again.meets_call (.copyData _ _ _) nofun) fun out => .assume ?_
  simp only [Engine.answer, hd, Engine.settle, Engine.written]
  rintro rfl
  rw [Action.checkStatus, if_pos rfl]
  refine .pure fun env hA => ⟨?_, hA.1, hA.2.trans he⟩
  simp [Written.onto, Buffer.size]

theorem meets_values {t : Host.Tensor} (hh : t.owned.held = some h) (hb : (e.store.value n).Sound) :
    Meets (At engine calm e) (t.values libs)
      (fun values env => values = (e.store.value n).data.toList ∧ At engine asked e env) E := by
  unfold Host.Tensor.values
  rw [Owned.handle_eq_ok.2 hh, Action.check_ok, pure_bind]
  exact hS.meets_copyData ho (lt_of_eq_of_lt hb.full hb.proper.room)

/-- The only element is told, unless the shape that is kept asks for another number of them. -/
theorem meets_item {t : Host.Tensor} (hh : t.owned.held = some h) (hb : (e.store.value n).Sound)
    (ht : t.shape = (e.store.shape n).map Int.ofNat) {env : Env V} (hA : At engine calm e env) :
    Meets (· = env) (t.item libs) (fun _ => At engine asked e)
      fun cause env' => cause = .refused (.shapeMismatch "item" t.shape []) ∧ env' = env := by
  have hsize : (e.store.value n).data.toList.length = t.size := by
    rw [Host.Tensor.size, Dims.size_eq_saturated, ht, Dims.toNat_ofNat, Array.length_toList]
    exact hb.full.trans hb.proper.saturated.symm
  unfold Host.Tensor.item
  rw [Owned.handle_eq_ok.2 hh, Action.check_ok, pure_bind]
  by_cases h1 : t.size = 1
  · rw [if_neg (not_not_intro h1)]
    refine .start hA (.bind (hS.meets_copyData ho (lt_of_eq_of_lt hb.full hb.proper.room))
      fun values => .assume ?_)
    rintro rfl
    rw [h1] at hsize
    split
    · exact .pure fun _ h => h
    · rename_i hnil
      rw [hnil] at hsize
      cases hsize
  · rw [if_pos h1]
    rintro _ rfl
    exact ⟨rfl, rfl⟩

omit ho

/-! ## New tensors -/

theorem meets_newTensor {site : CallSite} {c : Creation α Handle} (hs : e.Sound)
    (hc : (Call.create c true).Representable) (hk : c.kind = .tensor) :
    Meets (At engine calm e) (Host.Tensor.create libs library site c)
      (fun t env => ∃ n new, e.build c = .ok (.tensor n, new) ∧
        t = .wrapping library e.objects.size new.1 n ∧
        At engine asked (e.made (.tensor n, new)) env)
      fun _ env => (∃ cause, e.build c = .error cause) ∧ At engine asked e env := by
  refine .bind (hS.meets_create c) fun h => .exists_left fun new => .assume fun hb => .assume ?_
  rintro rfl
  obtain ⟨o, new⟩ := new
  have hko : o.kind = .tensor := (Engine.kind_of_build hb).trans hk
  cases o with
  | layer | optimizer => cases hko
  | tensor n =>
    have ho := e.object?_made_new (.tensor n, new)
    have hr := ((hs.made hc hb).graph.sound.values n).proper.short
    refine (hS.again.meets_wrap ho hr).imp_result fun t env ht => ?_
    exact ⟨n, new, hb, ht.1, ht.2⟩

/-! ## Giving back -/

theorem meets_giveBack {kind : ResourceKind} {h : Handle} :
    Meets (At engine calm e) (Action.call (libs library) (.release kind (some h)))
      (fun _ => At engine asked (e.release (some h))) E := by
  refine meets_hushed fun he =>
    (hS.meets_call (.release kind (some h)) nofun).imp_result fun _ env hA => ?_
  have hh : (e.release (some h)).hushed = e.hushed.release (some h) := rfl
  exact ⟨hA.2.1, hA.2.2.trans (hh.trans (by rw [he]))⟩

theorem meets_release {o : Owned} {h : Handle} (hh : o.held = some h) :
    Meets (At engine calm e) (o.release libs)
      (fun o' env => o' = { o with held := none } ∧ At engine asked (e.release (some h)) env)
      E := by
  unfold Owned.release
  rw [Owned.handle_eq_ok.2 hh, Action.check_ok, pure_bind]
  refine .bind (R := fun _ => At engine calm e) (fun _ hA => hA) fun _ => ?_
  exact .bind hS.meets_giveBack fun _ => .pure fun _ hA => ⟨rfl, hA⟩

/-- A wrapper that goes away gives back what it holds, if anything. -/
theorem meets_discard (o : Owned) :
    Meets (At engine calm e) (o.discard libs) (fun _ => At engine calm (e.release o.held)) E := by
  unfold Owned.discard
  split
  · rename_i hh
    rw [hh]
    exact .pure fun _ hA => hA
  · rename_i h hh
    rw [hh]
    refine .bind (R := fun _ => At engine calm e) (fun _ hA => hA) fun _ => ?_
    exact hS.meets_giveBack.imp_result fun _ _ hA => hA.mono fun _ => hS.still

/-! ## Commands -/

/-- A command does what it does, and is reported as it went. -/
theorem meets_command {site : CallSite} (c : Command Handle) :
    Meets (At engine calm e) (do
      let status ← Action.call (libs library) (.command c)
      Action.checkStatus (libs library) site status)
      (fun _ => Obeyed engine asked e c) fun _ => Defied engine asked e c := by
  refine meets_hushed fun he => .bind (hS.meets_call (.command c) nofun) fun status => .assume ?_
  obtain ⟨hr, hnew⟩ := e.answer_command c
  rw [hr, hnew]
  rintro rfl
  have hrun : (e.run c).2.1.hushed = (e.run c).2.1 := by
    have h := e.run_hushed c
    rw [he] at h
    exact (congrArg (fun out => out.2.1) h).symm
  rw [hrun]
  exact hS.meets_status

theorem meets_backward {t : Host.Tensor} (hh : t.owned.held = some h) :
    Meets (At engine calm e) (t.backward libs) (fun _ => Obeyed engine asked e (.backward (some h)))
      fun _ => Defied engine asked e (.backward (some h)) := by
  unfold Host.Tensor.backward
  rw [Owned.handle_eq_ok.2 hh, Action.check_ok, pure_bind]
  exact .bind (R := fun _ => At engine calm e) (fun _ hA => hA) fun _ => hS.meets_command _

theorem meets_setTracked {t : Host.Tensor} (hh : t.owned.held = some h) {flag : Bool} :
    Meets (At engine calm e) (t.setTracked libs flag)
      (fun t' env => t' = { t with tracked := flag } ∧
        Obeyed engine asked e (.setTracked (some h) flag) env)
      fun _ => Defied engine asked e (.setTracked (some h) flag) := by
  unfold Host.Tensor.setTracked
  rw [Owned.handle_eq_ok.2 hh, Action.check_ok, pure_bind, ← bind_assoc]
  exact .bind (hS.meets_command _) fun _ => .pure fun _ h => ⟨rfl, h⟩

theorem meets_step {o : Host.Optimizer α} (hh : o.owned.held = some h) :
    Meets (At engine calm e) (o.step libs) (fun _ => Obeyed engine asked e (.step (some h)))
      fun _ => Defied engine asked e (.step (some h)) := by
  unfold Host.Optimizer.step
  rw [Owned.handle_eq_ok.2 hh, Action.check_ok, pure_bind]
  exact .bind (R := fun _ => At engine calm e) (fun _ hA => hA) fun _ => hS.meets_command _

theorem meets_clearGradients {o : Host.Optimizer α} (hh : o.owned.held = some h) :
    Meets (At engine calm e) (o.clearGradients libs)
      (fun _ => Obeyed engine asked e (.clearGradients (some h)))
      fun _ => Defied engine asked e (.clearGradients (some h)) := by
  unfold Host.Optimizer.clearGradients
  rw [Owned.handle_eq_ok.2 hh, Action.check_ok, pure_bind]
  exact hS.meets_command _

/-! ## Handles for what there is already -/

/-- The gradient is wrapped under the next handle, if there is one. -/
theorem meets_gradient (hs : e.Sound) {t : Host.Tensor} (hh : t.owned.held = some h)
    (ho : e.object? h = some (.tensor n)) {env : Env V} (hA : At engine calm e env) :
    Meets (· = env) (t.gradient libs)
      (fun g env => ∃ e', Taken e t.library n g e' ∧ At engine asked e' env) E := by
  refine .start hA (meets_hushed fun he => ?_)
  unfold Host.Tensor.gradient
  rw [Owned.handle_eq_ok.2 hh, Action.check_ok, pure_bind]
  refine .bind (hS.meets_call (.gradient _) nofun) fun g => .assume ?_
  have hx := Engine.exportGradient_of_object? ho
  cases hg : e.store.gradient n with
  | none =>
    rw [hg] at hx
    simp only [Engine.answer, hx, Engine.attempt, Engine.settle]
    rintro rfl
    exact .pure fun _ hA => ⟨e, .none hg, hA.1, hA.2.trans he⟩
  | some k =>
    rw [hg] at hx
    simp only [Engine.answer, hx, Engine.attempt, Engine.settle]
    rintro rfl
    have hnew := e.object?_handOut_new (.tensor k)
    have hr : ((e.handOut (.tensor k)).2.store.value k).rank < Extent.allocationLimit :=
      (hs.graph.sound.values k).proper.short
    have hh : ({ (e.handOut (.tensor k)).2 with lastError := "" } : Engine α).hushed =
        (e.hushed.handOut (.tensor k)).2 := rfl
    rw [hh, he]
    refine .bind (hS.again.meets_wrap hnew hr) fun t => .pure fun _ h => ?_
    rw [h.1]
    exact ⟨_, .some hg, h.2⟩

/-- Handles are wrapped in order. -/
theorem meets_wrapAll (hs : e.Sound) :
    ∀ (items : List (Handle × NodeId)) (wrapped : List Host.Tensor),
    (∀ p ∈ items, e.object? p.1 = some (.tensor p.2)) →
    Meets (At engine calm e)
      (Host.Layer.wrapAll libs library wrapped (items.map fun p => some p.1))
      (fun ts env => ts = wrapped ++ items.map (fun p => .wrapping library p.1 e.store p.2) ∧
        At engine calm e env) E
  | [], wrapped, _ => .pure fun _ hA => ⟨by simp, hA⟩
  | (h, n) :: items, wrapped, hi => by
    obtain ⟨ho, hi⟩ := List.forall_mem_cons.1 hi
    have hr := (hs.graph.sound.values n).proper.short
    have hw : Meets (At engine calm e) (Host.Layer.wrapRaw libs library (some h))
        (fun t env => t = .wrapping library h e.store n ∧ At engine calm e env) fun _ _ => False :=
      (hS.meets_wrap ho hr).imp_result fun _ _ h => ⟨h.1, h.2.mono fun _ => hS.still⟩
    refine .bind (Action.meets_attempt hw) fun result => ?_
    cases result with
    | error cause => exact fun _ h => h.elim
    | ok t =>
      refine .assume ?_
      rintro rfl
      refine (meets_wrapAll hs items _ hi).imp_result fun ts env h => ⟨?_, h.2⟩
      rw [h.1, List.append_assoc]
      rfl

/-- The parameters are wrapped under the next two handles. -/
theorem meets_parameters (hs : e.Sound) {l : Host.Layer} {layer : Linear}
    (hh : l.owned.held = some h) (ho : e.object? h = some (.layer layer)) {env : Env V}
    (hA : At engine calm e env) :
    Meets (· = env) (l.parameters libs)
      (fun ts env => ts = [.wrapping l.library e.objects.size e.store layer.weight,
          .wrapping l.library (e.objects.size + 1) e.store layer.bias] ∧
        At engine asked (e.handOutNodes layer.parameters).2 env) E := by
  refine .start hA (meets_hushed fun he => ?_)
  have hq : e.look (.parameterCount (some h)) = .ok 2 := by
    simp only [Engine.look, Engine.layer_of_object? ho]
    rfl
  have hx := Engine.exportParameters_of_object? ho
  unfold Host.Layer.parameters
  rw [Owned.handle_eq_ok.2 hh, Action.check_ok, pure_bind]
  refine .bind (hS.meets_query hq) fun count => .assume ?_
  rintro rfl
  rw [Action.reserve_eq (by decide), pure_bind]
  refine .bind (hS.again.meets_call (.parameters _ _ _) nofun) fun out => .assume ?_
  have hh : ({ (e.handOutNodes layer.parameters).2 with lastError := "" } : Engine α).hushed =
      (e.handOutNodes layer.parameters).2 := by
    rw [← he, Engine.handOutNodes_hushed]
    rfl
  simp only [Engine.answer, hx, Engine.attempt, Engine.settle, Engine.written]
  rintro rfl
  rw [hh, Action.checkStatus, if_pos rfl, pure_bind]
  have hs' : (e.handOutNodes layer.parameters).2.Sound :=
    hs.handOutNodes _ (by
      have hf := hs.objects _ _ ho
      intro n hn
      simp only [Linear.parameters, List.mem_cons, List.not_mem_nil, or_false] at hn
      rcases hn with rfl | rfl
      · exact hf.weight.1
      · exact hf.bias.1)
  have hi : ∀ p ∈ [(e.objects.size, layer.weight), (e.objects.size + 1, layer.bias)],
      (e.handOutNodes layer.parameters).2.object? p.1 = some (.tensor p.2) := by
    simp [Engine.object?_handOutParameters]
  exact hS.again.meets_wrapAll hs' [(e.objects.size, layer.weight),
    (e.objects.size + 1, layer.bias)] [] hi

end Serving

end DiffTensor
