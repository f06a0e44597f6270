import DiffTensor.Proofs.HostSession

/-!
# Keeping a journal changes nothing

A session in libraries whose calls are written down is the same session: it has the same answers
and the same log, and ends in the same state (`answers_plain`, `after_plain`).
-/

namespace DiffTensor

variable {α V : Type}

/-! ## Doing the same -/

/-- Seen through `f`, the second computation does what the first one does. -/
def Mirrors {ε σ τ β : Type} (f : σ → τ) (a : ExceptT ε (StateM σ) β)
    (b : ExceptT ε (StateM τ) β) : Prop := ∀ s, b (f s) = ((a s).1, f (a s).2)

namespace Mirrors

variable {ε σ τ β γ : Type} {f : σ → τ}

theorem pure {x : β} : Mirrors f (Pure.pure x : ExceptT ε (StateM σ) β) (Pure.pure x) :=
  fun _ => rfl

theorem throw {e : ε} : Mirrors f (throw e : ExceptT ε (StateM σ) β) (throw e) := fun _ => rfl

theorem throw_bind {e : ε} {k : γ → ExceptT ε (StateM σ) β} {k' : γ → ExceptT ε (StateM τ) β} :
    Mirrors f (MonadExcept.throw e >>= k) (MonadExcept.throw e >>= k') := fun _ => rfl

theorem get_bind {k : σ → ExceptT ε (StateM σ) β} {k' : τ → ExceptT ε (StateM τ) β}
    (hk : ∀ s, Mirrors f (k s) (k' (f s))) : Mirrors f (get >>= k) (get >>= k') :=
  fun s => hk s s

theorem modify {g : σ → σ} {g' : τ → τ} (hg : ∀ s, g' (f s) = f (g s)) :
    Mirrors f (modify g : ExceptT ε (StateM σ) PUnit) (modify g') :=
  fun s => congrArg (Prod.mk (Except.ok PUnit.unit)) (hg s)

theorem bind {a : ExceptT ε (StateM σ) γ} {a' : ExceptT ε (StateM τ) γ}
    {k : γ → ExceptT ε (StateM σ) β} {k' : γ → ExceptT ε (StateM τ) β} (ha : Mirrors f a a')
    (hk : ∀ x, Mirrors f (k x) (k' x)) : Mirrors f (a >>= k) (a' >>= k') := by
  intro s
  have ha := ha s
  rcases hs : a s with ⟨_ | x, s'⟩
  · rw [hs] at ha
    rw [bind_of_error hs, bind_of_error ha]
  · rw [hs] at ha
    rw [bind_of_ok hs, bind_of_ok ha]
    exact hk x s'

theorem mapM {k : γ → ExceptT ε (StateM σ) β} {k' : γ → ExceptT ε (StateM τ) β}
    (hk : ∀ x, Mirrors f (k x) (k' x)) : ∀ l : List γ, Mirrors f (l.mapM k) (l.mapM k')
  | [] => pure
  | x :: l => by
    rw [List.mapM_cons, List.mapM_cons]
    exact bind (hk x) fun _ => bind (mapM hk l) fun _ => pure

end Mirrors

/-- The environment without the journal. -/
def Env.plain (env : Env (Journal α V)) : Env V := ⟨env.world.world, env.log⟩

/-! ## Operations of the host -/

/-- The same operation of the host, with and without a journal. -/
abbrev Alike {β : Type} (a : Action (Journal α V) β) (b : Action V β) : Prop :=
  Mirrors Env.plain a b

variable {libs : Libraries α V} {library : LibraryId} {β : Type}

namespace Action

theorem alike_check (e : Except HostError β) :
    Alike (α := α) (V := V) (check e) (check e) := by
  cases e <;> exact fun _ => rfl

theorem alike_report (e : Event) : Alike (α := α) (V := V) (report e) (report e) := fun _ => rfl

theorem alike_call (c : Call α) : Alike (call (libs.journaled library) c) (call (libs library) c) :=
  fun _ => rfl

theorem alike_attempt {a : Action (Journal α V) β} {b : Action V β} (h : Alike a b) :
    Alike a.attempt b.attempt := by
  intro env
  show (Except.ok (b env.plain).1, (b env.plain).2) = _
  rw [h env]
  rfl

theorem alike_reserve (length : Nat) :
    Alike (α := α) (V := V) (reserve length) (reserve length) := by
  unfold reserve
  split
  · exact .pure
  · exact .throw

theorem alike_errorText :
    Alike (errorText (libs.journaled library)) (errorText (libs library)) := by
  rw [errorText_eq, errorText_eq]
  refine .bind (alike_call _) fun full => ?_
  split
  · exact .pure
  · exact .bind (alike_call _) fun _ => .pure

theorem alike_statusError (site : CallSite) (status : Status) :
    Alike (β := β) (statusError (libs.journaled library) site status)
      (statusError (libs library) site status) := by
  refine .bind alike_errorText fun text => ?_
  split_ifs <;> exact .throw

theorem alike_checkStatus (site : CallSite) (status : Status) :
    Alike (checkStatus (libs.journaled library) site status)
      (checkStatus (libs library) site status) := by
  unfold checkStatus
  split
  · exact .pure
  · exact alike_statusError site status

theorem alike_create (site : CallSite) (c : Creation α Handle) :
    Alike (create (libs.journaled library) site c) (create (libs library) site c) := by
  refine .bind (alike_call _) fun made => .bind (alike_checkStatus _ _) fun _ => ?_
  split
  · exact .pure
  · exact .throw

end Action

namespace Host

open DiffTensor.Action

namespace Owned

theorem alike_release (o : Owned) : Alike (o.release libs.journaled) (o.release libs) :=
  .bind (alike_check _) fun _ => .bind (alike_report _) fun _ => .bind (alike_call _) fun _ => .pure

theorem alike_discard (o : Owned) : Alike (o.discard libs.journaled) (o.discard libs) := by
  unfold discard
  split
  · exact .pure
  · exact .bind (alike_report _) fun _ => alike_call _

theorem alike_whileHolding (o : Owned) {a : Action (Journal α V) β} {b : Action V β}
    (h : Alike a b) : Alike (o.whileHolding libs.journaled a) (o.whileHolding libs b) := by
  refine .bind (alike_attempt h) fun result => ?_
  split
  · exact .pure
  · exact .bind (alike_release o) fun _ => .throw
  · exact .bind (alike_discard o) fun _ => .throw

end Owned

namespace Tensor

theorem alike_queryShape (h : Handle) :
    Alike (queryShape (libs.journaled library) h) (queryShape (libs library) h) :=
  .bind (alike_call _) fun _ => .bind (alike_reserve _) fun _ => .bind (alike_call _) fun _ =>
    .bind (alike_checkStatus _ _) fun _ => .pure

theorem alike_wrap (h : Handle) : Alike (wrap libs.journaled library h) (wrap libs library h) :=
  .bind (.bind (alike_report _) fun _ => .pure) fun owned =>
    .bind (owned.alike_whileHolding (alike_queryShape h)) fun _ =>
      .bind (alike_call _) fun _ => .pure

theorem alike_create (site : CallSite) (c : Creation α Handle) :
    Alike (create libs.journaled library site c) (create libs library site c) :=
  .bind (Action.alike_create _ _) fun h => alike_wrap h

theorem alike_filled (filling : Filling) (dims : List Int) :
    Alike (filled libs.journaled library filling dims) (filled libs library filling dims) :=
  .bind (alike_check _) fun _ => alike_create _ _

theorem alike_ofValues (values : List α) (dims : Option (List Int)) :
    Alike (ofValues libs.journaled library values dims) (ofValues libs library values dims) :=
  .bind (alike_check _) fun _ => alike_create _ _

section

variable [Zero α]

theorem alike_copyData (h : Handle) :
    Alike (copyData (libs.journaled library) h) (copyData (libs library) h) :=
  .bind (alike_call _) fun _ => .bind (alike_reserve _) fun _ => .bind (alike_call _) fun _ =>
    .bind (alike_checkStatus _ _) fun _ => .pure

theorem alike_values (t : Tensor) : Alike (t.values libs.journaled) (t.values libs) :=
  .bind (alike_check _) fun h => alike_copyData h

theorem alike_item (t : Tensor) : Alike (t.item libs.journaled) (t.item libs) := by
  refine .bind (alike_check _) fun h => ?_
  split_ifs
  · exact .throw_bind
  · refine .bind (alike_copyData h) fun values => ?_
    cases values with
    | nil => exact .throw
    | cons x rest => exact .pure

end

theorem alike_destroy (t : Tensor) : Alike (t.destroy libs.journaled) (t.destroy libs) :=
  .bind t.owned.alike_release fun _ => .pure

theorem alike_setTracked (t : Tensor) (flag : Bool) :
    Alike (t.setTracked libs.journaled flag) (t.setTracked libs flag) :=
  .bind (alike_check _) fun _ => .bind (alike_call _) fun _ =>
    .bind (alike_checkStatus _ _) fun _ => .pure

theorem alike_backward (t : Tensor) : Alike (t.backward libs.journaled) (t.backward libs) :=
  .bind (alike_check _) fun _ => .bind (alike_report _) fun _ => .bind (alike_call _) fun _ =>
    alike_checkStatus _ _

theorem alike_gradient (t : Tensor) : Alike (t.gradient libs.journaled) (t.gradient libs) := by
  refine .bind (alike_check _) fun h => .bind (alike_call _) fun g => ?_
  split
  · exact .pure
  · exact .bind (alike_wrap _) fun _ => .pure

theorem alike_binary (op : BinaryOp) (a b : Tensor) :
    Alike (binary libs.journaled op a b) (binary libs op a b) :=
  .bind (alike_check _) fun _ => .bind (alike_check _) fun _ => .bind (alike_check _) fun _ =>
    .bind (alike_check _) fun _ => alike_create _ _

theorem alike_unary (op : UnaryOp) (a : Tensor) :
    Alike (unary libs.journaled op a) (unary libs op a) :=
  .bind (alike_check _) fun _ => .bind (alike_check _) fun _ => alike_create _ _

end Tensor

namespace Layer

theorem alike_create (inputs outputs : Nat) :
    Alike (create libs.journaled library inputs outputs) (create libs library inputs outputs) :=
  .bind (alike_check _) fun _ => .bind (Action.alike_create _ _) fun _ =>
    .bind (.bind (alike_report _) fun _ => .pure) fun _ => .pure

theorem alike_forward (l : Layer) (x : Tensor) :
    Alike (l.forward libs.journaled x) (l.forward libs x) :=
  .bind (alike_check _) fun _ => .bind (alike_check _) fun _ => .bind (alike_check _) fun _ =>
    .bind (alike_check _) fun _ => Tensor.alike_create _ _

theorem alike_releaseRaw : ∀ handles : List (Option Handle),
    Alike (releaseRaw libs.journaled library handles) (releaseRaw libs library handles)
  | [] => .pure
  | _ :: rest => .bind (alike_call _) fun _ => alike_releaseRaw rest

theorem alike_destroyAll : ∀ tensors : List Tensor,
    Alike (destroyAll libs.journaled tensors) (destroyAll libs tensors)
  | [] => .pure
  | t :: rest => .bind t.alike_destroy fun _ => alike_destroyAll rest

theorem alike_discardAll : ∀ tensors : List Tensor,
    Alike (discardAll libs.journaled tensors) (discardAll libs tensors)
  | [] => .pure
  | t :: rest => .bind t.owned.alike_discard fun _ => alike_discardAll rest

theorem alike_wrapAll : ∀ (handles : List (Option Handle)) (wrapped : List Tensor),
    Alike (wrapAll libs.journaled library wrapped handles) (wrapAll libs library wrapped handles)
  | [], _ => .pure
  | h :: rest, wrapped => by
    have hraw : Alike (wrapRaw libs.journaled library h) (wrapRaw libs library h) := by
      cases h with
      | none => exact .throw
      | some h => exact Tensor.alike_wrap h
    unfold wrapAll
    refine .bind (alike_attempt hraw) fun result => ?_
    split
    · exact alike_wrapAll rest _
    · exact .bind (alike_releaseRaw rest) fun _ => .bind (alike_destroyAll wrapped) fun _ => .throw
    · exact .bind (alike_discardAll wrapped) fun _ => .throw

theorem alike_parameters (l : Layer) :
    Alike (l.parameters libs.journaled) (l.parameters libs) :=
  .bind (alike_check _) fun _ => .bind (alike_call _) fun _ => .bind (alike_reserve _) fun _ =>
    .bind (alike_call _) fun _ => .bind (alike_checkStatus _ _) fun _ => alike_wrapAll _ _

end Layer

namespace Optimizer

theorem alike_create (kind : OptimizerKind) (rate : α) (handles : List Handle)
    (c : Creation α Handle) : Alike (create libs.journaled library kind rate handles c)
      (create libs library kind rate handles c) :=
  .bind (Action.alike_create _ _) fun _ => .bind (alike_report _) fun _ =>
    .bind (.bind (alike_report _) fun _ => .pure) fun _ => .pure

theorem alike_adam [Scalar α] (params : List Tensor) (rates : AdamRates α) :
    Alike (adam libs.journaled library params rates) (adam libs library params rates) :=
  .bind (alike_check _) fun _ => .bind (alike_check _) fun _ => alike_create _ _ _ _

theorem alike_sgd [Scalar α] (params : List Tensor) (rates : SgdRates α) :
    Alike (sgd libs.journaled library params rates) (sgd libs library params rates) :=
  .bind (alike_check _) fun _ => .bind (alike_check _) fun _ => alike_create _ _ _ _

theorem alike_step (o : Optimizer α) : Alike (o.step libs.journaled) (o.step libs) :=
  .bind (alike_check _) fun _ => .bind (alike_report _) fun _ => .bind (alike_call _) fun _ =>
    alike_checkStatus _ _

theorem alike_clearGradients (o : Optimizer α) :
    Alike (o.clearGradients libs.journaled) (o.clearGradients libs) :=
  .bind (alike_check _) fun _ => .bind (alike_call _) fun _ => alike_checkStatus _ _

end Optimizer

end Host

/-! ## Steps -/

namespace HostSession

open Host (Tensor Layer)

/-- The state without the journal. -/
def State.plain (s : State α (Journal α V)) : State α V :=
  ⟨s.env.plain, s.tensors, s.layers, s.optimizers⟩

/-- The same part of a step, with and without a journal. -/
abbrev AlikeIn (a : Running α (Journal α V) β) (b : Running α V β) : Prop :=
  Mirrors State.plain a b

variable {setting : Setting α V}

theorem slots_plain (s : State α (Journal α V)) : s.plain.slots = s.slots := by
  funext kind
  cases kind <;> rfl

theorem setSlots_plain (s : State α (Journal α V)) {kind : ResourceKind}
    (slots : Slots (Wrapper α kind)) :
    (s.setSlots kind slots).plain = s.plain.setSlots kind slots := by
  cases kind <;> rfl

theorem alike_perform {a : Action (Journal α V) β} {b : Action V β} (h : Alike a b) :
    AlikeIn (α := α) (perform a) (perform b) := by
  intro s
  show ((b s.env.plain).1.mapError Answer.failed, { s.plain with env := (b s.env.plain).2 }) = _
  rw [h s.env]
  rfl

theorem alike_filledSlot (kind : ResourceKind) (name : String) :
    AlikeIn (α := α) (V := V) (filledSlot kind name) (filledSlot kind name) := by
  intro s
  unfold filledSlot
  rw [slots_plain]
  split <;> rfl

theorem alike_put (kind : ResourceKind) (name : String) (x : Wrapper α kind) :
    AlikeIn (V := V) (put kind name x) (put kind name x) := by
  refine .modify fun s => ?_
  rw [slots_plain, ← setSlots_plain]

theorem alike_discardOld {kind : ResourceKind} (old : Option (Wrapper α kind)) :
    AlikeIn (discardOld setting.journaled old) (discardOld setting old) := by
  cases old with
  | none => exact .pure
  | some x => exact alike_perform x.owned.alike_discard

theorem alike_store (kind : ResourceKind) (name : String) (x : Wrapper α kind) :
    AlikeIn (store setting.journaled kind name x) (store setting kind name x) := by
  refine .get_bind fun s => ?_
  rw [slots_plain]
  exact .bind (alike_put kind name x) fun _ => alike_discardOld _

theorem alike_storeTensors : ∀ (names : List String) (tensors : List Tensor),
    AlikeIn (α := α) (storeTensors setting.journaled names tensors)
      (storeTensors setting names tensors)
  | [], [] => .pure
  | _ :: _, [] => .pure
  | [], t :: tensors => .bind (alike_perform t.owned.alike_discard) fun _ =>
    alike_storeTensors [] tensors
  | name :: names, t :: tensors => .bind (alike_store .tensor name t) fun _ =>
    alike_storeTensors names tensors

theorem alike_dropFrom (kind : ResourceKind) (name : String) :
    AlikeIn (dropFrom setting.journaled kind name) (dropFrom setting kind name) := by
  refine .get_bind fun s => ?_
  rw [slots_plain]
  refine .bind (.modify fun s => ?_) fun _ => .bind (alike_discardOld _) fun _ => .pure
  rw [slots_plain, ← setSlots_plain]

theorem Wrapper.alike_destroy {kind : ResourceKind} (x : Wrapper α kind) :
    Alike (x.destroy setting.libraries.journaled) (x.destroy setting.libraries) := by
  cases kind <;> exact .bind (Host.Owned.alike_release _) fun _ => .pure

theorem alike_destroyAt (kind : ResourceKind) (name : String) :
    AlikeIn (destroyAt setting.journaled kind name) (destroyAt setting kind name) :=
  .bind (alike_filledSlot kind name) fun x => .bind (alike_perform x.alike_destroy) fun _ =>
    .bind (alike_put kind name _) fun _ => .pure

variable [Scalar α] {showData : Bool}

theorem alike_view (t : Tensor) :
    AlikeIn (view setting.journaled showData t) (view setting showData t) := by
  unfold view
  split
  · exact .bind (alike_perform (Action.alike_attempt t.alike_values)) fun _ => .pure
  · exact .pure

theorem alike_keep (out : String) (t : Tensor) :
    AlikeIn (keep setting.journaled showData out t) (keep setting showData out t) :=
  .bind (alike_view t) fun _ => .bind (alike_store .tensor out t) fun _ => .pure

/-- A step is the same with and without a journal. -/
theorem alike_run (step : Step α) :
    AlikeIn (run setting.journaled showData step) (run setting showData step) := by
  have hnew {a : Action (Journal α V) Tensor} {b : Action V Tensor} {out : String}
      (h : Alike a b) : AlikeIn
        (do return (.tensor (← keep setting.journaled showData out (← perform a)) : Answer α))
        (do return .tensor (← keep setting showData out (← perform b))) :=
    .bind (alike_perform h) fun t => .bind (alike_keep out t) fun _ => .pure
  cases step with
  | seed library value => exact .bind (alike_perform (Action.alike_call _)) fun _ => .pure
  | filled library filling dims out => exact hnew (Tensor.alike_filled _ _)
  | ofValues library values dims out => exact hnew (Tensor.alike_ofValues _ _)
  | binary op a b out =>
    exact .bind (alike_filledSlot _ _) fun a => .bind (alike_filledSlot _ _) fun b =>
      hnew (Tensor.alike_binary op a b)
  | unary op a out =>
    exact .bind (alike_filledSlot _ _) fun a => hnew (Tensor.alike_unary op a)
  | values a =>
    exact .bind (alike_filledSlot _ _) fun a => .bind (alike_perform (Tensor.alike_values a))
      fun _ => .pure
  | item a =>
    exact .bind (alike_filledSlot _ _) fun a => .bind (alike_perform (Tensor.alike_item a))
      fun _ => .pure
  | info a | debug a | layerInfo a | optimizerInfo a =>
    exact .bind (alike_filledSlot _ _) fun _ => .pure
  | setTracked a flag =>
    exact .bind (alike_filledSlot _ _) fun t =>
      .bind (alike_perform (Tensor.alike_setTracked t flag)) fun _ =>
        .bind (alike_put .tensor _ _) fun _ => .pure
  | backward a =>
    exact .bind (alike_filledSlot _ _) fun a => .bind (alike_perform (Tensor.alike_backward a))
      fun _ => .pure
  | gradient a out =>
    refine .bind (alike_filledSlot _ _) fun a => .bind (alike_perform (Tensor.alike_gradient a))
      fun g => ?_
    cases g with
    | none => exact .pure
    | some g => exact .bind (alike_keep out g) fun _ => .pure
  | linear library inputs outputs out =>
    exact .bind (alike_perform (Layer.alike_create _ _)) fun l => .bind (alike_store .layer _ l)
      fun _ => .pure
  | forward layer a out =>
    exact .bind (alike_filledSlot _ _) fun l => .bind (alike_filledSlot _ _) fun a =>
      hnew (Layer.alike_forward l a)
  | parameters layer outs =>
    exact .bind (alike_filledSlot _ _) fun l => .bind (alike_perform (Layer.alike_parameters l))
      fun ts => .bind (.mapM alike_view ts) fun _ => .bind (alike_storeTensors outs ts)
      fun _ => .pure
  | adam library params rates out =>
    exact .bind (.mapM (fun _ => alike_filledSlot _ _) params) fun ts =>
      .bind (alike_perform (Host.Optimizer.alike_adam ts rates)) fun o =>
        .bind (alike_store .optimizer _ o) fun _ => .pure
  | sgd library params rates out =>
    exact .bind (.mapM (fun _ => alike_filledSlot _ _) params) fun ts =>
      .bind (alike_perform (Host.Optimizer.alike_sgd ts rates)) fun o =>
        .bind (alike_store .optimizer _ o) fun _ => .pure
  | step optimizer =>
    exact .bind (alike_filledSlot _ _) fun o => .bind (alike_perform (Host.Optimizer.alike_step o))
      fun _ => .pure
  | clearGradients optimizer =>
    exact .bind (alike_filledSlot _ _) fun o =>
      .bind (alike_perform (Host.Optimizer.alike_clearGradients o)) fun _ => .pure
  | destroy kind name => exact alike_destroyAt kind name
  | drop kind name => exact alike_dropFrom kind name
  | inject fault => exact .bind (.modify fun _ => rfl) fun _ => .pure
  | census => exact .get_bind fun s => .pure

variable (setting) (showData)

theorem answer_plain (step : Step α) (s : State α (Journal α V)) :
    setting.answer showData step s.plain =
      ((setting.journaled.answer showData step s).1,
        (setting.journaled.answer showData step s).2.plain) := by
  unfold Setting.answer
  rw [alike_run step s]
  rcases run setting.journaled showData step s with ⟨_ | _, _⟩ <;> rfl

/-- A session has the same answers and the same log with and without a journal. -/
theorem answers_plain : ∀ (steps : List (Step α)) (s : State α (Journal α V)),
    setting.answers showData steps s.plain = setting.journaled.answers showData steps s
  | [], _ => rfl
  | step :: rest, s => by
    have h := answer_plain setting showData step { s with env.log := [] }
    have hs : ({ s.plain with env.log := [] } : State α V) =
      State.plain { s with env.log := [] } := rfl
    rw [Setting.answers, Setting.answers, hs, h]
    exact congrArg _ (answers_plain rest _)

/-- It ends in the same state. -/
theorem after_plain : ∀ (steps : List (Step α)) (s : State α (Journal α V)),
    setting.after showData steps s.plain = (setting.journaled.after showData steps s).plain
  | [], _ => rfl
  | step :: rest, s => by
    have h := answer_plain setting showData step { s with env.log := [] }
    have hs : ({ s.plain with env.log := [] } : State α V) =
      State.plain { s with env.log := [] } := rfl
    rw [Setting.after, Setting.after, hs, h]
    exact after_plain rest _

end HostSession

end DiffTensor
