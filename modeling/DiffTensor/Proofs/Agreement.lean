import DiffTensor.Proofs.Checks
import DiffTensor.Proofs.Refinement

/-!
# The host and the library agree on what to refuse

A step of a session that makes a tensor goes by a check of the host on what the wrappers keep, and
so does the call that it leads to (`Concurs`): the library would have refused what the host refuses,
for a reason of the same kind, and what the host lets pass is not refused, but made in the
dimensions that the host has worked out unless there is no room for it. That the wrappers of a
session keep the shapes of their nodes carries this to every state (`checks_agree`).
-/

namespace DiffTensor

variable {α V β : Type}

/-! ## Replies -/

/-- The call was not refused: it has succeeded or has broken off. -/
def Created.Unrefused (made : Created) : Prop :=
  made = ⟨some .internal, none⟩ ∨ ∃ h, made = ⟨some .success, some h⟩

/-- The call was refused, with the status of the same kind, exactly if the check refuses. -/
def Created.Heeds (made : Created) (check : Except HostError β) : Prop :=
  match check with
  | .error cause => ∃ kind, cause.kind? = some kind ∧ made = ⟨some kind.status, none⟩
  | .ok _ => made.Unrefused

namespace HostSession

open Host (Tensor Layer Owned sameLibrary)

variable [Scalar α] [Sampler α] {setting : Setting α V} {showData : Bool} {engine : V → Engine α}
  {calm asked : V → Prop} {w : State α (Engine α)} {g : GraphSession.State α} {s : State α V}
  {step : Step α} {out : String} {library : LibraryId} {c : Creation α Handle}

/-- The reply to a call that makes an object. -/
def State.reply (setting : Setting α V) (library : LibraryId) (c : Creation α Handle)
    (s : State α V) : Created :=
  ((setting.libraries library).answer (.create c true) s.env.world).1

theorem In.reply_eq (hS : Serving setting.libraries engine calm asked) (hs : In engine calm w s)
    (library : LibraryId) (c : Creation α Handle) :
    s.reply setting library c = match w.env.world.build c with
      | .ok _ => ⟨some .success, some w.env.world.objects.size⟩
      | .error cause => ⟨some cause.status, none⟩ := by
  rw [hs.world_eq, Engine.build_hushed]
  exact (hS.reply library _ hs.1).trans (Engine.answer_create _ c).1

/-- What is not refused is answered so. -/
theorem In.unrefused (hS : Serving setting.libraries engine calm asked) (hs : In engine calm w s)
    (library : LibraryId) {P : Object α × Store α × Stream → Prop}
    (hb : (w.env.world.build c).Yields Failure.Crashed P) :
    (s.reply setting library c).Unrefused := by
  rw [hs.reply_eq hS]
  rcases hb with ⟨new, hb, -⟩ | ⟨cause, hb, hc⟩ <;> rw [hb]
  · exact .inr ⟨_, rfl⟩
  · cases cause with
    | refused => exact hc.elim
    | crashed => exact .inl rfl

theorem In.heeds (hS : Serving setting.libraries engine calm asked) (hs : In engine calm w s)
    (library : LibraryId) {check : Except HostError (List Int)}
    (hb : (w.env.world.build c).Heeds check Engine.madeShape) :
    (s.reply setting library c).Heeds check := by
  cases check with
  | ok dims => exact hs.unrefused hS library hb
  | error cause =>
    obtain ⟨reason, hb, hk⟩ := hb
    refine ⟨reason.kind, hk, ?_⟩
    rw [hs.reply_eq hS, hb]
    rfl

/-! ## Steps that make a tensor -/

/-- The step is refused without a trace where there is no call to make. If its call succeeds, the
new tensor is in the slot, with the shape that the library has given it. -/
def Delivers (w : State α (Engine α)) (out : String) (call : Except HostError (Creation α Handle))
    (s : State α V) (a : Answer α) (s' : State α V) : Prop :=
  match call with
  | .error cause => a = .failed (.refused cause) ∧ s' = s
  | .ok c => ∀ new, w.env.world.build c = .ok new → a.Succeeded ∧
      ∃ t, s'.tensors.find? out = some t ∧ t.shape = (Engine.madeShape new).map Int.ofNat

/-- A step that makes a tensor under `out`, and the call that it leads to, go by a check of the
host. -/
structure Concurs (setting : Setting α V) (showData : Bool) (step : Step α) (out : String)
    (check : Except HostError (List Int)) (library : LibraryId) (c : Creation α Handle)
    (s : State α V) : Prop where
  /-- The library refuses what the check refuses, for a reason of the same kind, and nothing
  else. -/
  native : (s.reply setting library c).Heeds check
  /-- The host refuses the step with the words of the check. -/
  refused : ∀ cause, check = .error cause →
    setting.answer showData step s = (.failed (.refused cause), s)
  /-- If the call succeeds, the new wrapper has the shape that the check has found. -/
  shaped : (s.reply setting library c).status = some .success →
    (setting.answer showData step s).1.Succeeded ∧
      ∃ t, (setting.answer showData step s).2.tensors.find? out = some t ∧ check = .ok t.shape

theorem Concurs.of_delivers (hS : Serving setting.libraries engine calm asked)
    (hs : In engine calm w s) {check : Except HostError (List Int)} (library : LibraryId)
    (hb : (w.env.world.build c).Heeds check Engine.madeShape)
    (hd : Delivers w out ((fun _ => c) <$> check) s (setting.answer showData step s).1
      (setting.answer showData step s).2) :
    Concurs setting showData step out check library c s where
  native := hs.heeds hS library hb
  refused := by
    rintro cause rfl
    exact Prod.ext hd.1 hd.2
  shaped hstatus := by
    rw [hs.reply_eq hS] at hstatus
    cases hnew : w.env.world.build c with
    | error cause =>
      rw [hnew] at hstatus
      exact absurd (Option.some.inj hstatus) cause.status_ne_success
    | ok new =>
      cases check with
      | error cause =>
        obtain ⟨reason, hr, -⟩ := hb
        rw [hnew] at hr
        cases hr
      | ok dims =>
        obtain ⟨hok, t, ht, hshape⟩ := hd new hnew
        rcases hb with ⟨new', hnew', hdims⟩ | ⟨cause, hc, -⟩
        · obtain rfl : new = new' := Except.ok.inj (hnew.symm.trans hnew')
          exact ⟨hok, t, ht, by rw [hshape, hdims]⟩
        · rw [hnew] at hc
          cases hc

section

variable (hS : Serving setting.libraries engine calm asked) (hs : In engine calm w s)
  (hw : Stands w g)

include hS hs hw

theorem meets_delivering {operation : Action V Tensor} {call : Except HostError (Creation α Handle)}
    (hop : Meets (· = s.env) operation (Serving.Made engine asked w.env.world library call)
      (Serving.Balked engine asked w.env.world s.env call))
    (hc : ∀ c, call = .ok c → (Call.create c true).Representable) :
    Meets (· = s)
      (do let t ← perform operation
          return (.tensor (← keep setting showData out t) : Answer α))
      (Delivers w out call s) (Delivers w out call s) := by
  refine meets_keptNode hS hs hw.sound hop hc ?_ fun c n new hcall hb shown s' hs' => ?_
  · rintro cause env (⟨reason, rfl, rfl, rfl⟩ | ⟨c, rfl, ⟨f, hb⟩, -⟩)
    · exact ⟨rfl, rfl⟩
    · intro new hnew
      rw [hb] at hnew
      cases hnew
  · subst hcall
    intro new' hnew
    rw [hb] at hnew
    cases hnew
    refine ⟨.of trivial, .wrapping library w.env.world.objects.size new.1 n, ?_, rfl⟩
    show (s'.slots .tensor).find? out = _
    rw [hs'.slots_eq, State.find?_fill, if_pos rfl]

variable {a b name : String} {t u : Tensor} {l : Layer} {h k : Handle}

theorem concurs_filled {dims : List Int} (hd : Words (some dims)) (library : LibraryId)
    (filling : Filling) (out : String) :
    Concurs setting showData (.filled library filling dims out) out
      ((fun _ => dims) <$> Dims.checked dims) library
      (.filled filling (Tensor.passed dims) dims.length) s := by
  have hcall : Tensor.filledCall filling dims = (fun _ => (.filled filling (Tensor.passed dims)
      dims.length : Creation α Handle)) <$> (fun _ => dims) <$> Dims.checked dims := by
    unfold Tensor.filledCall
    cases Dims.checked dims <;> rfl
  refine .of_delivers hS hs library (Engine.heeds_filled _ filling dims) ?_
  rw [← hcall]
  exact answer_of_meets (meets_delivering hS hs hw (hS.meets_filled hs.at_env hw.sound hd)
    fun c hc => (Tensor.makesTensor_filled hd hc).1)

theorem concurs_unary (ht : s.tensors.find? a = some t) (hh : t.owned.held = some h) (op : UnaryOp)
    (out : String) :
    Concurs setting showData (.unary op a out) out (op.resultShape t.shape) t.library
      (.unary op (some h)) s := by
  have htw := hs.find?_slot .tensor ht
  obtain ⟨n, -, ho, hn⟩ := hw.live htw hh
  have hn : t.shape = (w.env.world.store.shape n).map Int.ofNat := hn
  have hcall : Tensor.unaryCall op t =
      (fun _ => (.unary op (some h) : Creation α Handle)) <$> op.resultShape t.shape := by
    simp only [Tensor.unaryCall, Owned.handle_eq_ok.2 hh]
    cases op.resultShape t.shape <;> rfl
  refine .of_delivers hS hs t.library ?_ ?_
  · rw [hn]
    exact Engine.heeds_unary ho op
  · rw [← hcall]
    exact answer_of_meets (meets_inSlot ht (meets_delivering hS hs hw
      (hS.meets_unary hs.at_env hw.sound) fun c hc => (Tensor.makesTensor_unary hc).1))

theorem concurs_binary (ht : s.tensors.find? a = some t) (hu : s.tensors.find? b = some u)
    (hh : t.owned.held = some h) (hk : u.owned.held = some k) (hl : t.library = u.library)
    (op : BinaryOp) (out : String) :
    Concurs setting showData (.binary op a b out) out (op.resultShape t.shape u.shape) t.library
      (.binary op (some h) (some k)) s := by
  have htw := hs.find?_slot .tensor ht
  have huw := hs.find?_slot .tensor hu
  obtain ⟨n, -, hon, hn⟩ := hw.live htw hh
  obtain ⟨m, -, hom, hm⟩ := hw.live huw hk
  have hn : t.shape = (w.env.world.store.shape n).map Int.ofNat := hn
  have hm : u.shape = (w.env.world.store.shape m).map Int.ofNat := hm
  have hcall : Tensor.binaryCall op t u = (fun _ => (.binary op (some h) (some k) :
      Creation α Handle)) <$> op.resultShape t.shape u.shape := by
    simp only [Tensor.binaryCall, Owned.handle_eq_ok.2 hh, Owned.handle_eq_ok.2 hk, sameLibrary,
      if_pos (show t.owned.library = u.owned.library from hl)]
    cases op.resultShape t.shape u.shape <;> rfl
  refine .of_delivers hS hs t.library ?_ ?_
  · rw [hn, hm]
    exact Engine.heeds_binary hw.sound hon hom op
  · rw [← hcall]
    exact answer_of_meets (meets_inSlot ht (meets_inSlot hu (meets_delivering hS hs hw
      (hS.meets_binary hs.at_env hw.sound)
      fun c hc => (Tensor.makesTensor_binary hc).1)))

theorem concurs_forward (hf : s.layers.find? name = some l) (ht : s.tensors.find? a = some t)
    (hh : l.owned.held = some h) (hk : t.owned.held = some k) (hl : l.library = t.library)
    (out : String) :
    Concurs setting showData (.forward name a out) out (l.resultShape t.shape) l.library
      (.applyLinear (some h) (some k)) s := by
  have hlw := hs.find?_slot .layer hf
  have htw := hs.find?_slot .tensor ht
  obtain ⟨layer, -, hol, hi, ho⟩ := hw.live hlw hh
  obtain ⟨n, -, hon, hn⟩ := hw.live htw hk
  have hn : t.shape = (w.env.world.store.shape n).map Int.ofNat := hn
  have hcall : Layer.forwardCall l t = (fun _ => (.applyLinear (some h) (some k) :
      Creation α Handle)) <$> l.resultShape t.shape := by
    simp only [Layer.forwardCall, Owned.handle_eq_ok.2 hh, Owned.handle_eq_ok.2 hk, sameLibrary,
      if_pos (show l.owned.library = t.owned.library from hl), Layer.resultShape]
    cases l.checkInput t.shape <;> rfl
  refine .of_delivers hS hs l.library ?_ ?_
  · rw [hn]
    exact Engine.heeds_applyLinear hw.sound hol hon hi ho
  · rw [← hcall]
    exact answer_of_meets (meets_inSlot hf (meets_inSlot ht (meets_delivering hS hs hw
      (hS.meets_forward hs.at_env hw.sound)
      fun c hc => (Layer.makesTensor_forward hc).1)))

end

/-! ## All checks -/

/-- The checks of the host and those of the library agree in a state of a session. -/
structure Concordant (setting : Setting α V) (showData : Bool) (s : State α V) : Prop where
  /-- Zeros, ones and normal samples. -/
  filled : ∀ {dims}, Words (some dims) → ∀ library filling out,
    Concurs setting showData (.filled library filling dims out) out
      ((fun _ => dims) <$> Dims.checked dims) library
      (.filled filling (Tensor.passed dims) dims.length) s
  unary : ∀ {a} {t : Tensor} {h}, s.tensors.find? a = some t → t.owned.held = some h →
    ∀ op out, Concurs setting showData (.unary op a out) out (op.resultShape t.shape) t.library
      (.unary op (some h)) s
  binary : ∀ {a b} {t u : Tensor} {h k}, s.tensors.find? a = some t →
    s.tensors.find? b = some u → t.owned.held = some h → u.owned.held = some k →
    t.library = u.library → ∀ op out,
    Concurs setting showData (.binary op a b out) out (op.resultShape t.shape u.shape) t.library
      (.binary op (some h) (some k)) s
  forward : ∀ {name a} {l : Layer} {t : Tensor} {h k}, s.layers.find? name = some l →
    s.tensors.find? a = some t → l.owned.held = some h → t.owned.held = some k →
    l.library = t.library → ∀ out,
    Concurs setting showData (.forward name a out) out (l.resultShape t.shape) l.library
      (.applyLinear (some h) (some k)) s
  /-- Values that the host takes are not refused. -/
  ofValues : ∀ {values dims c}, values.length < Extent.allocationLimit →
    Tensor.ofValuesCall values dims = .ok c → ∀ library, (s.reply setting library c).Unrefused
  /-- A layer that the host asks for is not refused. -/
  newLayer : ∀ {inputs outputs c}, Layer.createCall inputs outputs = .ok c →
    ∀ library, (s.reply setting library c).Unrefused

theorem Stands.concordant (hu : Sampler.Unrefusing α)
    (hS : Serving setting.libraries engine calm asked) (hs : In engine calm w s) (hw : Stands w g) :
    Concordant setting showData s where
  filled hd library filling out := concurs_filled hS hs hw hd library filling out
  unary ht hh op out := concurs_unary hS hs hw ht hh op out
  binary ht hu hh hk hl op out := concurs_binary hS hs hw ht hu hh hk hl op out
  forward hf ht hh hk hl out := concurs_forward hS hs hw hf ht hh hk hl out
  ofValues hv hc library := hs.unrefused hS library (Engine.yields_ofValues _ hv hc)
  newLayer hc library := hs.unrefused hS library (Engine.yields_newLinear hu _ hc)

/-- In every state of every session with the reference library, over the numbers that it runs on,
the checks of the host and those of the library agree. -/
theorem checks_agree (seed : UInt64) (showData : Bool) {steps : List (Step Float)}
    (hsteps : ∀ step ∈ steps, step.Ordinary) :
    let setting : Setting Float (Rehearsal (Engine Float)) := .rehearsing .reference
    Concordant setting showData
      (setting.after showData steps (.new { inner := .ofSeed seed })) := by
  intro setting
  obtain ⟨w, hs, hw⟩ := stands_after showData serving_rehearsing (stands_start seed).1
    (stands_start seed).2 hsteps
  exact hw.concordant Sampler.unrefusing_double serving_rehearsing hs

/-- A layer has been applied to the parts of a sum that was broadcast. -/
theorem checks_agree_broadcast :
    let steps : List (Step Float) := [.linear 0 2 1 "l", .filled 0 .ones [3, 1] "x",
      .filled 0 .normal [1, 2] "y", .binary .add "x" "y" "z", .forward "l" "z" "out",
      .binary .matmul "z" "x" "bad"]
    let setting : Setting Float (Rehearsal (Engine Float)) := .rehearsing .reference
    Concordant setting true (setting.after true steps (.new { inner := .ofSeed 7 })) := by
  intro steps
  have hsteps : ∀ step ∈ steps, step.Ordinary := by decide
  exact checks_agree 7 true hsteps

end HostSession

end DiffTensor
