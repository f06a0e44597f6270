import DiffTensor.Proofs.Checks
import DiffTensor.Proofs.Utf8

/-!
# The last error

Every call that can fail is settled: it leaves the text of its failure as the last error, and
nothing there if it succeeds (`Engine.verdict` is how it went). Since no failure of the library is
without words, the last error is empty exactly after a success. All other calls leave it as it is.

The last error is read in two calls, of which the first only asks how long it is, so that it comes
back whole (`Library.errorText_fst`).
-/

namespace DiffTensor

variable {α V β γ : Type}

/-! ## Failures have words -/

/-- What a failure leaves as the last error. -/
def Failure.text : Failure → String
  | refused cause => cause.message
  | crashed cause => "internal panic: " ++ cause.text

/-- Only a refusal of differentiation in words of its own could be without any. -/
def LibraryError.MaybeEmpty : LibraryError → Prop
  | stated .autograd _ => True
  | _ => False

theorem LibraryError.message_ne_empty {cause : LibraryError} (h : ¬cause.MaybeEmpty) :
    cause.message ≠ "" := by
  cases hk : cause.kind with
  | autograd =>
    have hm : cause.message = cause.detail := by simp only [message, hk]
    rw [hm]
    cases cause with
    | notScalar shape => exact fun h => nomatch (String.append_eq_empty_iff.1 h).1
    | untracked => exact nofun
    | cyclic => exact nofun
    | gradientCount rule given expected => exact fun h => nomatch (String.append_eq_empty_iff.1 h).2
    | stated kind text =>
      obtain rfl : kind = .autograd := hk
      exact absurd trivial h
    | _ => cases hk
  | invalidArgument => simp [message, hk]
  | shapeMismatch => simp [message, hk]
  | unsupportedRank => simp [message, hk]

/-- The computation does not fail without words. -/
def Outcome.Worded (x : Outcome β) : Prop := ∀ f, x = .error f → f.text ≠ ""

namespace Outcome

theorem worded_ok {b : β} : Worded (.ok b) := nofun

theorem worded_refuse {cause : LibraryError} (h : ¬cause.MaybeEmpty) :
    (refuse cause : Outcome β).Worded := by
  rintro f ⟨⟩
  exact LibraryError.message_ne_empty h

theorem worded_crash {cause : Crash} : (crash cause : Outcome β).Worded := by
  rintro f ⟨⟩
  simp [Failure.text]

variable {x : Outcome β}

theorem Worded.bind {f : β → Outcome γ} (hx : x.Worded) (hf : ∀ b, x = .ok b → (f b).Worded) :
    (x >>= f).Worded := by
  cases x with
  | error cause =>
    rintro _ ⟨⟩
    exact hx cause rfl
  | ok b => exact hf b rfl

/-- A failure is passed on with its words. -/
theorem Worded.error {f : Failure} (hx : x.Worded) (hf : x = .error f) :
    Worded (.error f : Outcome γ) := by
  rintro _ ⟨⟩
  exact hx f hf

theorem Worded.map {f : β → γ} (hx : x.Worded) : (f <$> x).Worded := by
  cases x with
  | error cause =>
    rintro _ ⟨⟩
    exact hx cause rfl
  | ok b => exact worded_ok

theorem worded_mapM {f : β → Outcome γ} (hf : ∀ b, (f b).Worded) :
    ∀ l : List β, (l.mapM f).Worded
  | [] => worded_ok
  | b :: l => by
    rw [List.mapM_cons]
    exact (hf b).bind fun _ _ => (worded_mapM hf l).bind fun _ _ => worded_ok

theorem Yields.worded {P : β → Prop} (h : x.Yields Failure.Crashed P) : x.Worded := by
  rintro f rfl
  rcases h with ⟨b, h, -⟩ | ⟨cause, h, hc⟩
  · cases h
  · cases h
    cases f with
    | refused => exact hc.elim
    | crashed cause => exact worded_crash (β := β) _ rfl

/-- No check of the host stands for a refusal of differentiation. -/
theorem Heeds.worded {check : Except HostError (List Int)} {shape : β → List Nat}
    (h : x.Heeds check shape) : x.Worded := by
  cases check with
  | ok dims => exact Yields.worded h
  | error cause =>
    obtain ⟨reason, rfl, hk⟩ := h
    refine worded_refuse fun hm => ?_
    have hr : reason.kind = .autograd := by
      cases reason with
      | stated kind text => cases kind <;> first | rfl | exact hm.elim
      | _ => exact hm.elim
    rw [hr] at hk
    cases cause <;> cases hk

end Outcome

open Outcome

/-- A step of an optimizer breaks off only where it cannot be counted. -/
theorem Optimizer.worded_step [Scalar α] {s : Store α} (h : s.Healthy) {opt : Optimizer α}
    (hf : opt.Fits s) : (opt.step s).1.Worded := by
  by_cases hc : opt.CanStep
  · obtain ⟨result, opt', s', hs, -, -, hok⟩ := Optimizer.step_spec h hf
    rw [hs, hok hc]
    exact worded_ok
  · cases opt with
    | sgd state => exact absurd trivial hc
    | adam state =>
      have ht : Adam.lastStep ≤ state.steps := Nat.not_lt.1 hc
      simp only [Optimizer.step, Adam.step, if_pos ht]
      exact worded_crash

/-- Differentiation is refused in words, or breaks off. -/
theorem Store.Healthy.worded_backward [Scalar α] {s : Store α} (h : s.Healthy)
    (root : NodeId) : (s.backward root).1.Worded := by
  by_cases h1 : (s.value root).size = 1
  · by_cases ht : s.tracked root = true
    · rcases h.backward_result h1 ht with hr | ⟨hr, -⟩ <;> rw [hr]
      · exact worded_ok
      · exact worded_crash
    · have hr : (s.backward root).1 = refuse .untracked := by
        simp [Store.backward, Store.backwardBy, Store.backwardOrder, h1, ht, refuse]
      rw [hr]
      exact worded_refuse not_false
  · have hr : (s.backward root).1 = refuse (.notScalar (s.shape root)) := by
      simp [Store.backward, Store.backwardBy, Store.backwardOrder, h1, refuse]
    rw [hr]
    exact worded_refuse not_false

namespace Engine

section

variable (e : Engine α)

theorem worded_tensor (handle : Option Handle) : (e.tensor handle).Worded := by
  unfold tensor
  split
  · exact worded_refuse not_false
  · split
    · exact worded_ok
    · exact worded_crash

theorem worded_layer (handle : Option Handle) : (e.layer handle).Worded := by
  unfold layer
  split
  · exact worded_refuse not_false
  · split
    · exact worded_ok
    · exact worded_crash

theorem worded_optimizer (handle : Option Handle) : (e.optimizer handle).Worded := by
  unfold optimizer
  split
  · exact worded_refuse not_false
  · split
    · exact worded_ok
    · exact worded_crash

theorem worded_look (q : Query Handle) : (e.look q).Worded := by
  cases q with
  | rank tensor | size tensor | tracked tensor =>
    exact (e.worded_tensor tensor).bind fun _ _ => worded_ok
  | parameterCount layer => exact (e.worded_layer layer).bind fun _ _ => worded_ok

theorem worded_readShape (dims : Option (List Int)) (count : Nat) :
    (readShape dims count).Worded := by
  simp only [readShape]
  split_ifs
  · exact worded_ok
  · split
    · exact worded_refuse not_false
    · split
      · exact worded_refuse not_false
      · split
        · exact worded_refuse not_false
        · exact worded_ok

theorem worded_readData (data : Option (List α)) (length : Nat) :
    (readData data length).Worded := by
  unfold readData
  split_ifs
  · exact worded_ok
  · split
    · exact worded_refuse not_false
    · exact worded_ok

theorem worded_readParameters (handles : Option (List (Option Handle))) (length : Nat) :
    (e.readParameters handles length).Worded := by
  unfold readParameters
  split_ifs
  · exact worded_ok
  · split
    · exact worded_refuse not_false
    · exact worded_mapM e.worded_tensor _

end

variable [Scalar α]

theorem worded_checkParameters (params : List NodeId) (rate : α) :
    (checkParameters params rate).Worded := by
  unfold checkParameters
  split_ifs
  · exact worded_refuse not_false
  · exact worded_ok
  · exact worded_refuse not_false

theorem worded_newLinear [Sampler α] (hu : Sampler.Unrefusing α) (s : Store α) (stream : Stream)
    (inputs outputs : Nat) : (s.newLinear stream inputs outputs).Worded := by
  unfold Store.newLinear
  by_cases h0 : inputs = 0 ∨ outputs = 0
  · rw [if_pos h0]
    exact worded_refuse not_false
  by_cases hw : Extent.wordLimit ≤ inputs * outputs
  · rw [if_neg h0, if_pos hw]
    exact worded_refuse not_false
  · rw [if_neg h0, if_neg hw]
    exact (Sampler.yields_fill (hu _) _ _).worded.bind fun _ _ =>
      (Sampler.yields_fill (hu _) _ _).worded.bind fun _ _ => worded_ok

variable {e : Engine α}

section

variable [Sampler α]

theorem Sound.worded_build (hS : e.Sound) (hu : Sampler.Unrefusing α) (c : Creation α Handle) :
    (e.build c).Worded := by
  cases c with
  | filled filling dims count =>
    exact (worded_readShape dims count).bind fun shape _ =>
      (yields_filledBuffer filling shape _).worded.bind fun _ _ => worded_ok
  | fromData data length dims count =>
    refine (worded_readShape dims count).bind fun shape _ =>
      (worded_readData data length).bind fun values _ => Worded.bind ?_ fun _ _ => worded_ok
    unfold Buffer.fill
    split_ifs
    · exact worded_ok
    · exact worded_refuse not_false
  | binary op a b =>
    refine (e.worded_tensor a).bind fun n _ => (e.worded_tensor b).bind fun m _ => ?_
    have h := (op.heeds_value (hS.graph.sound.values n) (hS.graph.sound.values m)).worded
    exact Worded.bind (Worded.bind h fun _ _ => worded_ok) fun _ _ => worded_ok
  | unary op a =>
    refine (e.worded_tensor a).bind fun n _ => ?_
    have h := (op.heeds_value (e.store.value n)).worded
    exact Worded.bind (Worded.bind h fun _ _ => worded_ok) fun _ _ => worded_ok
  | newLinear inputs outputs =>
    exact (worded_newLinear hu e.store e.stream inputs outputs).bind fun _ _ => worded_ok
  | applyLinear layer x =>
    refine (e.worded_layer layer).bind fun l hl => (e.worded_tensor x).bind fun n _ => ?_
    have hfits := hS.layer hl
    let wrapper : Host.Layer := ⟨⟨.layer, 0, none⟩, l.inputs, l.outputs⟩
    have hi : wrapper.inputs = l.inputs := rfl
    have ho : wrapper.outputs = l.outputs := rfl
    have h := (Linear.heeds_value (hS.graph.sound.values n) (hS.graph.sound.values l.weight)
      hfits.weight.2 hi ho (e.store.value l.bias)).worded
    exact Worded.bind (Worded.bind h fun _ _ => worded_ok) fun _ _ => worded_ok
  | adam handles length rates =>
    refine (e.worded_readParameters handles length).bind fun params _ => Worded.bind ?_
      fun _ _ => worded_ok
    refine (worded_checkParameters params _).bind fun _ _ => Worded.bind ?_ fun _ _ => worded_ok
    exact worded_mapM (fun n => (Buffer.yields_full _ 0).worded.bind fun _ _ => worded_ok) params
  | sgd handles length rates =>
    refine (e.worded_readParameters handles length).bind fun params _ => Worded.bind ?_
      fun _ _ => worded_ok
    exact (worded_checkParameters params _).bind fun _ _ => worded_ok

end

omit [Scalar α] in
/-- Whatever a command is refused for has a text. -/
theorem Refuses.worded {c : Command Handle} {cause : Failure} (h : e.Refuses c cause) :
    Outcome.Worded (.error cause : Outcome Unit) := by
  cases h with
  | @setTracked tensor flag _ hs =>
    have h : (do (e.store.setTracked (← e.tensor tensor) flag) : Outcome (Store α)).Worded := by
      refine (e.worded_tensor tensor).bind fun n _ => ?_
      unfold Store.setTracked
      split_ifs
      · exact worded_refuse not_false
      · exact worded_ok
    exact h.error hs
  | backward ht => exact (e.worded_tensor _).error ht
  | step ho | clearGradients ho => exact (e.worded_optimizer _).error ho

theorem Sound.worded_run (hS : e.Sound) (c : Command Handle) : (e.run c).1.Worded := by
  have hr := e.ran c
  generalize e.run c = out at hr ⊢
  cases hr with
  | refused hr => exact hr.worded
  | setTracked _ _ | clearGradients _ => exact worded_ok
  | @backward _ root _ _ _ hb =>
    have hw := hS.graph.worded_backward root
    rwa [hb] at hw
  | step ho hs =>
    have hw := Optimizer.worded_step hS.graph (hS.optimizer ho)
    rwa [hs] at hw

/-! ## Calls that are settled -/

end Engine

/-- What a computation leaves as the last error: nothing if it succeeds. -/
def Outcome.words (x : Outcome β) : String :=
  match x with
  | .ok _ => ""
  | .error f => f.text

/-- The status that reports how a computation went. -/
def Outcome.status (x : Outcome β) : Status :=
  match x with
  | .ok _ => .success
  | .error f => f.status

/-- The status that a caller is given, unless the call has none to give. -/
def Call.status? : (c : Call α) → c.Reply → Option Status
  | .create _ true, made => some (made.status.getD .internal)
  | .command _, status => some status
  | .shape .., out => some out.status
  | .copyData .., out => some out.status
  | .parameters .., out => some out.status
  | _, _ => none

namespace Outcome

variable {x : Outcome β}

theorem words_map (f : β → γ) : (f <$> x).words = x.words := by cases x <;> rfl

theorem status_map (f : β → γ) : (f <$> x).status = x.status := by cases x <;> rfl

theorem Worded.words_eq_empty_iff {x : Outcome Unit} (h : x.Worded) :
    x.words = "" ↔ x = .ok () := by
  cases x with
  | ok u => exact ⟨fun _ => rfl, fun _ => rfl⟩
  | error f => exact ⟨fun hf => absurd hf (h f rfl), nofun⟩

end Outcome

namespace Engine

section

variable (e : Engine α) (x : Outcome β) (y : Outcome (β × Engine α))

theorem lastError_settle : (settle x e).2.1.lastError = x.words := by
  rcases x with (cause | cause) | b <;> rfl

theorem lastError_attempt : (e.attempt y).2.1.lastError = y.words := by
  rcases y with (cause | cause) | ⟨b, e'⟩ <;> rfl

theorem status_written {β : Type} (result : Except Status (List β)) :
    (written result).status = statusOf result := by cases result <;> rfl

theorem statusOf_attempt : statusOf (e.attempt y).1 = y.status := by
  rcases y with (cause | cause) | ⟨b, e'⟩ <;> rfl

theorem statusOf_settle : statusOf (settle x e).1 = x.status := by
  rcases x with (cause | cause) | b <;> rfl

end

variable [Scalar α] [Sampler α]

/-- How a call goes that is settled; a call that is not settled cannot fail. -/
def verdict (e : Engine α) : Call α → Option (Outcome Unit)
  | .seed _ | .lastError _ | .release .. | .create _ false => none
  | .create c true => some ((fun _ => ()) <$> e.make c)
  | .command c => some (e.run c).1
  | .query q => some ((fun _ => ()) <$> e.look q)
  | .shape tensor hasBuffer => some ((fun _ => ()) <$> e.readDims tensor hasBuffer)
  | .copyData tensor hasBuffer length =>
    some ((fun _ => ()) <$> e.readValues tensor hasBuffer length)
  | .parameters layer hasBuffer length =>
    some ((fun _ => ()) <$> e.exportParameters layer hasBuffer length)
  | .gradient tensor => some ((fun _ => ()) <$> e.exportGradient tensor)

/-- What is settled is left as the last error. -/
theorem lastError_answer {e : Engine α} {c : Call α} {result : Outcome Unit}
    (hv : e.verdict c = some result) : (e.answer c).2.1.lastError = result.words := by
  cases c with
  | seed value | lastError buffer | release kind handle => cases hv
  | create body hasStatus =>
    cases hasStatus with
    | false => cases hv
    | true =>
      cases hv
      rw [words_map, ← lastError_attempt e]
      simp only [answer, answerCreation]
      split <;> rfl
  | command body =>
    cases hv
    exact lastError_settle ..
  | query body =>
    cases hv
    exact (lastError_settle ..).trans (words_map _).symm
  | shape tensor hasBuffer =>
    cases hv
    exact (lastError_settle ..).trans (words_map _).symm
  | copyData tensor hasBuffer length =>
    cases hv
    exact (lastError_settle ..).trans (words_map _).symm
  | parameters layer hasBuffer length =>
    cases hv
    exact (lastError_attempt ..).trans (words_map _).symm
  | gradient tensor =>
    cases hv
    exact (lastError_attempt ..).trans (words_map _).symm

/-- The status that is reported says how the call went. -/
theorem status_answer {e : Engine α} {c : Call α} {status : Status}
    (hs : c.status? (e.answer c).1 = some status) :
    ∃ result, e.verdict c = some result ∧ status = result.status := by
  cases c with
  | seed value | lastError buffer | release kind handle | query body | gradient tensor => cases hs
  | create body hasStatus =>
    cases hasStatus with
    | false => cases hs
    | true =>
      refine ⟨_, rfl, ?_⟩
      rw [status_map, make_eq, status_map]
      simp only [Call.status?, (e.answer_create body).1, Option.some.injEq] at hs
      rw [← hs]
      cases e.build body <;> rfl
  | command body =>
    cases hs
    exact ⟨_, rfl, statusOf_settle ..⟩
  | shape tensor hasBuffer =>
    cases hs
    refine ⟨_, rfl, ?_⟩
    rw [status_map, ← statusOf_settle]
    exact status_written _
  | copyData tensor hasBuffer length =>
    cases hs
    refine ⟨_, rfl, ?_⟩
    rw [status_map, ← statusOf_settle]
    exact status_written _
  | parameters layer hasBuffer length =>
    cases hs
    refine ⟨_, rfl, ?_⟩
    rw [status_map, ← statusOf_attempt]
    exact status_written _

/-- Calls that cannot fail leave the last error as it is. -/
theorem lastError_of_unsettled {e : Engine α} {c : Call α} (hv : e.verdict c = none) :
    (e.answer c).2.1.lastError = e.lastError := by
  cases c with
  | seed value | lastError buffer => rfl
  | release kind handle => cases handle <;> rfl
  | create body hasStatus =>
    cases hasStatus with
    | false => rfl
    | true => cases hv
  | _ => cases hv

/-- No call fails without words. -/
theorem Sound.worded {e : Engine α} (hS : e.Sound) (hu : Sampler.Unrefusing α) {c : Call α}
    {result : Outcome Unit} (hv : e.verdict c = some result) : result.Worded := by
  cases c with
  | seed value | lastError buffer | release kind handle => cases hv
  | create body hasStatus =>
    cases hasStatus with
    | false => cases hv
    | true =>
      cases hv
      rw [make_eq]
      exact (hS.worded_build hu body).map.map
  | command body =>
    cases hv
    exact hS.worded_run body
  | query body =>
    cases hv
    exact (e.worded_look body).map
  | shape tensor hasBuffer =>
    cases hv
    refine Worded.map ((e.worded_tensor tensor).bind fun n _ => ?_)
    dsimp only
    split_ifs
    · exact worded_ok
    · exact worded_refuse not_false
    · exact worded_ok
  | copyData tensor hasBuffer length =>
    cases hv
    refine Worded.map ((e.worded_tensor tensor).bind fun n _ => ?_)
    dsimp only
    split_ifs
    · exact worded_refuse not_false
    · exact worded_ok
    · exact worded_refuse not_false
    · exact worded_ok
  | parameters layer hasBuffer length =>
    cases hv
    refine Worded.map ((e.worded_layer layer).bind fun l _ => ?_)
    split_ifs
    · exact worded_refuse not_false
    · exact worded_refuse not_false
    · exact worded_ok
  | gradient tensor =>
    cases hv
    refine Worded.map ((e.worded_tensor tensor).bind fun n _ => ?_)
    cases e.store.gradient n <;> exact worded_ok

/-- What a caller learns from the last error, whatever it calls. -/
structure Channel (e : Engine α) : Prop where
  /-- A call that is settled leaves the words of its failure, and nothing after a success. -/
  settled : ∀ (c : Call α) (result : Outcome Unit), e.verdict c = some result →
    (e.answer c).2.1.lastError = result.words ∧
      ((e.answer c).2.1.lastError = "" ↔ result = .ok ())
  /-- A status that is reported says how the call went. -/
  status : ∀ (c : Call α) (status : Status), c.status? (e.answer c).1 = some status →
    ∃ result, e.verdict c = some result ∧ status = result.status
  /-- All other calls leave the last error as it is. -/
  unsettled : ∀ c : Call α, e.verdict c = none → (e.answer c).2.1.lastError = e.lastError
  /-- Without a place for its status, a call that makes an object does nothing. -/
  idle : ∀ body : Creation α Handle, e.answer (.create body false) = (⟨none, none⟩, e, [])
  /-- With one, it hands out an object exactly if it reports success. -/
  created : ∀ body : Creation α Handle, ∃ status,
    (e.answer (.create body true)).1.status = some status ∧
      ((e.answer (.create body true)).1.handle.isSome ↔ status = .success)
  /-- That there is no gradient is told from a failure by the last error. -/
  absent : ∀ tensor, ((e.answer (.gradient tensor)).1 = none ∧
    (e.answer (.gradient tensor)).2.1.lastError = "") ↔
      ∃ n, e.tensor tensor = .ok n ∧ e.store.gradient n = none

theorem Sound.channel {e : Engine α} (hS : e.Sound) (hu : Sampler.Unrefusing α) : e.Channel where
  settled c result hv := by
    refine ⟨lastError_answer hv, ?_⟩
    rw [lastError_answer hv]
    exact (hS.worded hu hv).words_eq_empty_iff
  status c status hs := status_answer hs
  unsettled c hv := lastError_of_unsettled hv
  idle body := rfl
  created body := by
    rw [(e.answer_create body).1]
    cases e.build body with
    | ok new => exact ⟨_, rfl, fun _ => rfl, fun _ => rfl⟩
    | error cause =>
      exact ⟨_, rfl, fun h => absurd h Bool.false_ne_true,
        fun h => absurd h cause.status_ne_success⟩
  absent tensor := by
    have hr : (e.answer (.gradient tensor)).1 =
        (e.attempt (e.exportGradient tensor)).1.toOption.join := rfl
    rw [hr, attempt_fst, lastError_answer (c := .gradient tensor) rfl, words_map]
    cases ht : e.tensor tensor with
    | error cause =>
      have hx : e.exportGradient tensor = .error cause := by
        rw [Engine.exportGradient, ht]
        rfl
      have hw := (e.worded_tensor tensor) cause ht
      rw [hx]
      refine ⟨fun h => absurd h.2 hw, ?_⟩
      rintro ⟨n, hn, -⟩
      cases hn
    | ok n =>
      cases hg : e.store.gradient n with
      | none =>
        have hx : e.exportGradient tensor = .ok (none, e) := by
          rw [Engine.exportGradient, ht, Outcome.ok_bind, hg]
          rfl
        rw [hx]
        exact ⟨fun _ => ⟨n, rfl, hg⟩, fun _ => ⟨rfl, rfl⟩⟩
      | some k =>
        have hx : e.exportGradient tensor =
            .ok (some (e.handOut (.tensor k)).1, (e.handOut (.tensor k)).2) := by
          rw [Engine.exportGradient, ht, Outcome.ok_bind, hg]
          rfl
        rw [hx]
        refine ⟨fun h => absurd h.1 (Option.some_ne_none _), ?_⟩
        rintro ⟨m, hm, hnone⟩
        obtain rfl : n = m := Except.ok.inj hm
        rw [hg] at hnone
        cases hnone

end Engine

/-! ## Reading it -/

namespace Library

/-- The two calls that read the last error. -/
theorem errorText_apply (library : Library α V) (env : Env V) :
    library.errorText env =
      let asked := library.call (.lastError none) env
      let full := asked.1.length
      let told := library.call (.lastError (some (List.replicate (full + 1) 0))) asked.2
      if full = 0 then ("", asked.2)
      else (Text.Utf8.decode (told.1.buffer.take (min told.1.length full)), told.2) := by
  show (if (library.call (.lastError none) env).1.length = 0 then _ else _ : Calling V String) _ = _
  dsimp only
  split_ifs <;> rfl

/-- Reading comes to the text with which both calls are answered. -/
theorem errorText_fst {library : Library α V} {env : Env V} {text : String}
    (hlength : (library.answer (.lastError none) env.world).1 =
      .ofText (Text.Utf8.encode text) none)
    (hcopy : ∀ buffer, (library.answer (.lastError buffer)
      (library.answer (.lastError none) env.world).2.1).1 =
        .ofText (Text.Utf8.encode text) buffer) :
    (library.errorText env).1 = text := by
  have hasked : (library.call (.lastError none) env).1.length = (Text.Utf8.encode text).length :=
    (congrArg Copied.length hlength).trans (Copied.length_ofText _ _)
  have htold (buffer : Option (List UInt8)) :
      (library.call (.lastError buffer) (library.call (.lastError none) env).2).1 =
        .ofText (Text.Utf8.encode text) buffer := hcopy buffer
  rw [errorText_apply]
  simp only [hasked, htold, Copied.length_ofText, Nat.min_self]
  split_ifs with h0
  · have htext := Text.Utf8.decode_encode text
    rw [List.length_eq_zero_iff.1 h0] at htext
    exact htext
  · rw [Copied.take_ofText _ _ (by simp)]
    exact Text.Utf8.decode_encode text

/-- The reference library tells its last error, and stays as it is. -/
theorem errorText_reference [Scalar α] [Sampler α] (e : Engine α) (log : List Event) :
    (reference : Library α (Engine α)).errorText ⟨e, log⟩ = (e.lastError, ⟨e, log⟩) := by
  refine Prod.ext (errorText_fst rfl fun _ => rfl) ?_
  have hcall (buffer : Option (List UInt8)) :
      ((reference : Library α (Engine α)).call (.lastError buffer) ⟨e, log⟩).2 = ⟨e, log⟩ :=
    congrArg (Env.mk e) (List.append_nil log)
  rw [errorText_apply]
  simp only [hcall]
  split_ifs <;> rfl

end Library

end DiffTensor
