import DiffTensor.Proofs.Persistence
import DiffTensor.Proofs.ReferenceCustody

/-!
# Runs of training

An optimizer is made by one call of the library, and from then on any calls may come before and
between its steps. Only a step that is asked of the handle itself changes the optimizer behind it
(`object?_answer`), and a step that fails changes nothing. So what every step keeps holds of the
optimizer after all calls, with the steps that were taken on the way (`Sound.optimizer_after`).
-/

namespace DiffTensor

variable {α : Type}

/-! ## New optimizers -/

/-- The settings of either optimizer. -/
inductive Settings (α : Type) where
  | adam (rates : AdamRates α)
  | sgd (rates : SgdRates α)

/-- How many of so many steps a new optimizer takes: Adam counts them, and breaks off after the last
one that it can count. -/
def Settings.taken (k : Nat) : Settings α → Nat
  | adam _ => min k Adam.lastStep
  | sgd _ => k

/-- The call that makes an optimizer with these settings. -/
def Settings.creation : Settings α → Option (List (Option Handle)) → Nat → Creation α Handle
  | adam rates, handles, length => .adam handles length rates
  | sgd rates, handles, length => .sgd handles length rates

namespace Optimizer

/-- What the optimizer was made with. -/
def settings : Optimizer α → Settings α
  | adam state => .adam state.rates
  | sgd state => .sgd state.rates

/-- How many of so many steps the optimizer takes from now on. -/
def taken (k : Nat) : Optimizer α → Nat
  | adam state => min k (Adam.lastStep - state.steps)
  | sgd _ => k

theorem lt_size_of_fits {opt : Optimizer α} {s : Store α} (hf : opt.Fits s) {n : NodeId}
    (hn : n ∈ opt.parameters) : n < s.nodes.size := by
  cases opt with
  | adam state =>
    obtain ⟨p, hp, rfl⟩ := List.mem_map.1 hn
    exact (hf p hp).existing
  | sgd state =>
    obtain ⟨p, hp, rfl⟩ := List.mem_map.1 hn
    exact (hf p hp).existing

theorem taken_zero (opt : Optimizer α) : opt.taken 0 = 0 := by
  cases opt with
  | adam state => exact Nat.zero_min _
  | sgd state => rfl

variable [Scalar α]

/-- A new optimizer with these settings. -/
def new (s : Store α) (params : List NodeId) : Settings α → Outcome (Optimizer α)
  | .adam rates => do return .adam (← Adam.new s params rates)
  | .sgd rates => do return .sgd (← Sgd.new params rates)

variable {s : Store α} {params : List NodeId} {settings : Settings α} {opt : Optimizer α}

/-- What a new optimizer is like. -/
inductive Fresh (s : Store α) (params : List NodeId) : Settings α → Optimizer α → Prop where
  | adam {rates : AdamRates α} {moments : List (Moments α)} :
    moments.map (·.parameter) = params →
    (∀ p ∈ moments, Buffer.zeros (s.shape p.parameter) = .ok p.mean ∧ p.square = p.mean) →
      Fresh s params (.adam rates) (.adam ⟨rates, 0, moments⟩)
  | sgd {rates : SgdRates α} :
    Fresh s params (.sgd rates) (.sgd ⟨rates, params.map fun n => ⟨n, none⟩⟩)

theorem fresh_of_new (ho : new s params settings = .ok opt) : Fresh s params settings opt := by
  cases settings with
  | adam rates =>
    obtain ⟨state, hs, ho⟩ := Outcome.bind_eq_ok_iff.1 ho
    cases ho
    obtain ⟨moments, rfl, hparams, hzeros⟩ := Adam.new_inv hs
    exact .adam hparams hzeros
  | sgd rates =>
    obtain ⟨state, hs, ho⟩ := Outcome.bind_eq_ok_iff.1 ho
    cases ho
    obtain rfl := Sgd.new_inv hs
    exact .sgd

theorem parameters_new (ho : new s params settings = .ok opt) : opt.parameters = params := by
  cases fresh_of_new ho with
  | adam hparams _ => exact hparams
  | sgd => exact (List.map_map ..).trans (List.map_id params)

theorem ne_nil_of_new (ho : new s params settings = .ok opt) : params ≠ [] := by
  rintro rfl
  cases settings <;> cases ho

theorem settings_new (ho : new s params settings = .ok opt) : opt.settings = settings := by
  cases fresh_of_new ho <;> rfl

theorem taken_new (ho : new s params settings = .ok opt) (k : Nat) :
    opt.taken k = settings.taken k := by
  cases fresh_of_new ho <;> rfl

theorem settings_step (opt : Optimizer α) (s : Store α) :
    (opt.step s).2.1.settings = opt.settings := by
  cases opt with
  | adam state =>
    simp only [step, Adam.step]
    split <;> rfl
  | sgd state => rfl

/-- Nothing but its count can keep an optimizer from a step. -/
theorem step_eq_ok_iff (h : s.Healthy) (hf : opt.Fits s) :
    (opt.step s).1 = .ok () ↔ opt.CanStep := by
  constructor
  · intro hok
    cases opt with
    | adam state =>
      by_contra hc
      have hstep : (adam state).step s = (crash .sum, adam state, s) := by
        simp only [step, Adam.step, if_pos (Nat.not_lt.1 hc)]
      rw [hstep] at hok
      cases hok
    | sgd state => trivial
  · intro hc
    obtain ⟨result, opt', s', hs, -, -, hok⟩ := step_spec h hf
    rw [hs]
    exact hok hc

theorem taken_step (h : s.Healthy) (hf : opt.Fits s) (k : Nat) :
    (if (opt.step s).1 = .ok () then some (opt, s) else none).toList.length +
      (opt.step s).2.1.taken k = opt.taken (k + 1) := by
  have hiff := step_eq_ok_iff h hf
  cases opt with
  | adam state =>
    by_cases hc : state.steps < Adam.lastStep
    · have hsteps : (state.step s).2.1.steps = state.steps + 1 := by
        simp only [Adam.step, if_neg (Nat.not_le.2 hc)]
      rw [if_pos (hiff.2 hc)]
      show 1 + min k (Adam.lastStep - (state.step s).2.1.steps) = min (k + 1) _
      rw [hsteps]
      omega
    · have hstep : (adam state).step s = (crash .sum, adam state, s) := by
        simp only [step, Adam.step, if_pos (Nat.not_lt.1 hc)]
      rw [if_neg fun hok => hc (hiff.1 hok), hstep]
      show 0 + min k (Adam.lastStep - state.steps) = min (k + 1) _
      omega
  | sgd state =>
    rw [if_pos (hiff.2 trivial)]
    exact Nat.add_comm 1 k

end Optimizer

/-- The call neither makes the optimizer behind the handle take a step nor takes it back. -/
def Call.Spares (h : Handle) (c : Call α) : Prop :=
  c ≠ .command (.step (some h)) ∧ ∀ kind, c ≠ .release kind (some h)

/-- Whether the call asks the optimizer behind the handle for a step. -/
def Call.asksStep (h : Handle) : Call α → Bool
  | .command (.step (some k)) => k == h
  | _ => false

theorem Call.asksStep_iff {h : Handle} {c : Call α} :
    c.asksStep h = true ↔ c = .command (.step (some h)) := by
  constructor
  · intro hc
    unfold asksStep at hc
    split at hc
    · rw [eq_of_beq hc]
    · cases hc
  · rintro rfl
    exact beq_self_eq_true h

theorem Settings.representable_creation (settings : Settings α)
    (handles : Option (List (Option Handle))) (length : Nat) :
    (Call.create (settings.creation handles length) true).Representable := by
  cases settings <;> trivial

namespace Engine

variable {e : Engine α} {h : Handle} {opt : Optimizer α}

/-! ## Objects between steps -/

theorem store_of_hushed {e e' : Engine α} (h : e'.hushed = e.hushed) : e'.store = e.store := by
  have hs := congrArg Engine.store h
  exact hs

theorem store_handOutNodes : ∀ (nodes : List NodeId) (e : Engine α),
    (e.handOutNodes nodes).2.store = e.store
  | [], _ => rfl
  | n :: rest, e => store_handOutNodes rest (e.handOut (.tensor n)).2

theorem object?_handOutNodes : ∀ (nodes : List NodeId) (e : Engine α), h < e.objects.size →
    (e.handOutNodes nodes).2.object? h = e.object? h
  | [], _, _ => rfl
  | n :: rest, e, hh => by
    have hlt : h < (e.handOut (.tensor n)).2.objects.size :=
      Nat.lt_of_lt_of_le hh (Persists.handOut e (.tensor n)).size_le
    refine (object?_handOutNodes rest _ hlt).trans ?_
    rw [object?_handOut, if_neg (Nat.ne_of_lt hh)]

theorem object?_setOptimizer_of_ne {k : Handle} (e : Engine α) (state : Optimizer α) (hk : h ≠ k) :
    (e.setOptimizer k state).object? h = e.object? h :=
  (object?_setIfInBounds ..).trans (if_neg fun h => hk h.1)

theorem object?_setOptimizer (hh : h < e.objects.size) (state : Optimizer α) :
    (e.setOptimizer h state).object? h = some (.optimizer state) :=
  (object?_setIfInBounds ..).trans (if_pos ⟨rfl, hh⟩)

variable [Scalar α]

/-- Commands other than steps of the optimizer itself change no object. -/
theorem object?_run {c : Command Handle} (hc : c ≠ .step (some h)) :
    (e.run c).2.1.object? h = e.object? h := by
  have hr := e.ran c
  generalize e.run c = out at hr ⊢
  cases hr with
  | refused _ | setTracked _ _ | backward _ _ | clearGradients _ => rfl
  | step ho _ =>
    refine object?_setOptimizer_of_ne _ _ ?_
    rintro rfl
    exact hc (congrArg _ (optimizer_eq_ok ho))

variable [Sampler α]

theorem size_le_answer (e : Engine α) (c : Call α) :
    e.objects.size ≤ (e.answer c).2.1.objects.size := by
  by_cases hc : ∃ kind h, c = .release kind h
  · obtain ⟨kind, h, rfl⟩ := hc
    exact (Persists.release e h).size_le
  · exact (handsOut_answer e fun kind h hk => hc ⟨kind, h, hk⟩).size_le

/-- A call that spares it leaves an object as it is. -/
theorem object?_answer (hh : h < e.objects.size) {c : Call α} (hc : c.Spares h) :
    (e.answer c).2.1.object? h = e.object? h := by
  obtain ⟨e', he', heq⟩ := e.effect c
  refine (congrArg (fun e => e.object? h) heq).trans ?_
  cases he' with
  | idle | seed value => rfl
  | release kind handle =>
    cases handle with
    | none => rfl
    | some k =>
      refine (object?_setIfInBounds ..).trans (if_neg ?_)
      rintro ⟨rfl, -⟩
      exact hc.2 kind rfl
  | create _ => exact (object?_made ..).trans (if_neg (Nat.ne_of_lt hh))
  | command body => exact object?_run fun hb => hc.1 (congrArg _ hb)
  | parameters _ => exact object?_handOutNodes _ e hh
  | gradient _ _ => exact (object?_handOut ..).trans (if_neg (Nat.ne_of_lt hh))

/-! ## Making optimizers -/

theorem build_creation (settings : Settings α) (handles : Option (List (Option Handle)))
    (length : Nat) :
    e.build (settings.creation handles length) = (do
      let params ← e.readParameters handles length
      let opt ← Optimizer.new e.store params settings
      return (.optimizer opt, e.store, e.stream)) := by
  cases settings <;> simp only [Settings.creation, build, Optimizer.new, bind_assoc, pure_bind]

variable {settings : Settings α} {handles : Option (List (Option Handle))} {length : Nat}
  {params : List NodeId}

/-- A call that hands out an optimizer has made a new one over the parameters that it was given, and
has changed nothing else. -/
theorem created_optimizer
    (hr : (e.answer (.create (settings.creation handles length) true)).1.handle = some h) :
    ∃ params opt, e.readParameters handles length = .ok params ∧
      Optimizer.new e.store params settings = .ok opt ∧ h = e.objects.size ∧
      (e.answer (.create (settings.creation handles length) true)).2.1.hushed =
        (e.handOut (.optimizer opt)).2.hushed := by
  obtain ⟨hreply, he⟩ := e.answer_create (settings.creation handles length)
  have hbuild := e.build_creation settings handles length
  cases hb : e.build (settings.creation handles length) with
  | error cause =>
    rw [hb] at hreply
    rw [hreply] at hr
    cases hr
  | ok new =>
    rw [hb] at hreply he
    rw [hreply] at hr
    rw [hbuild] at hb
    obtain ⟨params, hp, hb⟩ := Outcome.bind_eq_ok_iff.1 hb
    obtain ⟨opt, ho, hb⟩ := Outcome.bind_eq_ok_iff.1 hb
    cases hb
    cases hr
    exact ⟨params, opt, hp, ho, rfl, he⟩

/-- It does so if there is such an optimizer. -/
theorem handle_created (hp : e.readParameters handles length = .ok params)
    (ho : Optimizer.new e.store params settings = .ok opt) :
    (e.answer (.create (settings.creation handles length) true)).1.handle =
      some e.objects.size := by
  obtain ⟨hreply, -⟩ := e.answer_create (settings.creation handles length)
  rw [build_creation, hp, Outcome.ok_bind, ho] at hreply
  rw [hreply]
  rfl

/-- Behind the handle is a new optimizer with these settings over these parameters. -/
def HoldsNew (e : Engine α) (h : Handle) (settings : Settings α) (params : List NodeId) : Prop :=
  ∃ opt, e.object? h = some (.optimizer opt) ∧ Optimizer.new e.store params settings = .ok opt

/-- So it is after the call that makes it. -/
theorem holdsNew_created
    (hp : e.readParameters handles length = .ok params)
    (hr : (e.answer (.create (settings.creation handles length) true)).1.handle = some h) :
    (e.answer (.create (settings.creation handles length) true)).2.1.HoldsNew h settings
      params := by
  obtain ⟨params', opt, hp', ho, rfl, he⟩ := created_optimizer hr
  cases hp.symm.trans hp'
  refine ⟨opt, ?_, ?_⟩
  · exact (congrArg (fun e' => e'.object? e.objects.size) he).trans (object?_handOut_new e _)
  · rw [store_of_hushed he]
    exact ho

/-! ## Steps -/

/-- A step that is asked of the optimizer is its next step on the graph. -/
theorem answer_step (ho : e.object? h = some (.optimizer opt)) :
    ((e.answer (.command (.step (some h)))).1 = .success ↔ (opt.step e.store).1 = .ok ()) ∧
      (e.answer (.command (.step (some h)))).2.1.hushed =
        ({ e with store := (opt.step e.store).2.2 }.setOptimizer h
          (opt.step e.store).2.1).hushed := by
  obtain ⟨hr, he⟩ := e.answer_command (.step (some h))
  rcases hs : opt.step e.store with ⟨result, opt', store⟩
  rw [hr, he, (Ran.step (optimizer_of_object? ho) hs).run_eq]
  refine ⟨?_, rfl⟩
  cases result with
  | ok _ => exact ⟨fun _ => rfl, fun _ => rfl⟩
  | error cause =>
    refine ⟨fun hs => absurd hs cause.status_ne_success, fun hs => ?_⟩
    cases hs

theorem store_answer_step (ho : e.object? h = some (.optimizer opt)) :
    (e.answer (.command (.step (some h)))).2.1.store = (opt.step e.store).2.2 :=
  store_of_hushed (answer_step ho).2

theorem object?_answer_step (ho : e.object? h = some (.optimizer opt)) :
    (e.answer (.command (.step (some h)))).2.1.object? h =
      some (.optimizer (opt.step e.store).2.1) :=
  (congrArg (fun e => e.object? h) (answer_step ho).2).trans
    (object?_setOptimizer (lt_size_of_object? ho) _)

/-- The optimizer behind the handle and the graph on which it takes a step, if the call makes it do
so and the step succeeds. -/
def stepTaken (h : Handle) (c : Call α) (e : Engine α) : Option (Optimizer α × Store α) :=
  match c, e.object? h with
  | .command (.step (some k)), some (.optimizer opt) =>
    if k = h ∧ (opt.step e.store).1 = .ok () then some (opt, e.store) else none
  | _, _ => none

/-- The steps that the optimizer behind the handle takes during several calls: the optimizer and the
graph before each of them. -/
def stepsTaken (h : Handle) : List (Call α) → Engine α → List (Optimizer α × Store α)
  | [], _ => []
  | c :: rest, e => (stepTaken h c e).toList ++ stepsTaken h rest (e.answer c).2.1

omit [Sampler α] in
theorem stepTaken_eq (ho : e.object? h = some (.optimizer opt)) :
    stepTaken h (.command (.step (some h))) e =
      if (opt.step e.store).1 = .ok () then some (opt, e.store) else none := by
  simp only [stepTaken, ho, true_and]

omit [Sampler α] in
theorem stepTaken_eq_none {c : Call α} (hc : c ≠ .command (.step (some h))) :
    stepTaken h c e = none := by
  unfold stepTaken
  split
  · rename_i k opt ho
    refine if_neg fun hk => hc ?_
    rw [hk.1]
  · rfl

/-- Where there is an optimizer after a call, there was one before. -/
theorem exists_optimizer_of_answer (hh : h < e.objects.size) {c : Call α}
    (ho : (e.answer c).2.1.object? h = some (.optimizer opt)) :
    ∃ opt', e.object? h = some (.optimizer opt') ∧
      (c = .command (.step (some h)) ∨ (opt' = opt ∧ c ≠ .command (.step (some h)))) := by
  by_cases hc : c.Spares h
  · rw [object?_answer hh hc] at ho
    exact ⟨opt, ho, .inr ⟨rfl, hc.1⟩⟩
  · by_cases hstep : c = .command (.step (some h))
    · subst hstep
      have hafter : (e.run (.step (some h))).2.1.object? h = some (.optimizer opt) :=
        (congrArg (fun e => e.object? h) (e.answer_command (.step (some h))).2).symm.trans ho
      have hr := e.ran (.step (some h))
      generalize e.run (.step (some h)) = out at hr hafter
      cases hr with
      | refused _ => exact ⟨opt, hafter, .inl rfl⟩
      | step hstep _ =>
        cases optimizer_eq_ok hstep
        exact ⟨_, object?_of_optimizer hstep, .inl rfl⟩
    · have hrelease : ∃ kind, c = .release kind (some h) := by
        by_contra hn
        exact hc ⟨hstep, fun kind hk => hn ⟨kind, hk⟩⟩
      obtain ⟨kind, rfl⟩ := hrelease
      have hnone : (e.answer (.release kind (some h))).2.1.object? h = none :=
        (object?_setIfInBounds ..).trans (if_pos ⟨rfl, hh⟩)
      cases hnone.symm.trans ho

section Runs

variable {I : List (Optimizer α × Store α) → Optimizer α → Prop}
  {past : List (Optimizer α × Store α)}

/-- A property of an optimizer and the steps that it has taken is kept by all calls if it is kept by
the steps that succeed. -/
theorem Sound.optimizer_answer
    (hI : ∀ past opt s, s.Healthy → opt.Fits s → I past opt → (opt.step s).1 = .ok () →
      I (past ++ [(opt, s)]) (opt.step s).2.1)
    (hS : e.Sound) (hh : h < e.objects.size)
    (hpast : ∀ opt, e.object? h = some (.optimizer opt) → I past opt) {c : Call α}
    (ho : (e.answer c).2.1.object? h = some (.optimizer opt)) :
    I (past ++ (stepTaken h c e).toList) opt := by
  obtain ⟨before, hbefore, rfl | ⟨rfl, hc⟩⟩ := exists_optimizer_of_answer hh ho
  · have hf : before.Fits e.store := hS.objects h _ hbefore
    have hbecomes : (before.step e.store).2.1 = opt := by
      have hx := (object?_answer_step hbefore).symm.trans ho
      injection hx with hx
      injection hx
    rw [stepTaken_eq hbefore, ← hbecomes]
    cases hr : (before.step e.store).1 with
    | ok _ =>
      rw [if_pos rfl]
      exact hI past before e.store hS.graph hf (hpast before hbefore) hr
    | error cause =>
      rw [if_neg nofun, Option.toList_none, List.append_nil,
        congrArg Prod.fst (Optimizer.step_failed hS.graph hf hr)]
      exact hpast before hbefore
  · rw [stepTaken_eq_none hc, Option.toList_none, List.append_nil]
    exact hpast before hbefore

/-- So it holds of the optimizer after several calls, with the steps taken on the way. -/
theorem Sound.optimizer_onwards
    (hI : ∀ past opt s, s.Healthy → opt.Fits s → I past opt → (opt.step s).1 = .ok () →
      I (past ++ [(opt, s)]) (opt.step s).2.1)
    (hS : e.Sound) (hh : h < e.objects.size)
    (hpast : ∀ opt, e.object? h = some (.optimizer opt) → I past opt) {calls : List (Call α)}
    (hc : ∀ c ∈ calls, c.Representable)
    (ho : (e.after calls).object? h = some (.optimizer opt)) :
    I (past ++ stepsTaken h calls e) opt := by
  induction calls generalizing e past with
  | nil =>
    rw [stepsTaken, List.append_nil]
    exact hpast opt ho
  | cons c rest ih =>
    obtain ⟨hc, hrest⟩ := List.forall_mem_cons.1 hc
    rw [stepsTaken, ← List.append_assoc]
    exact ih (hS.answer hc) (Nat.lt_of_lt_of_le hh (size_le_answer e c))
      (fun _ ho => hS.optimizer_answer hI hh hpast ho) hrest ho

/-- What holds of an optimizer before its first step, and is kept by every step, holds after all
calls. -/
theorem Sound.optimizer_after {opt₀ : Optimizer α}
    (hI : ∀ past opt s, s.Healthy → opt.Fits s → I past opt → (opt.step s).1 = .ok () →
      I (past ++ [(opt, s)]) (opt.step s).2.1)
    (hS : e.Sound) (ho₀ : e.object? h = some (.optimizer opt₀)) (h₀ : I [] opt₀)
    {calls : List (Call α)} (hc : ∀ c ∈ calls, c.Representable)
    (ho : (e.after calls).object? h = some (.optimizer opt)) : I (stepsTaken h calls e) opt := by
  have hpast : ∀ opt, e.object? h = some (.optimizer opt) → I [] opt := by
    intro opt hopt
    obtain rfl : opt₀ = opt := by simpa [ho₀] using hopt
    exact h₀
  exact hS.optimizer_onwards hI (lt_size_of_object? ho₀) hpast hc ho

end Runs

/-- An optimizer that is not taken back stays, and takes all steps that it is asked for and can
count. -/
theorem Sound.length_stepsTaken (hS : e.Sound) (ho : e.object? h = some (.optimizer opt))
    {calls : List (Call α)} (hc : ∀ c ∈ calls, c.Representable)
    (hr : ∀ c ∈ calls, ∀ kind, c ≠ .release kind (some h)) :
    (∃ opt', (e.after calls).object? h = some (.optimizer opt')) ∧
      (stepsTaken h calls e).length = opt.taken (calls.countP (·.asksStep h)) := by
  induction calls generalizing e opt with
  | nil => exact ⟨⟨opt, ho⟩, opt.taken_zero.symm⟩
  | cons c rest ih =>
    obtain ⟨hc, hrest⟩ := List.forall_mem_cons.1 hc
    obtain ⟨hrc, hrrest⟩ := List.forall_mem_cons.1 hr
    have hS' := hS.answer hc
    rw [stepsTaken, List.length_append, List.countP_cons]
    by_cases hstep : c = .command (.step (some h))
    · subst hstep
      obtain ⟨hex, hlen⟩ := ih hS' (object?_answer_step ho) hrest hrrest
      refine ⟨hex, ?_⟩
      rw [stepTaken_eq ho, hlen, if_pos (Call.asksStep_iff.2 rfl)]
      exact Optimizer.taken_step hS.graph (hS.objects h _ ho) _
    · obtain ⟨hex, hlen⟩ := ih hS' ((object?_answer (lt_size_of_object? ho) ⟨hstep, hrc⟩).trans ho)
        hrest hrrest
      refine ⟨hex, ?_⟩
      rw [stepTaken_eq_none hstep, hlen, if_neg fun h => hstep (Call.asksStep_iff.1 h)]
      exact Nat.zero_add _

end Engine

end DiffTensor
