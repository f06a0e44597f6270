import Mathlib.Logic.Basic
import Mathlib.Tactic.SplitIfs
import DiffTensor.Session.Host

/-!
# Steps on released wrappers

A step that needs the handle of a wrapper that has been released is refused, without a call and
without a report: the state stays as it was. It is refused because of the first wrapper that has
been released, in the order in which the step takes its operands. Only where an optimizer is made
something else may be found first: settings that are out of range, or an earlier parameter of
another library (`Step.objection`).
-/

namespace DiffTensor

open Host (Owned Tensor Layer)

variable {α V W β γ : Type}

/-! ## Refusals -/

section

variable {ε σ : Type} {a : ExceptT ε (StateM σ) β} {s s' : σ}

theorem bind_of_ok {x : β} (h : a s = (.ok x, s')) (f : β → ExceptT ε (StateM σ) γ) :
    (a >>= f) s = f x s' := by
  show (match a s with | (r, s') => ExceptT.bindCont f r s') = _
  rw [h]
  rfl

theorem bind_of_error {e : ε} (h : a s = (.error e, s')) (f : β → ExceptT ε (StateM σ) γ) :
    (a >>= f) s = (.error e, s') := by
  show (match a s with | (r, s') => ExceptT.bindCont f r s') = _
  rw [h]
  rfl

end

/-- The action is refused at once. -/
def Action.RefusedAt (env : Env W) (cause : HostError) (action : Action W β) : Prop :=
  action env = (.error (.refused cause), env)

namespace Action.RefusedAt

variable {env : Env W} {cause : HostError}

theorem of_check {e : Except HostError β} (h : e = .error cause) (f : β → Action W γ) :
    RefusedAt env cause (Action.check e >>= f) := by
  rw [h]
  rfl

theorem bind {a : Action W β} (h : RefusedAt env cause a) (f : β → Action W γ) :
    RefusedAt env cause (a >>= f) := bind_of_error h f

theorem after_check {e : Except HostError β} {x : β} (h : e = .ok x) {f : β → Action W γ}
    (hf : RefusedAt env cause (f x)) : RefusedAt env cause (Action.check e >>= f) := by
  rw [h]
  exact hf

end Action.RefusedAt

/-! ## Settings -/

/-- A check that fails only for settings that make no sense. -/
def OfSettings (e : Except HostError Unit) : Prop :=
  ∀ cause, e = .error cause → ∃ reason, cause = .configuration reason

namespace OfSettings

theorem ite {p : Prop} [Decidable p] {reason : Misconfiguration} :
    OfSettings (if p then .ok () else .error (.configuration reason)) := by
  intro cause h
  split at h
  · cases h
  · cases h
    exact ⟨reason, rfl⟩

theorem bind {a b : Except HostError Unit} (ha : OfSettings a) (hb : OfSettings b) :
    OfSettings (a >>= fun _ => b) := by
  cases a with
  | error cause =>
    intro cause' h
    cases h
    exact ha cause rfl
  | ok _ => exact hb

variable [Scalar α]

theorem adam (rates : AdamRates α) : OfSettings rates.check :=
  bind ite (bind ite (bind ite (bind ite ite)))

theorem sgd (rates : SgdRates α) : OfSettings rates.check := bind ite (bind ite ite)

end OfSettings

/-! ## Objections -/

namespace Host.Owned

theorem handle_of_released {o : Owned} (h : o.isReleased = true) :
    o.handle = .error (.released o.kind) := by
  unfold isReleased at h
  unfold handle
  rw [Option.isNone_iff_eq_none.1 h]

theorem handle_of_held {o : Owned} (h : o.isReleased = false) : ∃ k, o.handle = .ok k := by
  unfold isReleased at h
  unfold handle
  cases hh : o.held with
  | none => simp [hh] at h
  | some k => exact ⟨k, rfl⟩

/-- The first of these wrappers that has been released. -/
def objection : List Owned → Option HostError
  | [] => none
  | o :: rest => if o.isReleased then some (.released o.kind) else objection rest

/-- The first of these parameters that has been released, or belongs to another library. -/
def parameterObjection (library : LibraryId) : List Owned → Option HostError
  | [] => none
  | o :: rest =>
    if o.isReleased then some (.released o.kind)
    else if o.library ≠ library then some (.configuration (.differentLibraries "optimizer"))
    else parameterObjection library rest

/-- What is wrong with the settings of an optimizer, or else with its parameters. -/
def optimizerObjection (settings : Except HostError Unit) (library : LibraryId)
    (owners : List Owned) : Option HostError :=
  match settings with
  | .error cause => some cause
  | .ok _ => parameterObjection library owners

theorem objection_first {o : Owned} {later : List Owned} (ho : o.isReleased = true) :
    ∀ {earlier : List Owned}, (∀ p ∈ earlier, p.isReleased = false) →
      objection (earlier ++ o :: later) = some (.released o.kind)
  | [], _ => if_pos ho
  | p :: earlier, he => by
    obtain ⟨hp, he⟩ := List.forall_mem_cons.1 he
    rw [List.cons_append, objection, hp]
    exact objection_first ho he

theorem parameterObjection_first {library : LibraryId} {o : Owned} {later : List Owned}
    (ho : o.isReleased = true) : ∀ {earlier : List Owned}, (∀ p ∈ earlier, p.isReleased = false) →
      (∀ p ∈ earlier, p.library = library) →
        parameterObjection library (earlier ++ o :: later) = some (.released o.kind)
  | [], _, _ => if_pos ho
  | p :: earlier, he, hl => by
    obtain ⟨hp, he⟩ := List.forall_mem_cons.1 he
    obtain ⟨hpl, hl⟩ := List.forall_mem_cons.1 hl
    rw [List.cons_append, parameterObjection, hp, hpl]
    simpa using parameterObjection_first ho he hl

theorem exists_objection {o : Owned} (ho : o.isReleased = true) : ∀ {owners : List Owned},
    o ∈ owners → ∃ cause, objection owners = some cause
  | p :: owners, hm => by
    unfold objection
    split
    · exact ⟨_, rfl⟩
    · rcases List.mem_cons.1 hm with rfl | hm
      · exact absurd ho ‹_›
      · exact exists_objection ho hm

theorem exists_parameterObjection {library : LibraryId} {o : Owned} (ho : o.isReleased = true) :
    ∀ {owners : List Owned}, o ∈ owners → ∃ cause, parameterObjection library owners = some cause
  | p :: owners, hm => by
    unfold parameterObjection
    split_ifs with hr hl
    · exact ⟨_, rfl⟩
    · exact ⟨_, rfl⟩
    · rcases List.mem_cons.1 hm with rfl | hm
      · exact absurd ho hr
      · exact exists_parameterObjection ho hm

/-- There is an objection only to wrappers that have been released. -/
theorem objection_cases {cause : HostError} : ∀ {owners : List Owned},
    objection owners = some cause → ∃ p ∈ owners, p.isReleased = true ∧ cause = .released p.kind
  | p :: owners, h => by
    unfold objection at h
    split_ifs at h with hr
    · cases h
      exact ⟨p, List.mem_cons_self, hr, rfl⟩
    · obtain ⟨o, hm, ho⟩ := objection_cases h
      exact ⟨o, List.mem_cons_of_mem _ hm, ho⟩

theorem parameterObjection_cases {library : LibraryId} {cause : HostError} :
    ∀ {owners : List Owned}, parameterObjection library owners = some cause →
      (∃ p ∈ owners, p.isReleased = true ∧ cause = .released p.kind) ∨
        ∃ reason, cause = .configuration reason
  | p :: owners, h => by
    unfold parameterObjection at h
    split_ifs at h with hr hl
    · cases h
      exact .inl ⟨p, List.mem_cons_self, hr, rfl⟩
    · cases h
      exact .inr ⟨_, rfl⟩
    · rcases parameterObjection_cases h with ⟨o, hm, ho⟩ | hreason
      · exact .inl ⟨o, List.mem_cons_of_mem _ hm, ho⟩
      · exact .inr hreason

theorem optimizerObjection_cases {settings : Except HostError Unit} (hs : OfSettings settings)
    {library : LibraryId} {cause : HostError} {owners : List Owned}
    (h : optimizerObjection settings library owners = some cause) :
    (∃ p ∈ owners, p.isReleased = true ∧ cause = .released p.kind) ∨
      ∃ reason, cause = .configuration reason := by
  cases settings with
  | error e =>
    obtain rfl := Option.some.inj h
    exact .inr (hs e rfl)
  | ok u => exact parameterObjection_cases h

theorem exists_optimizerObjection {settings : Except HostError Unit} {library : LibraryId}
    {o : Owned} {owners : List Owned} (ho : o.isReleased = true) (hm : o ∈ owners) :
    ∃ cause, optimizerObjection settings library owners = some cause := by
  cases settings with
  | error cause => exact ⟨cause, rfl⟩
  | ok u => exact exists_parameterObjection ho hm

end Host.Owned

open DiffTensor.Action (RefusedAt)

variable {env : Env W} {cause : HostError}

/-- An operation that starts with the handle of a wrapper. -/
theorem refusedAt_handle {o : Owned} (h : Owned.objection [o] = some cause)
    (f : Handle → Action W β) : RefusedAt env cause (Action.check o.handle >>= f) := by
  unfold Owned.objection at h
  split at h
  · rename_i hr
    cases h
    exact .of_check (Owned.handle_of_released hr) f
  · cases h

/-- An operation that starts with the handles of two wrappers. -/
theorem refusedAt_handles {a b : Owned} (h : Owned.objection [a, b] = some cause)
    (f : Handle → Handle → Action W β) : RefusedAt env cause
      (Action.check a.handle >>= fun left =>
        Action.check b.handle >>= fun right => f left right) := by
  unfold Owned.objection at h
  split at h
  · rename_i ha
    cases h
    exact .of_check (Owned.handle_of_released ha) _
  · rename_i ha
    obtain ⟨k, hk⟩ := Owned.handle_of_held (Bool.not_eq_true _ ▸ ha)
    exact .after_check hk (refusedAt_handle h _)

namespace Host.Optimizer

theorem parameterHandles_error {library : LibraryId} : ∀ {params : List Tensor},
    Owned.parameterObjection library (params.map Tensor.owned) = some cause →
      parameterHandles library params = .error cause
  | [], h => by cases h
  | t :: params, h => by
    rw [List.map_cons, Owned.parameterObjection] at h
    unfold parameterHandles
    split_ifs at h with hr hl
    · cases h
      rw [Owned.handle_of_released hr]
      rfl
    · cases h
      obtain ⟨k, hk⟩ := Owned.handle_of_held (Bool.not_eq_true _ ▸ hr)
      rw [hk]
      exact if_pos hl
    · obtain ⟨k, hk⟩ := Owned.handle_of_held (Bool.not_eq_true _ ▸ hr)
      rw [hk, parameterHandles_error h]
      exact if_neg hl

theorem someParameterHandles_error {library : LibraryId} {params : List Tensor}
    (h : Owned.parameterObjection library (params.map Tensor.owned) = some cause) :
    someParameterHandles library params = .error cause := by
  unfold someParameterHandles
  rw [parameterHandles_error h]
  rfl

/-- An optimizer is made only from settings that are in range, and then from parameters. -/
theorem refusedAt_settings {settings : Except HostError Unit} {library : LibraryId}
    {params : List Tensor} (h : Owned.optimizerObjection settings library
      (params.map Tensor.owned) = some cause) (f : List Handle → Action W β) :
    RefusedAt env cause (Action.check settings >>= fun _ =>
      Action.check (someParameterHandles library params) >>= f) := by
  cases settings with
  | error e =>
    cases h
    exact .of_check rfl _
  | ok u => exact .after_check rfl (.of_check (someParameterHandles_error h) f)

end Host.Optimizer

namespace HostSession

/-- The slots of which a step needs the handles, in the order in which it asks for them. -/
def Step.operands : Step α → List (ResourceKind × String)
  | .binary _ a b _ => [(.tensor, a), (.tensor, b)]
  | .unary _ a _ | .values a | .item a | .setTracked a _ | .backward a | .gradient a _ =>
    [(.tensor, a)]
  | .forward layer a _ => [(.layer, layer), (.tensor, a)]
  | .parameters layer _ => [(.layer, layer)]
  | .adam _ params _ _ | .sgd _ params _ _ => params.map fun name => (.tensor, name)
  | .step optimizer | .clearGradients optimizer => [(.optimizer, optimizer)]
  | .destroy kind name => [(kind, name)]
  | _ => []

/-- The owners in slots, if none of these slots is empty. -/
def State.owners (s : State α V) : List (ResourceKind × String) → Option (List Owned)
  | [] => some []
  | slot :: rest =>
    match (s.slots slot.1).find? slot.2, s.owners rest with
    | some x, some owners => some (x.owned :: owners)
    | _, _ => none

variable [Scalar α]

/-- Why a step is refused that needs these wrappers. -/
def Step.objection (step : Step α) (owners : List Owned) : Option HostError :=
  match step with
  | .adam library _ rates _ => Owned.optimizerObjection rates.check library owners
  | .sgd library _ rates _ => Owned.optimizerObjection rates.check library owners
  | _ => Owned.objection owners

/-- Something else is wrong with a step than a released wrapper, and found first. Where an
optimizer is made, its settings may be out of range, or one of the earlier parameters may belong
to another library. -/
def Step.WrongBefore (step : Step α) (earlier : List Owned) : Prop :=
  match step with
  | .adam library _ rates _ => rates.check ≠ .ok () ∨ ∃ p ∈ earlier, p.library ≠ library
  | .sgd library _ rates _ => rates.check ≠ .ok () ∨ ∃ p ∈ earlier, p.library ≠ library
  | _ => False

theorem Step.objection_first {step : Step α} {earlier later : List Owned} {o : Owned}
    (ho : o.isReleased = true) (he : ∀ p ∈ earlier, p.isReleased = false)
    (hw : ¬step.WrongBefore earlier) :
    step.objection (earlier ++ o :: later) = some (.released o.kind) := by
  have hopt {settings : Except HostError Unit} {library : LibraryId}
      (hw : ¬(settings ≠ .ok () ∨ ∃ p ∈ earlier, p.library ≠ library)) :
      Owned.optimizerObjection settings library (earlier ++ o :: later) =
        some (.released o.kind) := by
    obtain ⟨hs, hl⟩ := not_or.1 hw
    rw [not_not.1 hs]
    exact Owned.parameterObjection_first ho he fun p hp => by_contra fun hn => hl ⟨p, hp, hn⟩
  cases step with
  | adam | sgd => exact hopt hw
  | _ => exact Owned.objection_first ho he

theorem Step.exists_objection (step : Step α) {owners : List Owned} {o : Owned}
    (ho : o.isReleased = true) (hm : o ∈ owners) : ∃ cause, step.objection owners = some cause := by
  cases step with
  | adam | sgd => exact Owned.exists_optimizerObjection ho hm
  | _ => exact Owned.exists_objection ho hm

theorem Step.objection_cases {step : Step α} {owners : List Owned} {cause : HostError}
    (h : step.objection owners = some cause) :
    (∃ p ∈ owners, p.isReleased = true ∧ cause = .released p.kind) ∨
      ∃ reason, cause = .configuration reason := by
  cases step with
  | adam library params rates out => exact Owned.optimizerObjection_cases (.adam rates) h
  | sgd library params rates out => exact Owned.optimizerObjection_cases (.sgd rates) h
  | _ => exact .inl (Owned.objection_cases h)

omit [Scalar α] in
theorem filledSlot_bind {kind : ResourceKind} {name : String} {x : Wrapper α kind} {s : State α V}
    (h : (s.slots kind).find? name = some x) (f : Wrapper α kind → Running α V β) :
    (filledSlot kind name >>= f) s = f x s := by
  refine bind_of_ok ?_ f
  simp only [filledSlot, h]

omit [Scalar α] in
theorem perform_bind {action : Action V β} {s : State α V} {cause : HostError}
    (h : RefusedAt s.env cause action) (f : β → Running α V γ) :
    (perform action >>= f) s = (.error (.failed (.refused cause)), s) := by
  refine bind_of_error ?_ f
  rw [perform, show action s.env = _ from h]
  rfl

omit [Scalar α] in
theorem owners_cons {s : State α V} {kind : ResourceKind} {name : String}
    {rest : List (ResourceKind × String)} {owners : List Owned}
    (h : s.owners ((kind, name) :: rest) = some owners) :
    ∃ x later, (s.slots kind).find? name = some x ∧ s.owners rest = some later ∧
      owners = x.owned :: later := by
  rw [State.owners] at h
  split at h
  · rename_i x later hx hl
    exact ⟨x, later, hx, hl, (Option.some.inj h).symm⟩
  · cases h

omit [Scalar α] in
theorem owners_one {s : State α V} {kind : ResourceKind} {name : String} {owners : List Owned}
    (h : s.owners [(kind, name)] = some owners) :
    ∃ x, (s.slots kind).find? name = some x ∧ owners = [x.owned] := by
  obtain ⟨x, later, hx, hl, rfl⟩ := owners_cons h
  cases hl
  exact ⟨x, hx, rfl⟩

omit [Scalar α] in
theorem owners_two {s : State α V} {kind kind' : ResourceKind} {name name' : String}
    {owners : List Owned} (h : s.owners [(kind, name), (kind', name')] = some owners) :
    ∃ x x', (s.slots kind).find? name = some x ∧ (s.slots kind').find? name' = some x' ∧
      owners = [x.owned, x'.owned] := by
  obtain ⟨x, later, hx, hl, rfl⟩ := owners_cons h
  obtain ⟨x', hx', rfl⟩ := owners_one hl
  exact ⟨x, x', hx, hx', rfl⟩

omit [Scalar α] in
/-- The tensors in slots are found all at once. -/
theorem tensorsAt_eq {s : State α V} : ∀ {names : List String} {owners : List Owned},
    s.owners (names.map fun name => (.tensor, name)) = some owners →
      ∃ ts, tensorsAt names s = (.ok ts, s) ∧ owners = ts.map Tensor.owned
  | [], _, h => by
    cases h
    exact ⟨[], rfl, rfl⟩
  | name :: names, _, h => by
    obtain ⟨t, later, ht, hl, rfl⟩ := owners_cons h
    obtain ⟨ts, hts, rfl⟩ := tensorsAt_eq hl
    refine ⟨t :: ts, ?_, rfl⟩
    unfold tensorsAt
    rw [List.mapM_cons]
    exact (filledSlot_bind ht _).trans (bind_of_ok hts _)

variable {setting : Setting α V} {showData : Bool}

/-- A step that there is an objection to is refused, and leaves the state as it was. -/
theorem answer_refused {step : Step α} {s : State α V} {owners : List Owned} {cause : HostError}
    (hn : s.owners step.operands = some owners) (ho : step.objection owners = some cause) :
    setting.answer showData step s = (.failed (.refused cause), s) := by
  suffices h : run setting showData step s = (.error (.failed (.refused cause)), s) by
    rw [Setting.answer, h]
  cases step with
  | binary op a b out =>
    obtain ⟨t, t', ht, ht', rfl⟩ := owners_two hn
    refine (filledSlot_bind ht _).trans ((filledSlot_bind ht' _).trans ?_)
    exact perform_bind (refusedAt_handles ho _) _
  | unary op a out =>
    obtain ⟨t, ht, rfl⟩ := owners_one hn
    exact (filledSlot_bind ht _).trans (perform_bind (refusedAt_handle ho _) _)
  | values a | item a | setTracked a _ | backward a | gradient a _ | parameters a _ | step a
  | clearGradients a =>
    obtain ⟨x, hx, rfl⟩ := owners_one hn
    exact (filledSlot_bind hx _).trans (perform_bind (refusedAt_handle ho _) _)
  | forward layer a out =>
    obtain ⟨l, t, hl, ht, rfl⟩ := owners_two hn
    refine (filledSlot_bind hl _).trans ((filledSlot_bind ht _).trans ?_)
    exact perform_bind (refusedAt_handles ho _) _
  | adam library params rates out =>
    obtain ⟨ts, hts, rfl⟩ := tensorsAt_eq hn
    refine (bind_of_ok hts _).trans (perform_bind ?_ _)
    exact Host.Optimizer.refusedAt_settings ho _
  | sgd library params rates out =>
    obtain ⟨ts, hts, rfl⟩ := tensorsAt_eq hn
    refine (bind_of_ok hts _).trans (perform_bind ?_ _)
    exact Host.Optimizer.refusedAt_settings ho _
  | destroy kind name =>
    obtain ⟨x, hx, rfl⟩ := owners_one hn
    refine (filledSlot_bind hx _).trans (perform_bind ?_ _)
    cases kind with
    | tensor => exact (refusedAt_handle ho _).bind _
    | layer => exact (refusedAt_handle ho _).bind _
    | optimizer => exact (refusedAt_handle ho _).bind _
  | seed | filled | ofValues | info | debug | linear | layerInfo | optimizerInfo | drop | inject
  | census =>
    cases hn
    cases ho

end HostSession

end DiffTensor
