import DiffTensor.Proofs.Advance
import DiffTensor.Proofs.Parts

/-!
# Steps of optimizers

What an optimizer keeps for a parameter has the shape of the parameter (`Optimizer.Fits`). On a
healthy graph this makes every step go through, since the parameter's gradient has that shape as
well (`Optimizer.step_spec`): the one thing that can stop it is the step count of Adam at its
last value (`Optimizer.CanStep`).

A step changes values only, and keeps their shapes.
-/

namespace DiffTensor

variable {α : Type}

section Fitting

/-- Both averages have the shape of the parameter. -/
structure Moments.Fits (p : Moments α) (s : Store α) : Prop where
  existing : p.parameter < s.nodes.size
  mean : p.mean.Shaped (s.shape p.parameter)
  square : p.square.Shaped (s.shape p.parameter)

/-- The velocity, if there is one, has the shape of the parameter. -/
structure Velocity.Fits (p : Velocity α) (s : Store α) : Prop where
  existing : p.parameter < s.nodes.size
  velocity : ∀ v, p.velocity = some v → v.Shaped (s.shape p.parameter)

/-- What is kept fits the parameters. -/
def Optimizer.Fits (s : Store α) : Optimizer α → Prop
  | adam state => ∀ p ∈ state.moments, p.Fits s
  | sgd state => ∀ p ∈ state.velocities, p.Fits s

/-- Another step can be counted. -/
def Optimizer.CanStep : Optimizer α → Prop
  | adam state => state.steps < Adam.lastStep
  | sgd _ => True

instance : (opt : Optimizer α) → Decidable opt.CanStep
  | .adam state => inferInstanceAs (Decidable (state.steps < Adam.lastStep))
  | .sgd _ => isTrue trivial

variable {s s' : Store α}

theorem Moments.Fits.grown {p : Moments α} (h : p.Fits s) (hg : s.Grown s') : p.Fits s' := by
  have hs := hg.shape_eq p.parameter h.existing
  constructor
  · exact Nat.lt_of_lt_of_le h.existing hg.size_le
  · rw [hs]
    exact h.mean
  · rw [hs]
    exact h.square

theorem Velocity.Fits.grown {p : Velocity α} (h : p.Fits s) (hg : s.Grown s') : p.Fits s' := by
  have hs := hg.shape_eq p.parameter h.existing
  constructor
  · exact Nat.lt_of_lt_of_le h.existing hg.size_le
  · intro v hv
    rw [hs]
    exact h.velocity v hv

theorem Optimizer.Fits.grown {opt : Optimizer α} (h : opt.Fits s) (hg : s.Grown s') :
    opt.Fits s' := by
  cases opt with
  | adam state => exact fun p hp => (h p hp).grown hg
  | sgd state => exact fun p hp => (h p hp).grown hg

end Fitting

variable [Scalar α] {s s' : Store α}

theorem Buffer.Shaped.zipMap {a b : Buffer α} {shape : List Nat} (ha : a.Shaped shape)
    (hb : b.Shaped shape) (f : α → α → α) :
    ∃ c, Buffer.zipMap f a b = .ok c ∧ c.Shaped shape := by
  obtain ⟨c, hc, hT⟩ := Buffer.zipMap_eq ha.1 hb.1 (ha.2.trans hb.2.symm) f
  rw [ha.2] at hT
  exact ⟨c, hc, hT.shaped⟩

omit [Scalar α] in
theorem Buffer.Shaped.updateWith {b : Buffer α} {shape : List Nat} (hb : b.Shaped shape)
    (f : α → α → α) (xs : Array α) : (b.updateWith f xs).Shaped shape :=
  ⟨Buffer.wellShaped_updateWith hb.1 f xs, hb.2⟩

/-- A gradient can always be combined with the value of its node. -/
theorem Store.Healthy.decayedGradient (h : s.Healthy) (n : NodeId) (weightDecay : α) :
    ∃ r, s.decayedGradient n weightDecay = .ok r ∧ ∀ g, r = some g → g.Shaped (s.shape n) := by
  unfold Store.decayedGradient
  cases hg : s.gradient n with
  | none => exact ⟨none, rfl, nofun⟩
  | some k =>
    have hk : (s.value k).Shaped (s.shape n) :=
      ⟨(h.sound.values k).full, (h.sound.held n k hg).2.2⟩
    by_cases hz : Scalar.isZero weightDecay = true
    · refine ⟨some (s.value k), by simp [hz], ?_⟩
      rintro g ⟨⟩
      exact hk
    · obtain ⟨c, hc, hs⟩ := hk.zipMap (h.sound.values n).shaped fun g p => g + weightDecay * p
      refine ⟨some c, by simp [hz, hc], ?_⟩
      rintro g ⟨⟩
      exact hs

omit [Scalar α] in
/-- Where every part goes through, all of them do, one after the other. -/
theorem Method.runAll_spec {P : Type} {m : Method α P} {F : P → Store α → Prop}
    (hgrown : ∀ {p s s'}, F p s → s.Grown s' → F p s')
    (hone : ∀ {s p}, s.Healthy → F p s →
      ∃ p' s', m.part s p = (.ok (), p', s') ∧ F p' s' ∧ s.Advanced s')
    {parts : List P} (h : s.Healthy) (hf : ∀ p ∈ parts, F p s) :
    ∃ parts' s', m.runAll parts s = (.ok (), parts', s') ∧ (∀ p ∈ parts', F p s') ∧
      s.Advanced s' := by
  induction parts generalizing s with
  | nil => exact ⟨[], s, rfl, nofun, h.refl⟩
  | cons p rest ih =>
    obtain ⟨hp, hrest⟩ := List.forall_mem_cons.1 hf
    obtain ⟨p', s', hs, hp', hA⟩ := hone h hp
    obtain ⟨rest', s'', hs', hr, hA'⟩ := ih hA.healthy fun q hq => hgrown (hrest q hq) hA.grown
    refine ⟨p' :: rest', s'', by simp only [Method.runAll, hs, hs'], ?_, hA.trans hA'⟩
    exact List.forall_mem_cons.2 ⟨hgrown hp' hA'.grown, hr⟩

/-! ## Adam -/

namespace Adam

theorem stepOne_spec (h : s.Healthy) (rates : AdamRates α) (t : Nat) {p : Moments α}
    (hp : p.Fits s) :
    ∃ p' s', stepOne rates t s p = (.ok (), p', s') ∧ p'.Fits s' ∧ s.Advanced s' := by
  obtain ⟨r, hr, hg⟩ := h.decayedGradient p.parameter rates.weightDecay
  unfold stepOne
  cases r with
  | none => exact ⟨p, s, by simp [hr], hp, h.refl⟩
  | some g =>
    have hg := hg g rfl
    obtain ⟨mean, hm, hms⟩ := hp.mean.zipMap hg fun m g =>
      rates.decay1 * m + (1 - rates.decay1) * g
    obtain ⟨square, hq, hqs⟩ := hp.square.zipMap hg fun v g =>
      rates.decay2 * v + (1 - rates.decay2) * g * g
    obtain ⟨moves, hv, -⟩ := hms.zipMap hqs (move rates (1 - Scalar.power rates.decay1 t)
      (1 - Scalar.power rates.decay2 t))
    have hA := h.setValue ((h.sound.values p.parameter).shaped.updateWith (fun x u => x - u)
      moves.data)
    have hp' : Moments.Fits { p with mean, square } s := ⟨hp.existing, hms, hqs⟩
    exact ⟨_, _, by simp only [hr, hm, hq, hv], hp'.grown hA.grown, hA⟩

end Adam

/-! ## Stochastic gradient descent -/

namespace Sgd

theorem direction_spec {shape : List Nat} (rates : SgdRates α) {velocity : Option (Buffer α)}
    {g : Buffer α} (hv : ∀ v, velocity = some v → v.Shaped shape) (hg : g.Shaped shape) :
    ∃ d velocity', direction rates velocity g = (.ok d, velocity') ∧
      ∀ v, velocity' = some v → v.Shaped shape := by
  unfold direction
  by_cases hz : Scalar.isZero rates.momentum = true
  · exact ⟨g, velocity, by simp [hz], hv⟩
  · cases velocity with
    | none =>
      refine ⟨g, some g, by simp [hz], ?_⟩
      rintro v ⟨⟩
      exact hg
    | some held =>
      obtain ⟨c, hc, hs⟩ := (hv held rfl).zipMap hg fun b g => rates.momentum * b + g
      refine ⟨c, some c, by simp [hz, hc], ?_⟩
      rintro v ⟨⟩
      exact hs

theorem stepOne_spec (h : s.Healthy) (rates : SgdRates α) {p : Velocity α} (hp : p.Fits s) :
    ∃ p' s', stepOne rates s p = (.ok (), p', s') ∧ p'.Fits s' ∧ s.Advanced s' := by
  obtain ⟨r, hr, hg⟩ := h.decayedGradient p.parameter rates.weightDecay
  unfold stepOne
  cases r with
  | none => exact ⟨p, s, by simp [hr], hp, h.refl⟩
  | some g =>
    obtain ⟨d, velocity, hd, hv⟩ := direction_spec rates hp.velocity (hg g rfl)
    have hA := h.setValue ((h.sound.values p.parameter).shaped.updateWith
      (fun x d => x - rates.rate * d) d.data)
    have hp' : Velocity.Fits { p with velocity } s := ⟨hp.existing, hv⟩
    exact ⟨_, _, by simp only [hr, hd], hp'.grown hA.grown, hA⟩

end Sgd

/-! ## Either optimizer -/

namespace Optimizer

/-- A step that can be counted goes through; one that cannot changes nothing. -/
theorem step_spec (h : s.Healthy) {opt : Optimizer α} (hf : opt.Fits s) :
    ∃ result opt' s', opt.step s = (result, opt', s') ∧ opt'.Fits s' ∧ s.Advanced s' ∧
      (opt.CanStep → result = .ok ()) := by
  cases opt with
  | adam state =>
    by_cases ht : state.steps < Adam.lastStep
    · obtain ⟨moments, s', hs, hf', hA⟩ :=
        Method.runAll_spec (m := Adam.method state.rates (state.steps + 1)) (F := Moments.Fits)
          (fun hp hg => hp.grown hg) (fun h hp => Adam.stepOne_spec h _ _ hp) h hf
      exact ⟨.ok (), adam { state with steps := state.steps + 1, moments }, s',
        by rw [step_adam state.rates ht, hs], hf', hA, fun _ => rfl⟩
    · exact ⟨crash .sum, adam state, s, step_adam_of_le state.rates ht s state.moments, hf, h.refl,
        fun hc => absurd hc ht⟩
  | sgd state =>
    obtain ⟨velocities, s', hs, hf', hA⟩ :=
      Method.runAll_spec (m := Sgd.method state.rates) (F := Velocity.Fits)
        (fun hp hg => hp.grown hg) (fun h hp => Sgd.stepOne_spec h _ hp) h hf
    exact ⟨.ok (), sgd { state with velocities }, s', by rw [step_sgd state.rates, hs], hf', hA,
      fun _ => rfl⟩

/-- A step that fails has changed nothing. -/
theorem step_failed (h : s.Healthy) {opt : Optimizer α} (hf : opt.Fits s) {e : Failure}
    (he : (opt.step s).1 = .error e) : (opt.step s).2 = (opt, s) := by
  by_cases hc : opt.CanStep
  · obtain ⟨result, opt', s', hs, -, -, hok⟩ := step_spec h hf
    rw [hs, hok hc] at he
    cases he
  · cases opt with
    | sgd state => exact absurd trivial hc
    | adam state => rw [step_adam_of_le state.rates hc]

omit [Scalar α] in
theorem clearGradients_spec (h : s.Healthy) (opt : Optimizer α) :
    s.Advanced (opt.clearGradients s) := by
  unfold clearGradients
  induction opt.parameters generalizing s with
  | nil => exact h.refl
  | cons n rest ih =>
    have hA := h.clearGradient n
    exact hA.trans (ih hA.healthy)

end Optimizer

/-! ## New optimizers -/

section New

variable {params : List NodeId}

/-- A new optimizer has its parameters in the order in which it was given them; it has taken no step,
and all averages are zeros. -/
theorem Adam.new_inv {rates : AdamRates α} {state : Adam α}
    (hs : Adam.new s params rates = .ok state) :
    ∃ moments, state = ⟨rates, 0, moments⟩ ∧ moments.map (·.parameter) = params ∧
      ∀ p ∈ moments, Buffer.zeros (s.shape p.parameter) = .ok p.mean ∧ p.square = p.mean := by
  unfold Adam.new at hs
  simp only [Outcome.bind_eq_ok_iff, Outcome.pure_eq, Except.ok.injEq] at hs
  obtain ⟨-, -, moments, hm, rfl⟩ := hs
  refine ⟨moments, rfl, ?_, fun p hp => ?_⟩
  · refine (map_of_mapM (k := id) (fun n p hp => ?_) hm).trans (List.map_id params)
    obtain ⟨zero, -, hp⟩ := Outcome.bind_eq_ok_iff.1 hp
    cases hp
    rfl
  · obtain ⟨n, -, hn⟩ := exists_of_mem_mapM hm hp
    obtain ⟨zero, hz, hn⟩ := Outcome.bind_eq_ok_iff.1 hn
    cases hn
    exact ⟨hz, rfl⟩

/-- No parameter has a velocity to begin with. -/
theorem Sgd.new_inv {rates : SgdRates α} {state : Sgd α} (hs : Sgd.new params rates = .ok state) :
    state = ⟨rates, params.map fun n => ⟨n, none⟩⟩ := by
  obtain ⟨-, -, hs⟩ := Outcome.bind_eq_ok_iff.1 hs
  cases hs
  rfl

theorem Adam.fits_new (h : s.Healthy) (hp : ∀ n ∈ params, n < s.nodes.size)
    {rates : AdamRates α} {state : Adam α} (hs : Adam.new s params rates = .ok state) :
    (Optimizer.adam state).Fits s := by
  obtain ⟨moments, rfl, rfl, hzeros⟩ := Adam.new_inv hs
  intro p hmem
  obtain ⟨hz, hsquare⟩ := hzeros p hmem
  obtain ⟨c, hc, hT⟩ := Buffer.full_eq (h.sound.values p.parameter).proper (0 : α)
  cases hc.symm.trans hz
  exact ⟨hp _ (List.mem_map_of_mem hmem), hT.shaped, hsquare ▸ hT.shaped⟩

theorem Sgd.fits_new (hp : ∀ n ∈ params, n < s.nodes.size)
    {rates : SgdRates α} {state : Sgd α} (hs : Sgd.new params rates = .ok state) :
    (Optimizer.sgd state).Fits s := by
  obtain rfl := Sgd.new_inv hs
  intro p hmem
  obtain ⟨n, hn, rfl⟩ := List.mem_map.1 hmem
  exact ⟨hp n hn, nofun⟩

theorem Adam.parameters_new {rates : AdamRates α} {state : Adam α}
    (hs : Adam.new s params rates = .ok state) : (Optimizer.adam state).parameters = params := by
  obtain ⟨moments, rfl, hparams, -⟩ := Adam.new_inv hs
  exact hparams

theorem Sgd.parameters_new {rates : SgdRates α} {state : Sgd α}
    (hs : Sgd.new params rates = .ok state) : (Optimizer.sgd state).parameters = params := by
  obtain rfl := Sgd.new_inv hs
  exact (List.map_map ..).trans (List.map_id params)

end New

end DiffTensor
