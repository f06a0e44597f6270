import DiffTensor.Proofs.MovingSums
import DiffTensor.Random.Double
import DiffTensor.Scalar.Double
import DiffTensor.Session.Graph

/-!
# Steps that break off

A gradient need not have the shape of its parameter: the first one that is added onto a parameter
is stored as it comes. A step meets such a gradient when it combines it with a buffer of another
shape, and then it is refused. It goes no further, and takes nothing back: the parameters before
that one have had their parts, that one and the ones after it have not (`Method.StopsAt`,
`Optimizer.Interrupted`).

Nothing is assumed of the graph here, neither that gradients fit nor that parameters keep their
shapes. All that counts is how the optimizer came about (`Optimizer.Developed`).
-/

namespace DiffTensor

variable {α P : Type}

/-! ## Combining element by element -/

namespace Buffer

variable {f : α → α → α} {a b c : Buffer α}

theorem shape_zipMap (h : zipMap f a b = .ok c) : b.shape = a.shape ∧ c.shape = a.shape := by
  unfold zipMap at h
  split at h
  · rename_i hs
    cases h
    exact ⟨hs.symm, rfl⟩
  · cases h

theorem exists_zipMap (f : α → α → α) (hs : a.shape = b.shape) : ∃ c, zipMap f a b = .ok c := by
  unfold zipMap
  rw [if_pos hs]
  exact ⟨_, rfl⟩

end Buffer

theorem Store.shape_setValue {s : Store α} {n : NodeId} {v : Buffer α} (hv : v.shape = s.shape n) :
    (s.setValue n v).shape = s.shape := by
  by_cases hn : n < s.nodes.size
  · exact shape_modify hn hv
  · rw [setValue, modify_of_le _ (Nat.not_lt.1 hn)]

/-! ## Runs of parts -/

namespace Method

variable {m : Method α P} {s : Store α} {parts : List P}

/-- What every part keeps of the graph, all of them keep, however far they get. -/
theorem runAll_preserves {holds : Store α → Prop} (hp : ∀ s p, holds s → holds (m.part s p).2.2)
    (h : holds s) : holds (m.runAll parts s).2.2 := by
  induction parts generalizing s with
  | nil => exact h
  | cons p rest ih =>
    have hone := hp s p h
    rw [runAll]
    rcases hm : m.part s p with ⟨_ | _, q, s'⟩
    · rw [hm] at hone
      exact hone
    · rw [hm] at hone
      exact ih hone

/-- What every part keeps of what it finds, all of them keep. -/
theorem runAll_preserves_kept {holds : P → Prop} (hp : ∀ s p, holds p → holds (m.part s p).2.1)
    (h : ∀ p ∈ parts, holds p) : ∀ p ∈ (m.runAll parts s).2.1, holds p := by
  induction parts generalizing s with
  | nil => exact h
  | cons p rest ih =>
    obtain ⟨hfirst, hrest⟩ := List.forall_mem_cons.1 h
    have hone := hp s p hfirst
    rw [runAll]
    rcases hm : m.part s p with ⟨_ | _, q, s'⟩
    · rw [hm] at hone
      exact List.forall_mem_cons.2 ⟨hone, hrest⟩
    · rw [hm] at hone
      exact List.forall_mem_cons.2 ⟨hone, ih hrest⟩

/-- In a run that goes well, every part goes well in its turn. -/
theorem part_runAll {i : Nat} {p : P} (h : (m.runAll parts s).1 = .ok ())
    (hi : parts[i]? = some p) : (m.part (m.runAll (parts.take i) s).2.2 p).1 = .ok () := by
  induction parts generalizing s i with
  | nil => cases hi
  | cons q rest ih =>
    obtain ⟨hq, hok, -⟩ := runAll_cons h
    cases i with
    | zero =>
      obtain rfl : q = p := by simpa using hi
      exact hq
    | succ i =>
      rw [runAll_take hq]
      exact ih hok (by simpa using hi)

/-- No part changes which node is whose gradient, and if no part changes a shape either, every part
finds the shapes of the graph before the run. -/
theorem runAll_shapes (hm : ∀ s p, (m.part s p).2.2.shape = s.shape) (parts : List P)
    (s : Store α) : (m.runAll parts s).2.2.gradient = s.gradient ∧
      (m.runAll parts s).2.2.shape = s.shape := by
  have hpart : ∀ (s' : Store α) (p : P), s'.gradient = s.gradient ∧ s'.shape = s.shape →
      (m.part s' p).2.2.gradient = s.gradient ∧ (m.part s' p).2.2.shape = s.shape := by
    intro s' p h
    exact ⟨(gradient_part s' p).trans h.1, (hm s' p).trans h.2⟩
  exact runAll_preserves hpart ⟨rfl, rfl⟩

/-- The run breaks off at the part in this place: those before it have gone well, and those after it
have not begun. -/
structure StopsAt (m : Method α P) (parts : List P) (s : Store α) (e : Failure) (i : Nat) (p : P) :
    Prop where
  here : parts[i]? = some p
  before : (m.runAll (parts.take i) s).1 = .ok ()
  fails : (m.part (m.runAll (parts.take i) s).2.2 p).1 = .error e
  graph : (m.runAll parts s).2.2 = (m.part (m.runAll (parts.take i) s).2.2 p).2.2
  kept_before : ∀ j < i, (m.runAll parts s).2.1[j]? = (m.runAll (parts.take i) s).2.1[j]?
  kept_here : (m.runAll parts s).2.1[i]? = some (m.part (m.runAll (parts.take i) s).2.2 p).2.1
  kept_after : ∀ j, i < j → (m.runAll parts s).2.1[j]? = parts[j]?

/-- A run that fails breaks off at one of its parts. -/
theorem exists_stopsAt {e : Failure} (h : (m.runAll parts s).1 = .error e) :
    ∃ i p, m.StopsAt parts s e i p := by
  induction parts generalizing s with
  | nil => cases h
  | cons q rest ih =>
    rcases hq : m.part s q with ⟨e' | _, q', s'⟩
    · have hrun : m.runAll (q :: rest) s = (.error e', q' :: rest, s') := by
        simp only [runAll, hq]
      rw [hrun] at h
      refine ⟨0, q, ⟨rfl, rfl, ?_, ?_, ?_, ?_, ?_⟩⟩
      · rw [List.take_zero, runAll, hq]
        exact h
      · rw [hrun, List.take_zero, runAll, hq]
      · intro j hj
        exact absurd hj (Nat.not_lt_zero j)
      · rw [hrun, List.take_zero, runAll, hq]
        rfl
      · intro j hj
        obtain ⟨k, rfl⟩ := Nat.exists_eq_succ_of_ne_zero (Nat.ne_of_gt hj)
        rw [hrun]
        rfl
    · have hqok : (m.part s q).1 = .ok () := by rw [hq]
      have hrun : m.runAll (q :: rest) s =
          ((m.runAll rest s').1, q' :: (m.runAll rest s').2.1, (m.runAll rest s').2.2) := by
        simp only [runAll, hq]
      rw [hrun] at h
      obtain ⟨i, p, hstop⟩ := ih h
      have htake : m.runAll ((q :: rest).take (i + 1)) s = ((m.runAll (rest.take i) s').1,
          q' :: (m.runAll (rest.take i) s').2.1, (m.runAll (rest.take i) s').2.2) := by
        rw [runAll_take hqok, hq]
      refine ⟨i + 1, p, ⟨hstop.here, ?_, ?_, ?_, ?_, ?_, ?_⟩⟩
      · rw [htake]
        exact hstop.before
      · rw [htake]
        exact hstop.fails
      · rw [hrun, htake]
        exact hstop.graph
      · intro j hj
        rw [hrun, htake]
        cases j with
        | zero => rfl
        | succ j => exact hstop.kept_before j (Nat.lt_of_succ_lt_succ hj)
      · rw [hrun, htake]
        exact hstop.kept_here
      · intro j hj
        cases j with
        | zero => exact absurd hj (Nat.not_lt_zero _)
        | succ j =>
          rw [hrun]
          exact hstop.kept_after j (Nat.lt_of_succ_lt_succ hj)

variable {e : Failure} {i : Nat} {p : P}

theorem StopsAt.parameter (h : m.StopsAt parts s e i p) :
    (parts.map m.parameter)[i]? = some (m.parameter p) := by
  rw [List.getElem?_map, h.here, Option.map_some]

/-- The parameters whose turn has not come are left alone. -/
theorem StopsAt.elsewhere (h : m.StopsAt parts s e i p) {k : NodeId}
    (hk : k ∉ (parts.map m.parameter).take i) :
    (m.runAll (parts.take i) s).2.2.node k = s.node k := by
  apply node_runAll h.before
  intro q hq hkq
  apply hk
  rw [hkq, ← List.map_take]
  exact List.mem_map_of_mem hq

end Method

/-! ## One part -/

variable [Scalar α] {s : Store α}

namespace Store

variable {n k : NodeId} {weightDecay : α}

/-- A gradient stays as long as it is, and weights can decay only if it has the shape of the
parameter. -/
theorem shape_decayedGradient {g : Buffer α} (hg : s.gradient n = some k)
    (h : s.decayedGradient n weightDecay = .ok (some g)) :
    g.shape = s.shape k ∧ (Scalar.isZero weightDecay = false → s.shape k = s.shape n) := by
  unfold decayedGradient at h
  rw [hg] at h
  by_cases hz : Scalar.isZero weightDecay = true
  · simp only [hz, if_true, Except.ok.injEq, Option.some.injEq] at h
    subst h
    refine ⟨rfl, ?_⟩
    rw [hz]
    nofun
  · simp only [if_neg hz] at h
    obtain ⟨c, hc, h⟩ := Outcome.bind_eq_ok_iff.1 h
    cases h
    obtain ⟨hn, hc⟩ := Buffer.shape_zipMap hc
    exact ⟨hc, fun _ => hn.symm⟩

theorem decayedGradient_ne_none (hg : s.gradient n = some k) :
    s.decayedGradient n weightDecay ≠ .ok none := by
  intro h
  unfold decayedGradient at h
  rw [hg] at h
  by_cases hz : Scalar.isZero weightDecay = true
  · simp only [hz, if_true] at h
    cases h
  · simp only [if_neg hz] at h
    obtain ⟨c, -, h⟩ := Outcome.bind_eq_ok_iff.1 h
    cases h

end Store

namespace Adam

variable {rates : AdamRates α} {t : Nat} {p : Moments α}

/-- A part that goes well has compared the gradient with the averages, and with the parameter if
weights decay. -/
theorem stepOne_ok {k : NodeId} (hg : s.gradient p.parameter = some k)
    (h : (stepOne rates t s p).1 = .ok ()) : s.shape k = p.mean.shape ∧
      (Scalar.isZero rates.weightDecay = false → s.shape k = s.shape p.parameter) := by
  unfold stepOne at h
  split at h
  · cases h
  · rename_i hd
    exact absurd hd (Store.decayedGradient_ne_none hg)
  · rename_i g hd
    obtain ⟨hgs, hdecay⟩ := Store.shape_decayedGradient hg hd
    split at h
    · cases h
    · rename_i mean hm
      obtain ⟨hgm, -⟩ := Buffer.shape_zipMap hm
      exact ⟨hgs.symm.trans hgm, hdecay⟩

/-- A part that fails has changed nothing: once the gradient has the shape of one average, it has
that of the other. -/
theorem stepOne_error {e : Failure} (hs : p.mean.shape = p.square.shape)
    (h : (stepOne rates t s p).1 = .error e) : (stepOne rates t s p).2 = (p, s) := by
  unfold stepOne at h ⊢
  split at h
  · rfl
  · rfl
  · rename_i g hd
    cases hm : Buffer.zipMap (fun m g => rates.decay1 * m + (1 - rates.decay1) * g) p.mean g with
    | error e' => rfl
    | ok mean =>
      obtain ⟨hgm, hmean⟩ := Buffer.shape_zipMap hm
      obtain ⟨square, hq⟩ := Buffer.exists_zipMap
        (fun v g => rates.decay2 * v + (1 - rates.decay2) * g * g) (hs.symm.trans hgm.symm)
      obtain ⟨-, hsquare⟩ := Buffer.shape_zipMap hq
      obtain ⟨moves, hv⟩ := Buffer.exists_zipMap (move rates (1 - Scalar.power rates.decay1 t)
        (1 - Scalar.power rates.decay2 t)) (hmean.trans (hs.trans hsquare.symm))
      simp only [hm, hq, hv] at h
      cases h

theorem shape_stepOne (rates : AdamRates α) (t : Nat) (s : Store α) (p : Moments α) :
    (stepOne rates t s p).2.2.shape = s.shape := by
  unfold stepOne
  split
  · rfl
  · rfl
  · split
    · rfl
    · dsimp only
      split
      · rfl
      · split
        · rfl
        · exact Store.shape_setValue rfl

/-- The averages keep their shapes. -/
theorem shapes_stepOne (rates : AdamRates α) (t : Nat) (s : Store α) (p : Moments α) :
    (stepOne rates t s p).2.1.mean.shape = p.mean.shape ∧
      (stepOne rates t s p).2.1.square.shape = p.square.shape := by
  unfold stepOne
  split
  · exact ⟨rfl, rfl⟩
  · exact ⟨rfl, rfl⟩
  · split
    · exact ⟨rfl, rfl⟩
    · rename_i mean hm
      obtain ⟨-, hmean⟩ := Buffer.shape_zipMap hm
      dsimp only
      split
      · exact ⟨hmean, rfl⟩
      · rename_i square hq
        obtain ⟨-, hsquare⟩ := Buffer.shape_zipMap hq
        split
        · exact ⟨hmean, hsquare⟩
        · exact ⟨hmean, hsquare⟩

end Adam

namespace Sgd

variable {rates : SgdRates α} {p : Velocity α}

/-- A part that goes well has compared the gradient with the velocity, if there is one and it has
momentum, and with the parameter if weights decay. -/
theorem stepOne_ok {k : NodeId} (hg : s.gradient p.parameter = some k)
    (h : (stepOne rates s p).1 = .ok ()) :
    (Scalar.isZero rates.momentum = false → ∀ v, p.velocity = some v → s.shape k = v.shape) ∧
      (Scalar.isZero rates.weightDecay = false → s.shape k = s.shape p.parameter) := by
  unfold stepOne at h
  split at h
  · cases h
  · rename_i hd
    exact absurd hd (Store.decayedGradient_ne_none hg)
  · rename_i g hd
    obtain ⟨hgs, hdecay⟩ := Store.shape_decayedGradient hg hd
    refine ⟨?_, hdecay⟩
    intro hz v hv
    simp only [direction, hz, hv, Bool.false_eq_true, if_false] at h
    cases hc : Buffer.zipMap (fun b g => rates.momentum * b + g) v g with
    | error e =>
      simp only [hc] at h
      cases h
    | ok next =>
      obtain ⟨hgv, -⟩ := Buffer.shape_zipMap hc
      exact hgs.symm.trans hgv

theorem stepOne_error {e : Failure} (h : (stepOne rates s p).1 = .error e) :
    (stepOne rates s p).2.2 = s := by
  unfold stepOne at h ⊢
  split at h
  · rfl
  · rfl
  · split at h
    · rfl
    · cases h

theorem shape_stepOne (rates : SgdRates α) (s : Store α) (p : Velocity α) :
    (stepOne rates s p).2.2.shape = s.shape := by
  unfold stepOne
  split
  · rfl
  · rfl
  · split
    · rfl
    · exact Store.shape_setValue rfl

end Sgd

/-! ## Optimizers on any graph -/

/-- Both averages have the shape that is given for their parameter. -/
structure Moments.Even (shape : NodeId → List Nat) (p : Moments α) : Prop where
  mean : p.mean.shape = shape p.parameter
  square : p.square.shape = shape p.parameter

theorem Moments.Even.stepOne {shape : NodeId → List Nat} {rates : AdamRates α} {t : Nat}
    {p : Moments α} (h : p.Even shape) (s : Store α) :
    (Adam.stepOne rates t s p).2.1.Even shape := by
  obtain ⟨hmean, hsquare⟩ := Adam.shapes_stepOne rates t s p
  have hpar : (Adam.stepOne rates t s p).2.1.parameter = p.parameter :=
    (Adam.method rates t).parameter_kept s p
  constructor
  · rw [hmean, hpar]
    exact h.mean
  · rw [hsquare, hpar]
    exact h.square

namespace Optimizer

/-- The optimizer was made when the nodes had these shapes, and has taken steps since then, on
whatever has become of the graph in the meantime. -/
inductive Developed : (NodeId → List Nat) → Optimizer α → Prop
  | new {s : Store α} {params : List NodeId} {settings : Settings α} {opt : Optimizer α} :
    new s params settings = .ok opt → Developed s.shape opt
  | step {shape : NodeId → List Nat} {opt : Optimizer α} (s : Store α) :
    Developed shape opt → Developed shape (opt.step s).2.1

/-- All averages have the shapes that are given for their parameters. -/
def Even (shape : NodeId → List Nat) : Optimizer α → Prop
  | adam state => ∀ p ∈ state.moments, p.Even shape
  | sgd _ => True

variable {shape : NodeId → List Nat} {opt : Optimizer α}

theorem even_new {params : List NodeId} {settings : Settings α}
    (ho : new s params settings = .ok opt) : opt.Even s.shape := by
  cases fresh_of_new ho with
  | adam _ hzeros =>
    intro p hp
    obtain ⟨hz, hsquare⟩ := hzeros p hp
    have hshape : p.mean.shape = s.shape p.parameter := by
      unfold Buffer.zeros Buffer.full at hz
      split at hz
      · exact (congrArg Buffer.shape (Except.ok.inj hz)).symm
      · cases hz
    exact ⟨hshape, hsquare ▸ hshape⟩
  | sgd => trivial

theorem Even.step (h : opt.Even shape) (s : Store α) : (opt.step s).2.1.Even shape := by
  rcases opt with ⟨rates, t, moments⟩ | ⟨rates, velocities⟩
  · by_cases ht : t < Adam.lastStep
    · rw [step_adam rates ht]
      have hstep : ∀ (s : Store α) (p : Moments α), p.Even shape →
          ((Adam.method rates (t + 1)).part s p).2.1.Even shape := fun s p hp => hp.stepOne s
      exact Method.runAll_preserves_kept hstep h
    · rw [step_adam_of_le rates ht]
      exact h
  · trivial

theorem Developed.even (h : opt.Developed shape) : opt.Even shape := by
  induction h with
  | new ho => exact even_new ho
  | step s _ ih => exact ih.step s

/-- The step breaks off at the parameter in this place. Those before it have been stepped in full,
as if they were all that there are. That one and the ones after it keep their values, and what is
kept for them stays as it is; of the one in this place, gradient descent may have lost the
velocity. -/
structure Interrupted (opt : Optimizer α) (s : Store α) (i : Nat) (n : NodeId) : Prop where
  here : opt.parameters[i]? = some n
  before : ((opt.first i).step s).1 = .ok ()
  graph : (opt.step s).2.2 = ((opt.first i).step s).2.2
  elsewhere : ∀ k ∉ opt.parameters.take i, (opt.step s).2.2.node k = s.node k
  parameters : (opt.step s).2.1.parameters = opt.parameters
  settings : (opt.step s).2.1.settings = opt.settings
  kept_before : ∀ j < i, (opt.step s).2.1.kept j = ((opt.first i).step s).2.1.kept j
  kept_after : ∀ j, i < j → (opt.step s).2.1.kept j = opt.kept j
  kept_here : (∃ state, opt = adam state) → (opt.step s).2.1.kept i = opt.kept i

theorem interrupted_adam {rates : AdamRates α} {t : Nat} {moments : List (Moments α)}
    (ht : t < Adam.lastStep) (he : (adam ⟨rates, t, moments⟩).Even shape) {i : Nat} {p : Moments α}
    {e : Failure} (h : (Adam.method rates (t + 1)).StopsAt moments s e i p) :
    (adam ⟨rates, t, moments⟩).Interrupted s i p.parameter := by
  have hfirst : ((adam ⟨rates, t, moments⟩).first i).step s = _ :=
    step_adam rates ht s (moments.take i)
  have hp := he p (List.mem_of_getElem? h.here)
  have hfail := Adam.stepOne_error (hp.mean.trans hp.square.symm) h.fails
  have hgraph : ((adam ⟨rates, t, moments⟩).step s).2.2 =
      (((adam ⟨rates, t, moments⟩).first i).step s).2.2 := by
    rw [hfirst, step_adam rates ht]
    exact h.graph.trans (congrArg Prod.snd hfail)
  refine ⟨h.parameter, ?_, hgraph, ?_, (step_frame ..).2, settings_step .., ?_, ?_, ?_⟩
  · rw [hfirst]
    exact h.before
  · intro k hk
    rw [hgraph, hfirst]
    exact h.elsewhere hk
  · intro j hj
    rw [hfirst, step_adam rates ht, kept, kept, h.kept_before j hj]
  · intro j hj
    rw [step_adam rates ht, kept, kept, h.kept_after j hj]
  · intro _
    rw [step_adam rates ht, kept, kept, h.kept_here, h.here]
    exact congrArg (fun q : Moments α × Store α => [q.1.mean, q.1.square]) hfail

theorem interrupted_sgd {rates : SgdRates α} {velocities : List (Velocity α)} {i : Nat}
    {p : Velocity α} {e : Failure} (h : (Sgd.method rates).StopsAt velocities s e i p) :
    (sgd ⟨rates, velocities⟩).Interrupted s i p.parameter := by
  have hfirst : ((sgd ⟨rates, velocities⟩).first i).step s = _ :=
    step_sgd rates s (velocities.take i)
  have hgraph : ((sgd ⟨rates, velocities⟩).step s).2.2 =
      (((sgd ⟨rates, velocities⟩).first i).step s).2.2 := by
    rw [hfirst, step_sgd]
    exact h.graph.trans (Sgd.stepOne_error h.fails)
  refine ⟨h.parameter, ?_, hgraph, ?_, (step_frame ..).2, settings_step .., ?_, ?_, ?_⟩
  · rw [hfirst]
    exact h.before
  · intro k hk
    rw [hgraph, hfirst]
    exact h.elsewhere hk
  · intro j hj
    rw [hfirst, step_sgd, kept, kept, h.kept_before j hj]
  · intro j hj
    rw [step_sgd, kept, kept, h.kept_after j hj]
  · rintro ⟨state, ho⟩
    cases ho

theorem exists_interrupted (he : opt.Even shape) {cause : LibraryError}
    (h : (opt.step s).1 = refuse cause) : ∃ i n, opt.Interrupted s i n := by
  rcases opt with ⟨rates, t, moments⟩ | ⟨rates, velocities⟩
  · by_cases ht : t < Adam.lastStep
    · rw [step_adam rates ht] at h
      obtain ⟨i, p, hstop⟩ := Method.exists_stopsAt h
      exact ⟨i, p.parameter, interrupted_adam ht he hstop⟩
    · rw [step_adam_of_le rates ht] at h
      cases h
  · rw [step_sgd] at h
    obtain ⟨i, p, hstop⟩ := Method.exists_stopsAt h
    exact ⟨i, p.parameter, interrupted_sgd hstop⟩

/-- A step compares the gradient of the parameter in this place with a buffer that has the
parameter's shape: with the value if weights decay, with the averages if the parameter has had its
shape all along, and with a velocity of that shape if there is momentum. -/
def Compares (shape : NodeId → List Nat) (s : Store α) (i : Nat) (n : NodeId) :
    Optimizer α → Prop
  | adam state => Scalar.isZero state.rates.weightDecay = false ∨ s.shape n = shape n
  | sgd state => Scalar.isZero state.rates.weightDecay = false ∨
    Scalar.isZero state.rates.momentum = false ∧ ∃ v ∈ (sgd state).kept i, v.shape = s.shape n

theorem shape_eq_of_step_adam {rates : AdamRates α} {t : Nat} {moments : List (Moments α)}
    {i : Nat} {n k : NodeId} (ht : t < Adam.lastStep)
    (he : (adam ⟨rates, t, moments⟩).Even shape)
    (hok : ((adam ⟨rates, t, moments⟩).step s).1 = .ok ())
    (hi : (adam ⟨rates, t, moments⟩).parameters[i]? = some n) (hg : s.gradient n = some k)
    (hc : (adam ⟨rates, t, moments⟩).Compares shape s i n) : s.shape k = s.shape n := by
  rw [step_adam rates ht] at hok
  rw [parameters, List.getElem?_map] at hi
  obtain ⟨p, hp, rfl⟩ := Option.map_eq_some_iff.1 hi
  obtain ⟨hgradient, hshape⟩ := (Adam.method rates (t + 1)).runAll_shapes
    (Adam.shape_stepOne rates (t + 1)) (moments.take i) s
  obtain ⟨hmean, hdecay⟩ := Adam.stepOne_ok ((congrFun hgradient _).trans hg)
    (Method.part_runAll hok hp)
  rw [hshape] at hmean hdecay
  rcases hc with hz | hs
  · exact hdecay hz
  · rw [hmean, (he p (List.mem_of_getElem? hp)).mean, hs]

theorem shape_eq_of_step_sgd {rates : SgdRates α} {velocities : List (Velocity α)}
    {i : Nat} {n k : NodeId} (hok : ((sgd ⟨rates, velocities⟩).step s).1 = .ok ())
    (hi : (sgd ⟨rates, velocities⟩).parameters[i]? = some n) (hg : s.gradient n = some k)
    (hc : (sgd ⟨rates, velocities⟩).Compares shape s i n) : s.shape k = s.shape n := by
  rw [step_sgd] at hok
  rw [parameters, List.getElem?_map] at hi
  obtain ⟨p, hp, rfl⟩ := Option.map_eq_some_iff.1 hi
  obtain ⟨hgradient, hshape⟩ := (Sgd.method rates).runAll_shapes
    (Sgd.shape_stepOne rates) (velocities.take i) s
  obtain ⟨hvelocity, hdecay⟩ := Sgd.stepOne_ok ((congrFun hgradient _).trans hg)
    (Method.part_runAll hok hp)
  rw [hshape] at hvelocity hdecay
  rcases hc with hz | ⟨hz, v, hv, hs⟩
  · exact hdecay hz
  · rw [kept, hp] at hv
    rw [hvelocity hz v (Option.mem_toList.1 hv), hs]

/-- A step that is refused has been taken in full for the parameters before the one at which it
broke off, and changes nothing else. After a step that goes well, every gradient that it compares
with a buffer of its parameter's shape turns out to have that shape. -/
theorem step_part_by_part (ho : opt.Developed shape) (s : Store α) :
    (∀ cause, (opt.step s).1 = refuse cause → ∃ i n, opt.Interrupted s i n) ∧
    ((opt.step s).1 = .ok () → ∀ i n k, opt.parameters[i]? = some n → s.gradient n = some k →
      opt.Compares shape s i n → s.shape k = s.shape n) := by
  have he := ho.even
  constructor
  · intro cause h
    exact exists_interrupted he h
  · intro hok i n k hi hg hc
    rcases opt with ⟨rates, t, moments⟩ | ⟨rates, velocities⟩
    · by_cases ht : t < Adam.lastStep
      · exact shape_eq_of_step_adam ht he hok hi hg hc
      · rw [step_adam_of_le rates ht] at hok
        cases hok
    · exact shape_eq_of_step_sgd hok hi hg hc

/-- Two parameters of one element each; the second one has a gradient of two. Adam breaks off at the
second one, and goes well with the first one alone. -/
theorem step_part_by_part_pair :
    let _ := Elementary.plain ℚ
    let s : Store ℚ := ⟨#[{ value := ⟨[1], #[5]⟩, gradient := some 2 },
      { value := ⟨[1], #[7]⟩, gradient := some 3 }, { value := ⟨[1], #[1]⟩ },
      { value := ⟨[2], #[1, 1]⟩ }]⟩
    let settings : Settings ℚ := .adam ⟨1, 0, 0, 1, 0⟩
    (∃ opt, new s [0, 1] settings = .ok opt ∧
      (opt.step s).1 = refuse (.unequalShapes [1] [2]) ∧ ∃ i n, opt.Interrupted s i n) ∧
    ∃ opt, new s [0] settings = .ok opt ∧ (opt.step s).1 = .ok () ∧ s.shape 2 = s.shape 0 := by
  intro _ s settings
  constructor
  · have hnew : ∃ opt, new s [0, 1] settings = .ok opt ∧
        (opt.step s).1 = refuse (.unequalShapes [1] [2]) := ⟨_, rfl, rfl⟩
    obtain ⟨opt, ho, hr⟩ := hnew
    exact ⟨opt, ho, hr, (step_part_by_part (.new ho) s).1 _ hr⟩
  · have hnew : ∃ opt, new s [0] settings = .ok opt ∧ (opt.step s).1 = .ok () ∧
        opt.Compares s.shape s 0 0 := ⟨_, rfl, rfl, .inr rfl⟩
    obtain ⟨opt, ho, hr, hc⟩ := hnew
    have hp : opt.parameters[0]? = some 0 := by rw [parameters_new ho]; rfl
    exact ⟨opt, ho, hr, (step_part_by_part (.new ho) s).2 hr 0 0 2 hp rfl hc⟩

end Optimizer

namespace GraphSession

/-- A step of Adam that is refused has moved the first of its parameters. Gradient descent does not
notice that the gradient of the second one is too long; nor does Adam notice it of a parameter that
has been given another shape since it was made. -/
theorem step_refused_halfway :
    let steps : List (Step Float) := [.leaf true [1] [5] "p", .leaf true [1] [7] "q",
      .accumulate "p" [1] [1], .accumulate "q" [2] [1, 1],
      .adam ["p", "q"] ⟨0.1, 0.9, 0.999, 1e-8, 0⟩ "o", .sgd ["q"] ⟨0.5, 0, 0⟩ "d",
      .adam ["p"] ⟨0.1, 0.9, 0.999, 1e-8, 0⟩ "o'"]
    let s := steps.foldl (fun s step => (answer step s).2) { stream := .ofSeed 0 }
    let s' := { s with store := s.store.setValue 0 ⟨[0], #[]⟩ }
    ((answer (.step "o") s).1 = .failed (.refused (.unequalShapes [1] [2])) ∧
      (answer (.step "o") s).2.store.value 0 ≠ s.store.value 0) ∧
    ((answer (.step "d") s).1 = .done ∧ (s.store.gradient 1).map s.store.shape = some [2] ∧
      s.store.shape 1 = [1]) ∧
    ((answer (.step "o'") s').1 = .done ∧ (s'.store.gradient 0).map s'.store.shape = some [1] ∧
      s'.store.shape 0 = [0]) := by
  intro steps s s'
  refine ⟨⟨rfl, ?_⟩, ⟨rfl, rfl, rfl⟩, ⟨rfl, rfl, rfl⟩⟩
  intro h
  have hbits := congrArg (fun b => (b.data.map Float.toBits).toList) h
  revert hbits
  decide +kernel

end GraphSession

end DiffTensor
