import DiffTensor.Proofs.Contribution
import DiffTensor.Proofs.Metadata

/-!
# The life of a gradient

The gradient of a tensor is a node of its own, from the first differentiation that adds to it until
an optimizer clears it. As long as it lives, all wrappers that are handed out for it stand for that
node, whenever they were handed out, so that all of them tell what has been accumulated by now.
When it has been cleared the node stays behind as it is: the next differentiation makes a new node,
and nothing but training with the old one as a parameter writes to it again (`GradientLife`).
-/

namespace DiffTensor

variable {α V : Type}

namespace HostSession

open Host (Tensor)

/-! ## What steps do to gradients -/

/-- The step is one of an optimizer that trains the node. -/
def Step.Trains (n : NodeId) (step : Step α) (e : Engine α) (s : State α V) : Prop :=
  match step with
  | .step optimizer => ∃ h state, e.optimizer (s.heldIn .optimizer optimizer) = .ok (h, state) ∧
      n ∈ state.parameters
  | _ => False

/-- It trains the gradient of the node as a parameter. -/
def Step.TrainsGradient (n : NodeId) (step : Step α) (e : Engine α) (s : State α V) : Prop :=
  ∃ k, e.store.gradient n = some k ∧ step.Trains k e s

/-- The step is one of an optimizer that clears the gradient of the node. -/
def Step.Clears (n : NodeId) (step : Step α) (e : Engine α) (s : State α V) : Prop :=
  (step.scope e s).lost n

/-- What a step adds to the gradient of a node, if anything. -/
def Step.adds [Scalar α] (step : Step α) (e : Engine α) (s : State α V) (n : NodeId) :
    Option (Buffer α) :=
  match step with
  | .backward a =>
    match e.tensor (s.heldIn .tensor a) with
    | .ok root => e.store.contribution root n
    | .error _ => none
  | _ => none

/-- Values are written by training, and those of gradients by differentiation. -/
theorem Step.trains_of_written {step : Step α} {e : Engine α} {s : State α V} {n : NodeId}
    (h : (step.scope e s).written n) : step.Trains n e s ∨ ∃ m, e.store.gradient m = some n := by
  cases step with
  | step optimizer =>
    obtain ⟨k, state, ho, hn, -⟩ := h
    exact .inl ⟨k, state, ho, hn⟩
  | backward a =>
    obtain ⟨-, m, -, -, hg⟩ := h
    exact .inr ⟨m, hg⟩
  | _ => exact h.elim

/-- Steps other than differentiation add nothing to gradients. -/
theorem Step.adds_cases [Scalar α] (step : Step α) (e : Engine α) (s : State α V) :
    (∃ a root, step = .backward a ∧ e.tensor (s.heldIn .tensor a) = .ok root) ∨
    ∀ n, step.adds e s n = none ∧ ¬(step.scope e s).gained n ∧
      ((step.scope e s).written n → step.Trains n e s) := by
  cases step with
  | backward a =>
    cases ht : e.tensor (s.heldIn .tensor a) with
    | ok root => exact .inl ⟨a, root, rfl, ht⟩
    | error cause =>
      refine .inr fun n => ⟨?_, ?_, ?_⟩
      · simp only [adds, ht]
      · rintro ⟨root, hr, -⟩
        cases ht.symm.trans hr
      · rintro ⟨root, m, hr, -⟩
        cases ht.symm.trans hr
  | step optimizer =>
    refine .inr fun n => ⟨rfl, id, ?_⟩
    rintro ⟨k, state, ho, hn, -⟩
    exact ⟨k, state, ho, hn⟩
  | _ => exact .inr fun n => ⟨rfl, id, False.elim⟩

/-- What a node holds in the end if the steps add to it, one after the other. -/
def Setting.accumulated [Scalar α] (setting : Setting α V) (showData : Bool) (engine : V → Engine α)
    (n : NodeId) : List (Step α) → State α V → Option (Buffer α) → Option (Buffer α)
  | [], _, held => held
  | step :: rest, s, held =>
    Setting.accumulated setting showData engine n rest (setting.next showData step s).2
      (Store.gather? held (step.adds (engine s.env.world) s n))

variable [Scalar α] [Sampler α] {setting : Setting α V} {showData : Bool} {engine : V → Engine α}
  {calm asked : V → Prop} {w w' : State α (Engine α)} {g g' : GraphSession.State α} {s : State α V}
  {step : Step α} {a b out : String} {n k : NodeId} {h : Handle}

omit [Scalar α] [Sampler α] in
theorem In.trains_eq (hs : In engine calm w s) (step : Step α) (n : NodeId) :
    step.Trains n w.env.world w = step.Trains n (engine s.env.world) s := by
  obtain ⟨-, rfl⟩ := hs
  cases step <;> rfl

omit [Scalar α] [Sampler α] in
theorem In.clears_eq (hs : In engine calm w s) (step : Step α) (n : NodeId) :
    step.Clears n w.env.world w = step.Clears n (engine s.env.world) s := by
  rw [Step.Clears, hs.scope_eq, Step.Clears]

omit [Sampler α] in
theorem In.adds_eq (hs : In engine calm w s) (step : Step α) (n : NodeId) :
    step.adds w.env.world w n = step.adds (engine s.env.world) s n := by
  obtain ⟨-, rfl⟩ := hs
  cases step <;> rfl

/-- A command has been given, and has done what it could; it has succeeded if the step has. -/
def Given (engine : V → Engine α) (calm : V → Prop) (w : State α (Engine α)) (c : Command Handle)
    (answer : Answer α) (s : State α V) : Prop :=
  (answer.Succeeded → (w.env.world.run c).1 = .ok ()) ∧
    In engine calm (w.withEngine (w.env.world.run c).2.1) s

/-- A step that only gives a command. -/
theorem meets_given (hS : Serving setting.libraries engine calm asked) (hs : In engine calm w s)
    {operation : Action V Unit} {c : Command Handle}
    (h : Meets (At engine calm w.env.world) operation
      (fun _ => Obeyed engine asked w.env.world c) fun _ => Defied engine asked w.env.world c) :
    Meets (· = s) (do perform operation; return .done) (Given engine calm w c)
      (Given engine calm w c) := by
  refine .bind (R := fun _ => Given engine calm w c .done)
    (meets_operating (.start hs.at_env (h.imp ?_ ?_))) fun _ => .pure fun _ h => h
  · rintro - env ⟨hok, hA⟩
    exact ⟨fun _ => hok, (hs.withEnv hA).mono fun _ => hS.still⟩
  · rintro cause env ⟨-, hA⟩
    exact ⟨fun h => absurd rfl (h.1 cause), (hs.withEnv hA).mono fun _ => hS.still⟩

/-- The graph after a step that differentiates. -/
theorem backward_answer (showData : Bool) (hS : Serving setting.libraries engine calm asked)
    (hs : In engine calm w s) {root : NodeId}
    (hr : w.env.world.tensor (w.heldIn .tensor a) = .ok root) :
    ∃ w', In engine calm w' (setting.answer showData (.backward a) s).2 ∧
      w'.env.world.store = (w.env.world.store.backward root).2 ∧
      ((setting.answer showData (.backward a) s).1.Succeeded →
        (w.env.world.store.backward root).1 = .ok ()) := by
  rw [← hs.heldIn_eq] at hr
  obtain ⟨h, hh, -⟩ := Engine.tensor_eq_ok hr
  obtain ⟨t, ht, hth⟩ := State.find?_of_heldIn hh
  rw [hh] at hr
  have hgiven := answer_of_meets (P := Given engine calm w (.backward (some h)))
    (show Meets _ (run setting showData (.backward a)) _ _ from
      meets_inSlot ht (meets_given hS hs (hS.meets_backward hth)))
  rw [Given, (Engine.Ran.backward hr rfl).run_eq] at hgiven
  exact ⟨_, hgiven.2, rfl, hgiven.1⟩

/-- The graph after a step that clears gradients. -/
theorem clearGradients_answer (showData : Bool)
    (hS : Serving setting.libraries engine calm asked) (hs : In engine calm w s)
    {state : Optimizer α}
    (ho : w.env.world.optimizer (w.heldIn .optimizer a) = .ok (h, state)) :
    ∃ w', In engine calm w' (setting.answer showData (.clearGradients a) s).2 ∧
      w'.env.world.store = state.clearGradients w.env.world.store := by
  rw [← hs.heldIn_eq] at ho
  have hh := Engine.optimizer_eq_ok ho
  obtain ⟨o, hx, hxh⟩ := State.find?_of_heldIn hh
  rw [hh] at ho
  have hgiven := answer_of_meets (P := Given engine calm w (.clearGradients (some h)))
    (show Meets _ (run setting showData (.clearGradients a)) _ _ from
      meets_inSlot hx (meets_given hS hs (hS.meets_clearGradients hxh)))
  rw [Given, (Engine.Ran.clearGradients ho).run_eq] at hgiven
  exact ⟨_, hgiven.2, rfl⟩

/-- A step adds to the gradient of a node what it is to add. -/
theorem Abides.grad_eq (hS : Serving setting.libraries engine calm asked)
    (hs : In engine calm w s) (hw : Stands w g)
    (ha : Abides setting showData engine calm w step s w' g')
    (hc : ¬step.Clears n (engine s.env.world) s)
    (ht : ¬step.TrainsGradient n (engine s.env.world) s) (hn : n < w.env.world.store.nodes.size) :
    w'.env.world.store.grad n =
      Store.gather? (w.env.world.store.grad n) (step.adds (engine s.env.world) s n) := by
  rw [← hs.adds_eq]
  rcases step.adds_cases w.env.world w with ⟨a, root, rfl, hr⟩ | hother
  · obtain ⟨w'', hs'', hst, -⟩ := backward_answer showData hS hs hr
    obtain rfl := ha.seen.unique hs''
    rw [hst, hw.sound.graph.backward_grad, Step.adds, hr]
  · obtain ⟨hadds, hgained, -⟩ := hother n
    have hsame : w'.env.world.store.gradient n = w.env.world.store.gradient n := by
      rcases ha.frame.gradient_cases n hn with h | ⟨-, h⟩ | ⟨-, h⟩
      · exact h
      · exact absurd h hgained
      · rw [hs.scope_eq] at h
        exact absurd h hc
    rw [hadds, Store.gather?, Store.grad, Store.grad, hsame]
    refine Option.map_congr fun k hk => ?_
    refine ha.frame.value_eq k (hw.sound.graph.sound.held n k hk).1 fun hwr => ht ⟨k, ?_, ?_⟩
    · rw [hs.store_eq, hk]
    · rw [← hs.trains_eq]
      exact (hother k).2.2 hwr

/-- The gradient of a tensor is shown as it is now; if there is one, the wrapper that is handed out
stands for it. -/
theorem gradient_answer (showData : Bool) (hS : Serving setting.libraries engine calm asked)
    (hs : In engine calm w s) (hw : Stands w g)
    (hn : w.env.world.tensor (w.heldIn .tensor a) = .ok n) (out : String) :
    (setting.answer showData (.gradient a out) s).1 =
        .gradient ((w.env.world.store.gradient n).map (w.env.world.store.shown showData)) ∧
      ∃ w', In engine calm w' (setting.answer showData (.gradient a out) s).2 ∧
        w'.env.world.store = w.env.world.store ∧
        ∀ k, w.env.world.store.gradient n = some k →
          w'.env.world.tensor (w'.heldIn .tensor out) = .ok k := by
  rw [← hs.heldIn_eq] at hn
  obtain ⟨h, hh, ho⟩ := Engine.tensor_eq_ok hn
  obtain ⟨t, ht, hth⟩ := State.find?_of_heldIn hh
  exact answer_gradient showData hS hs hw ht hth ho out

/-! ## Runs -/

omit [Sampler α] in
/-- A gradient stays where it is until it is cleared. -/
theorem Abides.gradient_eq (hs : In engine calm w s)
    (ha : Abides setting showData engine calm w step s w' g')
    (hc : ¬step.Clears n (engine s.env.world) s) (hk : w.env.world.store.gradient n = some k) :
    w'.env.world.store.gradient n = some k := by
  rcases ha.frame.gradient_cases n (Store.lt_size_of_gradient hk) with h | ⟨h, -⟩ | ⟨-, h⟩
  · exact h.trans hk
  · cases h.symm.trans hk
  · rw [hs.scope_eq] at h
    exact absurd h hc

/-- The node is nobody's gradient, and has this value. -/
structure LeftBehind (k : NodeId) (v : Buffer α) (e : Engine α) : Prop where
  existing : k < e.store.nodes.size
  value : e.store.value k = v
  apart : ∀ m, e.store.gradient m ≠ some k

omit [Sampler α] in
/-- A node that has been left behind is written by training only, and does not become a gradient
again. -/
theorem Abides.leftBehind (hs : In engine calm w s)
    (ha : Abides setting showData engine calm w step s w' g') {v : Buffer α}
    (ht : ¬step.Trains k (engine s.env.world) s) (hl : LeftBehind k v w.env.world) :
    LeftBehind k v w'.env.world := by
  refine ⟨Nat.lt_of_lt_of_le hl.existing ha.frame.size_le, ?_, fun m hm => ?_⟩
  · rw [← hl.value]
    refine ha.frame.value_eq k hl.existing fun hwr => ?_
    rcases Step.trains_of_written hwr with h | ⟨m, hm⟩
    · rw [hs.trains_eq] at h
      exact ht h
    · exact hl.apart m hm
  · rcases ha.frame.fresh m k hm with h | h
    · exact hl.apart m h
    · exact Nat.not_le.2 hl.existing h

/-- When a gradient is cleared it is left behind. -/
theorem cleared_answer (showData : Bool) (hS : Serving setting.libraries engine calm asked)
    (hs : In engine calm w s) (hw : Stands w g) (hk : w.env.world.store.gradient n = some k)
    (hc : Step.Clears n (.clearGradients a) (engine s.env.world) s) :
    ∃ w' g', In engine calm w' (setting.answer showData (.clearGradients a) s).2 ∧
      Stands w' g' ∧ w.env.world.Persists w'.env.world ∧
      w'.env.world.store.gradient n = none ∧
      LeftBehind k (w.env.world.store.value k) w'.env.world := by
  have hsound := hw.sound.graph.sound
  have hlt := (hsound.held n k hk).1
  rw [← hs.clears_eq] at hc
  obtain ⟨h, state, ho, hn⟩ := hc
  have hstep : Step.Ordinary (.clearGradients a : Step α) := trivial
  obtain ⟨w', g', ha⟩ := abides_answer showData hS hs hw hstep
  obtain ⟨w'', hs'', hst⟩ := clearGradients_answer showData hS hs ho
  obtain rfl := ha.seen.unique hs''
  have hnone : w'.env.world.store.gradient n = none := by
    rw [hst, state.gradient_clearGradients _ hn]
  refine ⟨w', g', ha.seen, ha.stands, ha.persists, hnone,
    ⟨Nat.lt_of_lt_of_le hlt ha.frame.size_le, ha.frame.value_eq k hlt id, fun m hm => ?_⟩⟩
  rcases ha.frame.fresh m k hm with hm' | hle
  · rw [hsound.apart m n k hm' hk, hnone] at hm
    cases hm
  · exact Nat.not_le.2 hlt hle

/-- A handle that is held still stands for the same node, and tells its elements. -/
theorem reads_after (showData : Bool) (hS : Serving setting.libraries engine calm asked)
    (hs : In engine calm w' s) (hw : Stands w' g') (hp : w.env.world.Persists w'.env.world)
    (hk : w.env.world.tensor (some h) = .ok k) (hb : s.heldIn .tensor b = some h) :
    (engine s.env.world).tensor (some h) = .ok k ∧
      (setting.answer showData (.values b) s).1 =
        .values (w'.env.world.store.value k).data.toList := by
  obtain ⟨_, ⟨⟩, ho⟩ := Engine.tensor_eq_ok hk
  obtain ⟨t, ht, hth⟩ := State.find?_of_heldIn hb
  obtain ⟨m, hm, ho', -⟩ := hw.live (hs.find?_slot .tensor ht) hth
  obtain rfl := hp.tensor_eq ho ho'
  refine ⟨(hs.tensor_eq _).trans (Engine.tensor_of_object? ho'), ?_⟩
  rw [answer_values showData hS hs hw ht hth hm, hw.store]

/-- What the steps add to a gradient is what it has gathered after them. -/
theorem accumulated_after (showData : Bool) (hS : Serving setting.libraries engine calm asked) :
    ∀ {steps : List (Step α)} {w : State α (Engine α)} {g : GraphSession.State α} {s : State α V},
    In engine calm w s → Stands w g → (∀ step ∈ steps, step.Ordinary) →
    setting.Never showData engine (Step.Clears n) steps s →
    setting.Never showData engine (Step.TrainsGradient n) steps s →
    n < w.env.world.store.nodes.size →
    (engine (setting.after showData steps s).env.world).store.grad n =
      setting.accumulated showData engine n steps s (w.env.world.store.grad n)
  | [], w, _, s, hs, _, _, _, _, _ => congrFun (congrArg Store.grad hs.store_eq) n
  | step :: rest, w, g, s, hs, hw, hsteps, ⟨hclears, hnc⟩, ⟨htrains, hnt⟩, hn => by
    obtain ⟨hstep, hrest⟩ := List.forall_mem_cons.1 hsteps
    have hs' := hs.withLog []
    obtain ⟨w', g', ha⟩ := abides_answer showData hS hs' hw hstep
    have hgrad := ha.grad_eq hS hs' hw hclears htrains hn
    have hrun := accumulated_after showData hS ha.seen ha.stands hrest hnc hnt
      (Nat.lt_of_lt_of_le hn ha.frame.size_le)
    rw [hgrad] at hrun
    exact hrun

omit [Scalar α] [Sampler α] in
/-- Other wrappers than the one that goes away stand for what they stood for. -/
theorem Parting.tensor_eq_ok {e e' : Engine α} {s' : State α V}
    (hp : Parting e e' s s' .tensor b) (hne : a ≠ b) (hn : e.tensor (s.heldIn .tensor a) = .ok n) :
    e'.tensor (s'.heldIn .tensor a) = .ok n := by
  obtain ⟨h, hh, ho⟩ := Engine.tensor_eq_ok hn
  obtain ⟨t, ht, hth⟩ := State.find?_of_heldIn hh
  obtain ⟨ht', ho'⟩ := hp.live (fun heq => hne (Prod.mk.inj heq).2) ht hth
  have hh' : s'.heldIn .tensor a = some h := Option.bind_eq_some_iff.2 ⟨t, ht', hth⟩
  rw [hh', Engine.tensor_of_object? (ho'.trans ho)]

/-! ## The law -/

/-- The life of the gradients of a session that is in the state `s`. -/
structure GradientLife (setting : Setting α V) (showData : Bool) (engine : V → Engine α)
    (s : State α V) : Prop where
  /-- A gradient is handed out by any wrapper of its tensor as it is now, and the new wrapper stands
  for it. -/
  taken : ∀ {a x}, (engine s.env.world).tensor (s.heldIn .tensor a) = .ok x → ∀ out,
    let next := setting.next showData (.gradient a out) s
    next.1 = .gradient (((engine s.env.world).store.gradient x).map
      ((engine s.env.world).store.shown showData)) ∧
    ∀ k, (engine s.env.world).store.gradient x = some k →
      (engine next.2.env.world).store.gradient x = some k ∧
      (engine next.2.env.world).tensor (next.2.heldIn .tensor out) = .ok k
  /-- Until it is cleared it is the same node. All wrappers that stand for it tell what it is by
  then, and those that are handed out later stand for it as well. -/
  current : ∀ {x k later}, (engine s.env.world).store.gradient x = some k →
    (∀ step ∈ later, step.Ordinary) → setting.Never showData engine (Step.Clears x) later s →
    let s' := setting.after showData later s
    (engine s'.env.world).store.gradient x = some k ∧
    (∀ {h b}, (engine s.env.world).tensor (some h) = .ok k → s'.heldIn .tensor b = some h →
      (engine s'.env.world).tensor (some h) = .ok k ∧
      (setting.answer showData (.values b) s').1 =
        .values ((engine s'.env.world).store.value k).data.toList) ∧
    ∀ {a}, (engine s'.env.world).tensor (s'.heldIn .tensor a) = .ok x → ∀ out,
      let next := setting.next showData (.gradient a out) s'
      (engine next.2.env.world).tensor (next.2.heldIn .tensor out) = .ok k
  /-- What it is by then has been added up by differentiation, unless it is trained itself. -/
  accumulated : ∀ {x later}, x < (engine s.env.world).store.nodes.size →
    (∀ step ∈ later, step.Ordinary) → setting.Never showData engine (Step.Clears x) later s →
    setting.Never showData engine (Step.TrainsGradient x) later s →
    (engine (setting.after showData later s).env.world).store.grad x =
      setting.accumulated showData engine x later s ((engine s.env.world).store.grad x)
  /-- When it has been cleared it is left behind: unless it is trained, its wrappers tell for ever
  what it was then, and it does not become a gradient again. -/
  cleared : ∀ {x k o}, (engine s.env.world).store.gradient x = some k →
    Step.Clears x (.clearGradients o) (engine s.env.world) s →
    let s₁ := (setting.next showData (.clearGradients o) s).2
    (engine s₁.env.world).store.gradient x = none ∧
    ∀ {later}, (∀ step ∈ later, step.Ordinary) →
      setting.Never showData engine (Step.Trains k) later s₁ →
      let s' := setting.after showData later s₁
      (∀ y, (engine s'.env.world).store.gradient y ≠ some k) ∧
      ∀ {h b}, (engine s.env.world).tensor (some h) = .ok k → s'.heldIn .tensor b = some h →
        (engine s'.env.world).tensor (some h) = .ok k ∧
        (setting.answer showData (.values b) s').1 =
          .values ((engine s.env.world).store.value k).data.toList
  /-- Where there is no gradient, differentiation makes a new node of just what it adds. If it
  succeeds it adds to the tracked leaves that the root was made from, and to no other nodes. -/
  fresh : ∀ {a root x}, (engine s.env.world).store.gradient x = none →
    (engine s.env.world).tensor (s.heldIn .tensor a) = .ok root →
    let next := setting.next showData (.backward a) s
    (engine next.2.env.world).store.grad x = (engine s.env.world).store.contribution root x ∧
    (∀ k, (engine next.2.env.world).store.gradient x = some k →
      (engine s.env.world).store.nodes.size ≤ k) ∧
    (next.1.Succeeded → ((engine s.env.world).store.contribution root x ≠ none ↔
      (engine s.env.world).store.ReachesLeaf root x))
  /-- Nothing of this is changed by a tensor that goes away: other wrappers hand out what they would
  have. -/
  parting : ∀ {b step}, step = .destroy .tensor b ∨ step = .drop .tensor b →
    let s' := (setting.next showData step s).2
    (engine s'.env.world).store = (engine s.env.world).store ∧
    ∀ {a x}, a ≠ b → (engine s.env.world).tensor (s.heldIn .tensor a) = .ok x → ∀ out,
      (setting.next showData (.gradient a out) s').1 = (setting.next showData (.gradient a out) s).1

/-- Where wrappers and slots stand side by side, gradients live as they should. -/
theorem Stands.gradientLife (hS : Serving setting.libraries engine calm asked)
    (hs : In engine calm w s) (hw : Stands w g) : GradientLife setting showData engine s where
  taken := by
    intro a x hx out
    have hs' := hs.withLog []
    rw [hs.tensor_eq, hs.heldIn_eq] at hx
    obtain ⟨hanswer, w', hin, hstore, hout⟩ := gradient_answer showData hS hs' hw hx out
    rw [hs.store_eq]
    refine ⟨hanswer, fun k hk => ⟨?_, ?_⟩⟩
    · rw [Setting.next, hin.store_eq, hstore, hk]
    · rw [Setting.next, hin.tensor_eq, hin.heldIn_eq, hout k hk]
  current := by
    intro x k later hk hlater hnever
    rw [hs.store_eq] at hk
    obtain ⟨w', g', hs', hw', hp, hk'⟩ := invariant_after hS
      (I := fun e => e.store.gradient x = some k)
      (fun hs _ ha hc hk => ha.gradient_eq hs hc hk) hs hw hlater hnever hk
    refine ⟨hs'.store_eq ▸ hk', fun hh hb => ?_, fun hx out => ?_⟩
    · rw [hs.tensor_eq] at hh
      rw [hs'.store_eq]
      exact reads_after showData hS hs' hw' hp hh hb
    · rw [hs'.tensor_eq, hs'.heldIn_eq] at hx
      obtain ⟨-, w'', hin, -, hout⟩ := gradient_answer showData hS (hs'.withLog []) hw' hx out
      exact (hin.tensor_eq _).trans (hin.heldIn_eq .tensor out ▸ hout k hk')
  accumulated := by
    intro x later hx hlater hnc hnt
    rw [hs.store_eq] at hx ⊢
    exact accumulated_after showData hS hs hw hlater hnc hnt hx
  cleared := by
    intro x k o hk hc
    have hs' := hs.withLog []
    rw [hs.store_eq] at hk ⊢
    rw [← hs.clears_eq, hs'.clears_eq] at hc
    obtain ⟨w₁, g₁, hs₁, hw₁, hp₁, hnone, hleft⟩ := cleared_answer showData hS hs' hw hk hc
    refine ⟨hs₁.store_eq ▸ hnone, fun hlater hnever => ?_⟩
    obtain ⟨w', g', hin, hw', hp', hleft'⟩ := invariant_after hS
      (fun hs _ ha ht hl => ha.leftBehind hs ht hl) hs₁ hw₁ hlater hnever hleft
    refine ⟨fun y hy => hleft'.apart y (hin.store_eq ▸ hy), fun hh hb => ?_⟩
    rw [hs.tensor_eq] at hh
    have hreads := reads_after showData hS hin hw' (hp₁.trans hp') hh hb
    rw [hleft'.value] at hreads
    exact hreads
  fresh := by
    intro a root x hx hr
    have hs' := hs.withLog []
    rw [hs.store_eq] at hx ⊢
    rw [hs.tensor_eq, hs.heldIn_eq] at hr
    obtain ⟨w', hin, hst, hok⟩ := backward_answer showData hS hs' hr
    refine ⟨?_, fun k hk => ?_, fun h => hw.sound.graph.contribution_ne_none (hok h) x⟩
    · rw [Setting.next, hin.store_eq, hst, hw.sound.graph.backward_grad, Store.grad, hx,
        Option.map_none, Store.gather?_none]
    · rw [Setting.next, hin.store_eq, hst] at hk
      refine ((hw.sound.graph.backward_frame root).fresh x k hk).resolve_left fun h => ?_
      cases hx.symm.trans h
  parting := by
    intro b step hstep
    have hs' := hs.withLog []
    have hp : Parting _ (engine (setting.answer showData step _).2.env.world) _ _ .tensor b :=
      parting_answer hS hs' hw hstep
    refine ⟨hp.graph, fun {a x} hne hx out => ?_⟩
    obtain ⟨w', g', ha⟩ := abides_answer showData hS hs' hw
      (show step.Ordinary by rcases hstep with rfl | rfl <;> trivial)
    have hx' := hp.tensor_eq_ok hne hx
    rw [hs.tensor_eq, hs.heldIn_eq] at hx
    rw [ha.seen.tensor_eq, ha.seen.heldIn_eq] at hx'
    have hstore : w'.env.world.store = w.env.world.store := by
      rw [← ha.seen.store_eq, hp.graph, hs'.store_eq]
    have hbefore := (gradient_answer showData hS hs' hw hx out).1
    have hafter := (gradient_answer showData hS (ha.seen.withLog []) ha.stands hx' out).1
    rw [hstore] at hafter
    exact hafter.trans hbefore.symm

/-- Gradients live as they should in every state of every session with the reference library. -/
theorem gradient_life_after (seed : UInt64) (showData : Bool) {steps : List (Step α)}
    (hsteps : ∀ step ∈ steps, step.Ordinary) :
    let setting : Setting α (Rehearsal (Engine α)) := .rehearsing .reference
    GradientLife setting showData Rehearsal.inner
      (setting.after showData steps (.new { inner := .ofSeed seed })) := by
  intro setting
  obtain ⟨hin, hstands⟩ := stands_start (α := α) seed
  obtain ⟨w, hs, hw⟩ := stands_after showData serving_rehearsing hin hstands hsteps
  exact hw.gradientLife serving_rehearsing hs

/-- The gradient of the weight of a layer, which two optimizers clear, is taken out twice through
two wrappers of the weight, and goes on as an operand. -/
theorem gradient_life_after_training :
    let steps : List (Step Float) := [.linear 0 2 1 "l", .parameters "l" ["v", "b"],
      .parameters "l" ["w"], .sgd 0 ["v", "b"] .standard "o", .sgd 0 ["w"] .standard "p",
      .filled 0 .ones [3, 2] "x", .forward "l" "x" "y", .unary .sum "y" "loss", .backward "loss",
      .gradient "v" "dv", .backward "loss", .gradient "w" "dw", .binary .mul "dv" "w" "z",
      .clearGradients "p", .backward "loss", .destroy .tensor "dv"]
    let setting : Setting Float (Rehearsal (Engine Float)) := .rehearsing .reference
    GradientLife setting true Rehearsal.inner
      (setting.after true steps (.new { inner := .ofSeed 7 })) := by
  intro steps
  have hsteps : ∀ step ∈ steps, step.Ordinary := by decide
  exact gradient_life_after 7 true hsteps

end HostSession

end DiffTensor
