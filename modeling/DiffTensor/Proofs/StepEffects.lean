import DiffTensor.Proofs.Passing
import DiffTensor.Proofs.StepParts
import DiffTensor.Proofs.StoreFrame

/-!
# Calls against computations

What a library is asked for on handles is what a step without wrappers does on what the handles
stand for: a call that makes a node is the step's computation (`Computes`), and a command does to
the graph what the step does to it (`Commands`).
-/

namespace DiffTensor.HostSession

open Host (Tensor Layer Owned)

variable {α V β : Type}

/-- The dimensions and the data of the step lie in memory, and it orders no failure. -/
def Step.Ordinary : Step α → Prop
  | .filled _ _ dims _ => Words (some dims)
  | .ofValues _ data dims _ => data.length < Extent.allocationLimit ∧ Words dims
  | .inject _ => False
  | _ => True

instance : (step : Step α) → Decidable step.Ordinary
  | .filled _ _ dims _ => inferInstanceAs (Decidable (Words (some dims)))
  | .ofValues _ data dims _ =>
    inferInstanceAs (Decidable (data.length < Extent.allocationLimit ∧ Words dims))
  | .inject _ => isFalse id
  | .seed .. | .binary .. | .unary .. | .values _ | .item _ | .info _ | .debug _ | .setTracked ..
  | .backward _ | .gradient .. | .linear .. | .forward .. | .parameters .. | .layerInfo _ | .adam ..
  | .sgd .. | .step _ | .clearGradients _ | .optimizerInfo _ | .destroy .. | .drop .. | .census =>
    isTrue trivial

variable [Scalar α] [Sampler α] {w : State α (Engine α)} {g : GraphSession.State α}
  {step : Step α} {out : String}

/-! ## Calls and computations -/

/-- The call makes the node that the step makes without wrappers. -/
def Computes (w : State α (Engine α)) (g : GraphSession.State α) (step : Step α) (out : String)
    (c : Creation α Handle) : Prop :=
  (Call.create c true).Representable ∧ ∃ outcome : Outcome (NodeId × Store α × Stream),
    w.env.world.build c = (fun made => (.tensor made.1, made.2)) <$> outcome ∧
      Direct.Builds step out g outcome

section

variable {c : Creation α Handle} {a b : String} {x y : Tensor}

theorem computes_filled (hw : Stands w g) {library : LibraryId} {filling : Filling}
    {dims : List Int} (hd : Words (some dims)) (hc : Tensor.filledCall filling dims = .ok c) :
    Computes w g (.filled library filling dims out) out c := by
  have hmakes := Tensor.makesTensor_filled hd hc
  obtain ⟨⟨⟩, hchecked, hc⟩ := HostError.bind_eq_ok_iff.1 hc
  cases hc
  refine ⟨hmakes.1, _, ?_, Direct.builds_filled⟩
  simp only [Engine.build, Engine.readShape_of_checked hchecked, Outcome.ok_bind, hw.store,
    hw.stream]
  cases Engine.filledBuffer (α := α) filling (dims.map Int.toNat) w.env.world.stream <;> rfl

theorem computes_ofValues (hw : Stands w g) {library : LibraryId} {values : List α}
    {dims : Option (List Int)} (hv : values.length < Extent.allocationLimit) (hd : Words dims)
    (hc : Tensor.ofValuesCall values dims = .ok c) :
    Computes w g (.ofValues library values dims out) out c := by
  have hmakes := Tensor.makesTensor_ofValues hv hd hc
  obtain ⟨shape, hshape, hc⟩ := HostError.bind_eq_ok_iff.1 hc
  cases hc
  obtain ⟨rfl, hchecked, -⟩ := Tensor.shapeOfValues_eq hv hshape
  refine ⟨hmakes.1, _, ?_, Direct.builds_ofValues⟩
  simp only [Engine.build, Engine.readShape_of_checked hchecked, Engine.readData_passed,
    Outcome.ok_bind, hw.store, hw.stream]
  cases Buffer.fill values.toArray ((dims.getD [(values.length : Int)]).map Int.toNat) <;> rfl

theorem computes_binary (hw : Stands w g) {op : BinaryOp}
    (hx : (w.slots .tensor).find? a = some x) (hy : (w.slots .tensor).find? b = some y)
    (hc : Tensor.binaryCall op x y = .ok c) : Computes w g (.binary op a b out) out c := by
  simp only [Tensor.binaryCall, HostError.bind_eq_ok_iff] at hc
  obtain ⟨h, hh, k, hk, _, -, _, -, hc⟩ := hc
  cases hc
  obtain ⟨n, hn, hon, -⟩ := hw.live hx (Owned.handle_eq_ok.1 hh)
  obtain ⟨m, hm, hom, -⟩ := hw.live hy (Owned.handle_eq_ok.1 hk)
  refine ⟨trivial, _, ?_, Direct.builds_binary hn hm⟩
  simp only [Engine.build, Engine.tensor_of_object? hon, Engine.tensor_of_object? hom,
    Outcome.ok_bind, hw.store, hw.stream]
  cases w.env.world.store.binary op n m <;> rfl

theorem computes_unary (hw : Stands w g) {op : UnaryOp} (hx : (w.slots .tensor).find? a = some x)
    (hc : Tensor.unaryCall op x = .ok c) : Computes w g (.unary op a out) out c := by
  simp only [Tensor.unaryCall, HostError.bind_eq_ok_iff] at hc
  obtain ⟨h, hh, _, -, hc⟩ := hc
  cases hc
  obtain ⟨n, hn, hon, -⟩ := hw.live hx (Owned.handle_eq_ok.1 hh)
  refine ⟨trivial, _, ?_, Direct.builds_unary hn⟩
  simp only [Engine.build, Engine.tensor_of_object? hon, Outcome.ok_bind, hw.store, hw.stream]
  cases w.env.world.store.unary op n <;> rfl

theorem computes_forward (hw : Stands w g) {layer : String} {l : Layer}
    (hl : (w.slots .layer).find? layer = some l) (hx : (w.slots .tensor).find? a = some x)
    (hc : Layer.forwardCall l x = .ok c) : Computes w g (.forward layer a out) out c := by
  simp only [Layer.forwardCall, HostError.bind_eq_ok_iff] at hc
  obtain ⟨h, hh, k, hk, _, -, _, -, hc⟩ := hc
  cases hc
  obtain ⟨linear, hlin, hol, -⟩ := hw.live hl (Owned.handle_eq_ok.1 hh)
  obtain ⟨n, hn, hon, -⟩ := hw.live hx (Owned.handle_eq_ok.1 hk)
  refine ⟨trivial, _, ?_, Direct.builds_forward hlin hn⟩
  simp only [Engine.build, Engine.layer_of_object? hol, Engine.tensor_of_object? hon,
    Outcome.ok_bind, hw.store, hw.stream]
  cases w.env.world.store.applyLinear linear n <;> rfl

omit [Scalar α] [Sampler α] in
/-- The handles of parameters are those of the nodes in the slots. -/
theorem nodes_of_parameters (hw : Stands w g) {library : LibraryId} : ∀ {names : List String}
    {ts : List Tensor} {handles : List Handle}, names.mapM (w.slots .tensor).find? = some ts →
    Host.Optimizer.parameterHandles library ts = .ok handles →
    ∃ nodes, names.mapM g.nodes.find? = some nodes ∧
      (handles.map some).mapM w.env.world.tensor = .ok nodes
  | [], _, _, ht, hh => by
    cases ht
    cases hh
    exact ⟨[], rfl, rfl⟩
  | name :: names, _, _, ht, hh => by
    rw [List.mapM_cons] at ht
    obtain ⟨t, hslot, ht⟩ := Option.bind_eq_some_iff.1 ht
    obtain ⟨ts, hts, ht⟩ := Option.bind_eq_some_iff.1 ht
    cases ht
    obtain ⟨h, hheld, hh⟩ := HostError.bind_eq_ok_iff.1 hh
    split at hh
    · cases hh
    · obtain ⟨rest, hrest, hh⟩ := HostError.bind_eq_ok_iff.1 hh
      cases hh
      obtain ⟨n, hn, hon, -⟩ := hw.live hslot (Owned.handle_eq_ok.1 hheld)
      obtain ⟨nodes, hnodes, hread⟩ := nodes_of_parameters hw hts hrest
      have hn' : g.nodes.find? name = some n := hn
      refine ⟨n :: nodes, ?_, ?_⟩
      · rw [List.mapM_cons, hn', hnodes]
        rfl
      · rw [List.map_cons, List.mapM_cons, Engine.tensor_of_object? hon, hread]
        rfl

end

/-! ## Commands -/

/-- The command does what the step does without wrappers, however far it gets. -/
def Commands (w : State α (Engine α)) (g : GraphSession.State α) (step : Step α)
    (c : Command Handle) : Prop :=
  ∃ g', Direct.answer step g = (Direct.ending (w.env.world.run c).1, g') ∧
    Stands (w.withEngine (w.env.world.run c).2.1) g'

section

variable {name : String} {h : Handle}

theorem commands_setTracked (hw : Stands w g) {x : Tensor} {flag : Bool}
    (hx : (w.slots .tensor).find? name = some x) (hh : x.owned.held = some h) :
    Commands w g (.setTracked name flag) (.setTracked (some h) flag) := by
  obtain ⟨n, hn, ho, -⟩ := hw.live hx hh
  have hd : Direct.answer (.setTracked name flag) g = _ := Direct.answer_setTracked hn
  rw [hw.store] at hd
  cases hs : w.env.world.store.setTracked n flag with
  | error cause =>
    have hbind : (do (w.env.world.store.setTracked (← w.env.world.tensor (some h)) flag) :
        Outcome (Store α)) = .error cause := by rw [Engine.tensor_of_object? ho, Outcome.ok_bind, hs]
    have hrun := (Engine.Ran.refused (.setTracked hbind)).run_eq
    rw [hs] at hd
    exact ⟨g, by rw [hrun]; exact hd, by rw [hrun]; exact hw⟩
  | ok store =>
    have hrun := (Engine.Ran.setTracked (Engine.tensor_of_object? ho) hs).run_eq
    rw [hs] at hd
    exact ⟨{ g with store }, by rw [hrun]; exact hd,
      by rw [hrun]; exact hw.advanceStore (hw.sound.graph.setTracked hs)⟩

theorem commands_backward (hw : Stands w g) {x : Tensor}
    (hx : (w.slots .tensor).find? name = some x) (hh : x.owned.held = some h) :
    Commands w g (.backward name) (.backward (some h)) := by
  obtain ⟨n, hn, ho, -⟩ := hw.live hx hh
  have hd := Direct.answer_backward hn
  have hrun := (Engine.Ran.backward (Engine.tensor_of_object? ho) rfl).run_eq
  rw [hw.store] at hd
  refine ⟨_, by rw [hrun]; exact hd, ?_⟩
  rw [hrun]
  exact (hw.advanceStore (hw.sound.graph.backward n)).withLog _

theorem commands_step (hw : Stands w g) {x : Host.Optimizer α}
    (hx : (w.slots .optimizer).find? name = some x) (hh : x.owned.held = some h) :
    Commands w g (.step name) (.step (some h)) := by
  obtain ⟨o, ho, hobj, hshow⟩ := hw.live hx hh
  have hd := Direct.answer_step ho
  rw [hw.store] at hd
  obtain ⟨result, o', s', hs, hf, hA, -⟩ :=
    Optimizer.step_spec hw.sound.graph (hw.sound.objects h _ hobj)
  have hrun := (Engine.Ran.step (Engine.optimizer_of_object? hobj) hs).run_eq
  have hp : o'.parameters = o.parameters := by
    have := (Optimizer.step_frame o w.env.world.store).2
    rwa [hs] at this
  rw [hs] at hd
  refine ⟨_, by rw [hrun]; exact hd, ?_⟩
  rw [hrun]
  have hx' : ((w.withEngine { w.env.world with store := s' }).slots .optimizer).find? name =
      some x := by
    rw [slots_withEngine]
    exact hx
  exact (hw.advanceStore hA).setOptimizer hx' hh hf (hp ▸ hshow)

theorem commands_clearGradients (hw : Stands w g) {x : Host.Optimizer α}
    (hx : (w.slots .optimizer).find? name = some x) (hh : x.owned.held = some h) :
    Commands w g (.clearGradients name) (.clearGradients (some h)) := by
  obtain ⟨o, ho, hobj, -⟩ := hw.live hx hh
  have hd := Direct.answer_clearGradients ho
  rw [hw.store] at hd
  have hrun := (Engine.Ran.clearGradients (Engine.optimizer_of_object? hobj)).run_eq
  refine ⟨_, by rw [hrun]; exact hd, ?_⟩
  rw [hrun]
  exact hw.advanceStore (Optimizer.clearGradients_spec hw.sound.graph o)

end

end DiffTensor.HostSession
