import DiffTensor.Random.Double
import DiffTensor.Scalar.Double
import DiffTensor.Proofs.Calls
import DiffTensor.Proofs.Custody
import DiffTensor.Proofs.Optimizer

/-!
# The reference library never fails from within

`Engine.Sound` is the invariant of the reference library: the graph is healthy, and every object
that has been handed out fits it. All entry points keep it, whatever they are called with and
whether they succeed, are refused, or break off (`Sound.answer`); so it holds in every state that
calls can lead to (`Engine.Reachable`).

In such a state differentiation from a single tracked element and the steps of optimizers have no
way to fail but the limits of machine words (`Reachable.dependable`).
-/

namespace DiffTensor

variable {α : Type}

/-! ## Buffers that calls make -/

theorem Buffer.sound_of_full {shape : List Nat} (hw : Extent.Storable shape)
    {value : α} {b : Buffer α} (h : Buffer.full shape value = .ok b) : b.Sound := by
  have hfull := Buffer.wellShaped_full h
  unfold Buffer.full at h
  split at h
  · rename_i hs
    cases h
    exact ⟨Extent.proper_of_saturated hw hs, hfull⟩
  · cases h

theorem Buffer.sound_of_fill {shape : List Nat} (hw : Extent.Storable shape)
    {data : Array α} (hd : data.size < Extent.allocationLimit) {b : Buffer α}
    (h : Buffer.fill data shape = .ok b) : b.Sound ∧ b.shape = shape := by
  have hfull := Buffer.wellShaped_fill h hd
  unfold Buffer.fill at h
  split at h
  · rename_i hs
    cases h
    exact ⟨⟨Extent.proper_of_saturated hw (hs ▸ hd), hfull⟩, rfl⟩
  · cases h

theorem Sampler.size_drawOnto {draw : Stream → Outcome (α × Stream)} :
    ∀ (n : Nat) {samples out : Array α} {s s' : Stream},
    Sampler.drawOnto draw n samples s = .ok (out, s') → out.size = samples.size + n
  | 0, samples, out, s, s', h => by
    obtain ⟨rfl, -⟩ := Prod.mk.inj (Except.ok.inj h)
    rfl
  | n + 1, samples, out, s, s', h => by
    unfold Sampler.drawOnto at h
    split at h
    · have ih := Sampler.size_drawOnto n h
      rw [Array.size_push] at ih
      omega
    · cases h

theorem Sampler.sound_of_fill {draw : Stream → Outcome (α × Stream)} {shape : List Nat}
    (hw : Extent.Storable shape) {s s' : Stream} {b : Buffer α}
    (h : Sampler.fill draw shape s = .ok (b, s')) : b.Sound ∧ b.shape = shape := by
  unfold Sampler.fill at h
  split at h
  · cases h
  · rename_i hs
    simp only [Outcome.bind_eq_ok_iff, Outcome.pure_eq, Except.ok.injEq, Prod.mk.injEq] at h
    obtain ⟨⟨data, s₁⟩, hd, b', hb, rfl, rfl⟩ := h
    have hsize := Sampler.size_drawOnto _ hd
    refine Buffer.sound_of_fill hw ?_ hb
    rw [hsize]
    simpa using Nat.not_le.1 hs

/-- The object is about nodes of the graph, and what it keeps fits them. -/
def Object.Fits (s : Store α) : Object α → Prop
  | .tensor n => n < s.nodes.size
  | .layer l => l.Fits s
  | .optimizer state => state.Fits s

theorem Object.Fits.grown {s s' : Store α} {o : Object α} (h : o.Fits s) (hg : s.Grown s') :
    o.Fits s' := by
  cases o with
  | tensor n => exact Nat.lt_of_lt_of_le h hg.size_le
  | layer l =>
    obtain ⟨⟨hw, hws⟩, hb, hbs⟩ := h
    exact ⟨⟨Nat.lt_of_lt_of_le hw hg.size_le, (hg.shape_eq _ hw).trans hws⟩,
      Nat.lt_of_lt_of_le hb hg.size_le, (hg.shape_eq _ hb).trans hbs⟩
  | optimizer state => exact Optimizer.Fits.grown h hg

namespace Engine

theorem storable_of_readShape {dims : Option (List Int)} (hw : Words dims) {count : Nat}
    {shape : List Nat} (h : readShape dims count = .ok shape) : Extent.Storable shape := by
  unfold readShape at h
  split at h
  · cases h
    exact Extent.storable_nil
  · cases dims with
    | none => cases h
    | some l =>
      simp only at h
      split at h
      · cases h
      · split at h
        · cases h
        · cases h
          obtain ⟨hl, hw⟩ := hw l rfl
          constructor
          · rw [List.length_map]
            exact Nat.lt_of_le_of_lt (List.length_take_le' _ _) hl
          · intro d hd
            obtain ⟨i, hi, rfl⟩ := List.mem_map.1 hd
            have := (hw i (List.mem_of_mem_take hi)).2
            unfold Extent.wordLimit
            omega

theorem length_readData {data : Option (List α)}
    (hd : ∀ l, data = some l → l.length < Extent.allocationLimit) {length : Nat} {values : List α}
    (h : readData data length = .ok values) : values.length < Extent.allocationLimit := by
  unfold readData at h
  split at h
  · obtain rfl := Except.ok.inj h
    exact (by decide : 0 < Extent.allocationLimit)
  · cases data with
    | none => cases h
    | some l =>
      obtain rfl := Except.ok.inj h
      exact Nat.lt_of_le_of_lt (List.length_take_le' _ _) (hd l rfl)

/-! ## The invariant -/

/-- What holds of the library at every time. -/
structure Sound (e : Engine α) : Prop where
  graph : e.store.Healthy
  objects : ∀ h o, e.object? h = some o → o.Fits e.store

variable {e e' : Engine α}

theorem Sound.tensor (h : e.Sound) {handle : Option Handle} {n : NodeId}
    (hn : e.tensor handle = .ok n) : n < e.store.nodes.size := by
  obtain ⟨k, -, ho⟩ := tensor_eq_ok hn
  exact h.objects k _ ho

theorem Sound.layer (h : e.Sound) {handle : Option Handle} {layer : Linear}
    (hl : e.layer handle = .ok layer) : layer.Fits e.store := by
  obtain ⟨k, -, ho⟩ := layer_eq_ok hl
  exact h.objects k _ ho

theorem Sound.optimizer (h : e.Sound) {handle : Option Handle} {k : Handle}
    {state : Optimizer α} (hs : e.optimizer handle = .ok (k, state)) : state.Fits e.store :=
  h.objects k _ (object?_of_optimizer hs)

theorem Sound.readParameters (h : e.Sound) {handles : Option (List (Option Handle))}
    {length : Nat} {params : List NodeId} (hp : e.readParameters handles length = .ok params) :
    ∀ n ∈ params, n < e.store.nodes.size := by
  unfold Engine.readParameters at hp
  split at hp
  · cases hp
    simp
  · cases handles with
    | none => cases hp
    | some handles =>
      intro n hn
      obtain ⟨handle, -, ht⟩ := exists_of_mem_mapM hp hn
      exact h.tensor ht

/-- Only the graph and the objects count. -/
theorem Sound.congr (h : e.Sound) (hs : e'.store = e.store) (ho : e'.objects = e.objects) :
    e'.Sound := by
  refine ⟨hs ▸ h.graph, fun k o hk => ?_⟩
  rw [object?, ho] at hk
  rw [hs]
  exact h.objects k o hk

theorem Sound.of_hushed (h : e.Sound) (he : e'.hushed = e.hushed) : e'.Sound :=
  h.congr (show e'.hushed.store = e.hushed.store by rw [he])
    (show e'.hushed.objects = e.hushed.objects by rw [he])

/-- All objects still fit when the graph advances. -/
theorem Sound.advance (h : e.Sound) {s : Store α} (hA : e.store.Advanced s) :
    Sound { e with store := s } :=
  ⟨hA.healthy, fun k o ho => (h.objects k o ho).grown hA.grown⟩

theorem Sound.handOut (h : e.Sound) {o : Object α} (ho : o.Fits e.store) :
    (e.handOut o).2.Sound := by
  refine ⟨h.graph, fun k o' hk => ?_⟩
  rw [object?_handOut] at hk
  by_cases hn : k = e.objects.size
  · simp only [hn, if_true, Option.some.injEq] at hk
    exact hk ▸ ho
  · simp only [hn, if_false] at hk
    exact h.objects k o' hk

theorem Sound.handOutNodes : ∀ (nodes : List NodeId) {e : Engine α}, e.Sound →
    (∀ n ∈ nodes, n < e.store.nodes.size) → (e.handOutNodes nodes).2.Sound
  | [], _, h, _ => h
  | n :: rest, e, h, hn => by
    have ho := h.handOut (o := .tensor n) (hn n List.mem_cons_self)
    exact Sound.handOutNodes rest ho fun m hm => hn m (List.mem_cons_of_mem _ hm)

theorem Sound.release (h : e.Sound) (handle : Option Handle) : (e.release handle).Sound := by
  cases handle with
  | none => exact h
  | some k =>
    refine ⟨h.graph, fun j o hj => ?_⟩
    rw [Engine.release, object?_setIfInBounds] at hj
    split at hj
    · cases hj
    · exact h.objects j o hj

theorem Sound.setOptimizer (h : e.Sound) {k : Handle} {state : Optimizer α}
    (hf : state.Fits e.store) : (e.setOptimizer k state).Sound := by
  refine ⟨h.graph, fun j o hj => ?_⟩
  rw [Engine.setOptimizer, object?_setIfInBounds] at hj
  split at hj
  · cases hj
    exact hf
  · exact h.objects j o hj

/-! ## Calls that make an object -/

section Calls

variable [Scalar α] [Sampler α]

/-- Only normal samples are drawn. -/
theorem filledBuffer_stream {filling : Filling} {shape : List Nat} {stream : Stream}
    {made : Buffer α × Stream} (h : filledBuffer filling shape stream = .ok made)
    (hf : filling ≠ .normal) : made.2 = stream := by
  cases filling with
  | normal => exact absurd rfl hf
  | zeros | ones =>
    obtain ⟨b, -, h⟩ := Outcome.bind_eq_ok_iff.1 h
    cases h
    rfl

theorem sound_of_filledBuffer {filling : Filling} {shape : List Nat}
    (hw : Extent.Storable shape) {stream stream' : Stream} {v : Buffer α}
    (hv : filledBuffer filling shape stream = .ok (v, stream')) : v.Sound := by
  cases filling with
  | zeros =>
    obtain ⟨b, hb, e⟩ := Outcome.bind_eq_ok_iff.1 hv
    obtain ⟨rfl, -⟩ := Prod.mk.inj (Except.ok.inj e)
    exact Buffer.sound_of_full hw hb
  | ones =>
    obtain ⟨b, hb, e⟩ := Outcome.bind_eq_ok_iff.1 hv
    obtain ⟨rfl, -⟩ := Prod.mk.inj (Except.ok.inj e)
    exact Buffer.sound_of_full hw hb
  | normal => exact (Sampler.sound_of_fill hw hv).1

/-- A new layer has its parameters in the graph, with the layer's shapes. -/
theorem newLinear_spec {s s' : Store α} (h : s.Healthy) {stream stream' : Stream}
    {inputs outputs : Nat} {layer : Linear}
    (hl : s.newLinear stream inputs outputs = .ok (layer, s', stream')) :
    s.Advanced s' ∧ layer.Fits s' := by
  obtain ⟨h0, hm, w, b, between, hw, hb, rfl, rfl⟩ := Store.newLinear_inv hl
  obtain ⟨hi, ho⟩ := not_or.1 h0
  have hin : inputs < Extent.wordLimit :=
    Nat.lt_of_le_of_lt (Nat.le_mul_of_pos_right _ (Nat.pos_of_ne_zero ho)) hm
  have hout : outputs < Extent.wordLimit :=
    Nat.lt_of_le_of_lt (Nat.le_mul_of_pos_left _ (Nat.pos_of_ne_zero hi)) hm
  obtain ⟨hws, hwsh⟩ := Sampler.sound_of_fill (Extent.storable_two hout hin) hw
  obtain ⟨hbs, hbsh⟩ := Sampler.sound_of_fill (Extent.storable_one hout) hb
  have hA := h.parameter hws
  have hA' := hA.healthy.parameter hbs
  have hlt : s.nodes.size < (s.parameter w).2.nodes.size := Store.lt_size_push ..
  refine ⟨hA.trans hA', ⟨Nat.lt_of_lt_of_le hlt hA'.grown.size_le, ?_⟩, Store.lt_size_push .., ?_⟩
  · change ((s.parameter w).2.parameter b).2.shape s.nodes.size = [outputs, inputs]
    rw [hA'.grown.shape_eq _ hlt, ← hwsh]
    exact Store.shape_push_self
  · change ((s.parameter w).2.parameter b).2.shape (s.parameter w).2.nodes.size = [outputs]
    rw [← hbsh]
    exact Store.shape_push_self

/-- What is made is an object of the graph that the call advances to. -/
theorem build_spec (h : e.Sound) {c : Creation α Handle}
    (hc : (Call.create c true).Representable) {new : Object α × Store α × Stream}
    (hb : e.build c = .ok new) : e.store.Advanced new.2.1 ∧ new.1.Fits new.2.1 := by
  cases built hb with
  | filled hs hv =>
    have hv := sound_of_filledBuffer (storable_of_readShape hc hs) hv
    exact ⟨h.graph.leaf hv, Store.lt_size_push ..⟩
  | @fromData _ _ _ _ _ values _ hs hd hv =>
    have hsize : values.toArray.size < Extent.allocationLimit := by
      simpa using length_readData hc.2 hd
    have hv := (Buffer.sound_of_fill (storable_of_readShape hc.1 hs) hsize hv).1
    exact ⟨h.graph.leaf hv, Store.lt_size_push ..⟩
  | @binary op _ _ _ _ _ hn hm hr =>
    rw [Store.binary_eq_run] at hr
    exact h.graph.run (Store.reads_binary op (h.tensor hn) (h.tensor hm)) hr
  | @unary op _ _ _ hn hr =>
    rw [Store.unary_eq_run] at hr
    exact h.graph.run (Store.reads_unary op (h.tensor hn)) hr
  | newLinear hl => exact newLinear_spec h.graph hl
  | applyLinear hl hn hr =>
    rw [Store.applyLinear_eq_run] at hr
    exact h.graph.run (Store.reads_linear (h.layer hl) (h.tensor hn)) hr
  | adam hp hs => exact ⟨h.graph.refl, Adam.fits_new h.graph (h.readParameters hp) hs⟩
  | sgd hp hs => exact ⟨h.graph.refl, Sgd.fits_new (h.readParameters hp) hs⟩

theorem Sound.made (h : e.Sound) {c : Creation α Handle}
    (hc : (Call.create c true).Representable) {new : Object α × Store α × Stream}
    (hb : e.build c = .ok new) : (e.made new).Sound := by
  obtain ⟨hA, hf⟩ := build_spec h hc hb
  have hS : Sound { e with store := new.2.1, stream := new.2.2 } := (h.advance hA).congr rfl rfl
  exact hS.handOut hf

/-! ## All calls -/

omit [Sampler α] in
/-- A command keeps the invariant, however far it gets. -/
theorem Sound.run (h : e.Sound) (c : Command Handle) : (e.run c).2.1.Sound := by
  have hr := e.ran c
  generalize e.run c = out at hr ⊢
  cases hr with
  | refused _ => exact h
  | setTracked _ hs => exact h.advance (h.graph.setTracked hs)
  | @backward _ root _ _ _ hb =>
    have hA := h.graph.backward root
    rw [hb] at hA
    exact h.advance hA
  | step ho hs =>
    obtain ⟨result, state', s', hs', hf, hA, -⟩ := Optimizer.step_spec h.graph (h.optimizer ho)
    cases hs.symm.trans hs'
    exact (h.advance hA).setOptimizer hf
  | clearGradients ho => exact h.advance (Optimizer.clearGradients_spec h.graph _)

/-- Every call keeps the invariant. -/
theorem Sound.answer (h : e.Sound) {c : Call α} (hc : c.Representable) :
    (e.answer c).2.1.Sound := by
  obtain ⟨e', he', heq⟩ := e.effect c
  refine Sound.of_hushed ?_ heq
  cases he' with
  | idle => exact h
  | seed value => exact h.congr rfl rfl
  | release kind handle => exact h.release handle
  | create hb => exact h.made hc hb
  | command body => exact h.run body
  | @parameters _ _ _ l hl =>
    have hf := h.layer hl
    refine h.handOutNodes l.parameters fun n hn => ?_
    simp only [Linear.parameters, List.mem_cons, List.not_mem_nil, or_false] at hn
    rcases hn with rfl | rfl
    · exact hf.weight.1
    · exact hf.bias.1
  | @gradient _ n g _ hg => exact h.handOut (o := .tensor g) (h.graph.sound.held n g hg).1

/-- The library after several calls. -/
def after (calls : List (Call α)) (e : Engine α) : Engine α :=
  calls.foldl (fun e c => (e.answer c).2.1) e

/-- What each call keeps is kept by several calls. -/
theorem invariant_after {I : Engine α → Prop}
    (hI : ∀ {e : Engine α} {c : Call α}, c.Representable → I e → I (e.answer c).2.1) (h : I e)
    {calls : List (Call α)} (hc : ∀ c ∈ calls, c.Representable) : I (e.after calls) := by
  induction calls generalizing e with
  | nil => exact h
  | cons c rest ih =>
    obtain ⟨hc, hrest⟩ := List.forall_mem_cons.1 hc
    exact ih (hI hc h) hrest

theorem Sound.after (hS : e.Sound) {calls : List (Call α)}
    (hc : ∀ c ∈ calls, c.Representable) : (e.after calls).Sound :=
  invariant_after (fun hc hS => hS.answer hc) hS hc

/-! ## Reachable states -/

/-- The states that a library gets into, from when it is loaded, by any calls in any order. -/
inductive Reachable : Engine α → Prop where
  | start (seed : UInt64) : Reachable (.ofSeed seed)
  | call {e : Engine α} {c : Call α} : Reachable e → c.Representable → Reachable (e.answer c).2.1

omit [Scalar α] [Sampler α] in
theorem sound_ofSeed (seed : UInt64) : (ofSeed seed : Engine α).Sound := by
  refine ⟨Store.healthy_empty, fun k o hk => ?_⟩
  simp [object?, ofSeed] at hk

theorem Reachable.sound (h : Reachable e) : e.Sound := by
  induction h with
  | start seed => exact sound_ofSeed seed
  | call _ hc ih => exact ih.answer hc

theorem Reachable.after (he : e.Reachable) {calls : List (Call α)}
    (hc : ∀ c ∈ calls, c.Representable) : (e.after calls).Reachable :=
  invariant_after (fun hc he => he.call hc) he hc

/-- What can be relied on: the graph and the optimizers are consistent, and calls that depend on
this succeed. -/
structure Dependable (e : Engine α) : Prop where
  /-- Every buffer of the graph has as many elements as its shape asks for. -/
  full : ∀ n, (e.store.value n).WellShaped
  /-- Recorded operations are tracked, hold no gradients, come after their inputs, and have kept
  what fits the shapes. -/
  recorded : ∀ n made, e.store.origin n = some made →
    e.store.tracked n = true ∧ e.store.gradient n = none ∧ (∀ m ∈ made.inputs, m < n) ∧
      made.rule.Fits (made.inputs.map e.store.shape) (e.store.shape n)
  /-- Gradients are leaves of their nodes' shapes. -/
  gradients : ∀ n g, e.store.gradient n = some g →
    e.store.isLeaf g = true ∧ e.store.shape g = e.store.shape n
  /-- What optimizers keep has the shapes of their parameters. -/
  optimizers : ∀ k state, e.object? k = some (.optimizer state) → state.Fits e.store
  /-- Differentiation from a single tracked element succeeds, unless the strides of a shape behind
  it leave the word. -/
  backward : ∀ handle n, e.tensor handle = .ok n → (e.store.value n).size = 1 →
    e.store.tracked n = true → (e.answer (.command (.backward handle))).1 = .success ∨
      (e.run (.backward handle)).1 = .error overflow ∧ e.store.Unsteady n
  /-- Optimizers step as long as they can count their steps. -/
  step : ∀ handle k state, e.optimizer handle = .ok (k, state) → state.CanStep →
    (e.answer (.command (.step handle))).1 = .success
  clearGradients : ∀ handle k state, e.optimizer handle = .ok (k, state) →
    (e.answer (.command (.clearGradients handle))).1 = .success

omit [Scalar α] [Sampler α] in
theorem status_settle {e : Engine α} {result : Outcome Unit} (h : result = .ok ()) :
    statusOf (settle result e).1 = .success := by
  rw [h]
  rfl

/-- In every reachable state the graph and the optimizers are consistent, and differentiation and
steps succeed. -/
theorem Reachable.dependable (h : Reachable e) : e.Dependable := by
  have hS := h.sound
  constructor
  · exact fun n => (hS.graph.sound.values n).full
  · intro n made hn
    refine ⟨hS.graph.sound.recorded n made hn, hS.graph.bare n (by simp [hn]), ?_,
      hS.graph.sound.lawful n made hn⟩
    intro m hm
    exact hS.graph.sound.older n m (by rwa [Store.inputs_of_origin hn])
  · intro n g hg
    obtain ⟨-, hl, hs⟩ := hS.graph.sound.held n g hg
    exact ⟨Store.isLeaf_iff.2 hl, hs⟩
  · intro k state hk
    exact hS.objects k _ hk
  · intro handle n hn h1 ht
    have hrun : (e.run (.backward handle)).1 = (e.store.backward n).1 := by
      simp only [Engine.run, hn]
    rcases hS.graph.backward_result h1 ht with hr | ⟨hr, hbad⟩
    · exact Or.inl (status_settle (hrun.trans hr))
    · exact Or.inr ⟨hrun.trans hr, hbad⟩
  · intro handle k state ho hc
    obtain ⟨result, state', s', hs, -, -, hr⟩ := Optimizer.step_spec hS.graph (hS.optimizer ho)
    have hrun : (e.run (.step handle)).1 = .ok () := by
      simp only [Engine.run, ho, hs]
      exact hr hc
    exact status_settle hrun
  · intro handle k state ho
    have hrun : (e.run (.clearGradients handle)).1 = .ok () := by
      simp only [Engine.run, ho]
    exact status_settle hrun

end Calls

/-- The calls of a training, up to its first step: a tracked number is multiplied with three ones,
the products are summed up, and Adam takes a step for the number, of which there is a gradient. -/
def training : List (Call Float) := [
  .create (.fromData (some [2]) 1 (some [1]) 1) true, .command (.setTracked (some 0) true),
  .create (.filled .ones (some [3]) 1) true, .create (.binary .mul (some 0) (some 1)) true,
  .create (.unary .sum (some 2)) true,
  .create (.adam (some [some 0]) 1 ⟨0.1, 0.9, 0.999, 1e-8, 0⟩) true,
  .command (.backward (some 0)), .command (.step (some 4))]

theorem reachable_training : ((ofSeed 7).after training).Reachable :=
  (Reachable.start 7).after (by decide)

/-- In a training, differentiation from the sum, the next step and clearing succeed. -/
theorem training_dependable :
    let e : Engine Float := (ofSeed 7).after training
    e.Reachable ∧ e.Dependable ∧ (e.store.origin 3).isSome = true ∧
      (e.store.gradient 0).isSome = true ∧
      (∃ opt, e.object? 4 = some (.optimizer opt) ∧ opt.parameters = [0] ∧ opt.CanStep) ∧
      (e.answer (.command (.backward (some 3)))).1 = .success ∧
      (e.answer (.command (.step (some 4)))).1 = .success ∧
      (e.answer (.command (.clearGradients (some 4)))).1 = .success := by
  intro e
  have h : e.Reachable := reachable_training
  have hd := h.dependable
  have hfound : (e.optimizer (some 4)).toOption.map (fun found =>
      (found.2.parameters, decide found.2.CanStep)) = some ([0], true) := by decide +kernel
  cases ho : e.optimizer (some 4) with
  | error cause =>
    rw [ho] at hfound
    cases hfound
  | ok found =>
    rw [ho] at hfound
    obtain ⟨k, opt⟩ := found
    obtain rfl : k = 4 := Option.some.inj (optimizer_eq_ok ho).symm
    obtain ⟨hparams, hcan⟩ := Prod.mk.inj (Option.some.inj hfound)
    have hcan : opt.CanStep := of_decide_eq_true hcan
    have hsteady : ¬e.store.Unsteady 3 := Store.not_unsteady (by decide +kernel) 3
    refine ⟨h, hd, by decide +kernel, by decide +kernel,
      ⟨opt, object?_of_optimizer ho, hparams, hcan⟩, ?_, hd.step _ 4 opt ho hcan,
      hd.clearGradients _ 4 opt ho⟩
    exact (hd.backward (some 3) 3 (by decide +kernel) (by decide +kernel)
      (by decide +kernel)).resolve_right fun hr => hsteady hr.2

end Engine

end DiffTensor
