import DiffTensor.Proofs.SessionFrame

/-!
# What wrappers keep of tensors

A wrapper keeps the shape of its tensor, and whether it is tracked, and does not ask again
(`Metadata`). The shape is what the library reports at any time, since shapes do not change. Whether
the tensor is tracked is as it was when the wrapper was told so for the last time; it may be
otherwise now, but only if the tracking has been changed through another wrapper of the same node.
-/

namespace DiffTensor

namespace HostSession

open Host (Tensor)

variable {α V : Type}

/-- The slot of the tensor that a step makes by itself. -/
def Step.result? : Step α → Option String
  | .filled _ _ _ out | .ofValues _ _ _ out | .binary _ _ _ out | .unary _ _ out
  | .forward _ _ out => some out
  | _ => none

/-- The nodes that a step makes a tensor from; none if the tensor is new. -/
def Step.inputs (e : Engine α) (s : State α V) : Step α → Outcome (List NodeId)
  | .binary _ a b _ => do
    return [← e.tensor (s.heldIn .tensor a), ← e.tensor (s.heldIn .tensor b)]
  | .unary _ a _ => do return [← e.tensor (s.heldIn .tensor a)]
  | .forward layer a _ => do
    let layer ← e.layer (s.heldIn .layer layer)
    return [← e.tensor (s.heldIn .tensor a), layer.weight, layer.bias]
  | _ => .ok []

/-! ## Results -/

section

variable [Scalar α] [Sampler α] {w : State α (Engine α)} {g g' : GraphSession.State α}
  {step : Step α} {b : GraphSession.Answer α} {out : String}

/-- A step that has succeeded has found what is in its slots. -/
theorem Direct.Succeeded.filled (hb : Direct.Succeeded b) (hd : Direct.answer step g = (b, g'))
    (hk : ∀ kind name, step ≠ .destroy kind name) (kind : ResourceKind) {name : String}
    (hm : ⟨kind, name⟩ ∈ step.operands) : ∃ i, (g.items kind).find? name = some i := by
  cases hi : (g.items kind).find? name with
  | some i => exact ⟨i, rfl⟩
  | none =>
    rw [Direct.answer_emptySlot hk ⟨_, hm, hi⟩] at hd
    cases hd
    exact absurd rfl hb.2

/-- A node that a step makes is in its slot afterwards. -/
theorem Direct.Succeeded.built {γ : Type} {outcome : Outcome γ} {f : γ → NodeId × Store α × Stream}
    (hb : Direct.Succeeded b) (hd : Direct.answer step g = (b, g'))
    (h : Direct.Builds step out g (f <$> outcome)) : ∃ made, outcome = .ok made ∧
      g'.nodes.find? out = some (f made).1 ∧ g'.store = (f made).2.1 := by
  unfold Direct.Builds at h
  rw [hd] at h
  cases outcome with
  | error cause =>
    cases h
    exact absurd rfl (hb.1 cause)
  | ok made =>
    obtain ⟨a, h, -⟩ := h
    cases h
    exact ⟨made, rfl, Slots.find?_insert_self .., rfl⟩

/-- A tensor that a step has made is tracked exactly if one was that it was made from. -/
theorem Stands.tracked_made (hw : Stands w g) (hm : step.result? = some out)
    (hd : Direct.answer step g = (b, g')) (hb : Direct.Succeeded b) :
    ∃ n inputs, g'.nodes.find? out = some n ∧
      step.inputs w.env.world w = .ok inputs ∧
      g'.store.tracked n = inputs.any w.env.world.store.tracked := by
  rw [← hw.store]
  cases step with
  | filled library filling dims out =>
    cases hm
    obtain ⟨made, -, hn, hs⟩ := Direct.Succeeded.built hb hd Direct.builds_filled
    refine ⟨_, [], hn, rfl, ?_⟩
    rw [hs, List.any_nil]
    exact congrArg Node.tracked Store.node_push_self
  | ofValues library values dims out =>
    cases hm
    obtain ⟨made, -, hn, hs⟩ := Direct.Succeeded.built hb hd Direct.builds_ofValues
    refine ⟨_, [], hn, rfl, ?_⟩
    rw [hs, List.any_nil]
    exact congrArg Node.tracked Store.node_push_self
  | binary op x y out =>
    cases hm
    obtain ⟨n, hx⟩ := Direct.Succeeded.filled hb hd nofun .tensor List.mem_cons_self
    obtain ⟨m, hy⟩ := Direct.Succeeded.filled hb hd nofun .tensor
      (List.mem_cons_of_mem _ List.mem_cons_self)
    obtain ⟨made, hmade, hn, hs⟩ := Direct.Succeeded.built hb hd (Direct.builds_binary hx hy)
    obtain ⟨v, -, hmade⟩ := Outcome.bind_eq_ok_iff.1 hmade
    cases hmade
    refine ⟨_, [n, m], hn, ?_, hs ▸ Store.tracked_record ..⟩
    rw [Step.inputs, hw.tensor_of_node hx, hw.tensor_of_node hy]
    rfl
  | unary op x out =>
    cases hm
    obtain ⟨n, hx⟩ := Direct.Succeeded.filled hb hd nofun .tensor List.mem_cons_self
    obtain ⟨made, hmade, hn, hs⟩ := Direct.Succeeded.built hb hd (Direct.builds_unary hx)
    obtain ⟨v, -, hmade⟩ := Outcome.bind_eq_ok_iff.1 hmade
    cases hmade
    refine ⟨_, [n], hn, ?_, hs ▸ Store.tracked_record ..⟩
    rw [Step.inputs, hw.tensor_of_node hx]
    rfl
  | forward layer x out =>
    cases hm
    obtain ⟨l, hl⟩ := Direct.Succeeded.filled hb hd nofun .layer List.mem_cons_self
    obtain ⟨n, hx⟩ := Direct.Succeeded.filled hb hd nofun .tensor
      (List.mem_cons_of_mem _ List.mem_cons_self)
    obtain ⟨made, hmade, hn, hs⟩ := Direct.Succeeded.built hb hd (Direct.builds_forward hl hx)
    obtain ⟨v, -, hmade⟩ := Outcome.bind_eq_ok_iff.1 hmade
    cases hmade
    obtain ⟨h, hh, ho⟩ := hw.held_of_item .layer hl
    refine ⟨_, [n, l.weight, l.bias], hn, ?_, hs ▸ Store.tracked_record ..⟩
    rw [Step.inputs, hh, Engine.layer_of_object? ho, hw.tensor_of_node hx]
    rfl
  | _ => cases hm

end

/-! ## Steps of a session -/

variable [Scalar α] (setting : Setting α V) (showData : Bool) (engine : V → Engine α)

/-- None of the steps tells the tensor in a slot whether it is tracked. -/
def Setting.Untold (name : String) : List (Step α) → State α V → Prop
  | [], _ => True
  | step :: rest, s => name ∉ step.tells (setting.next showData step s).1 ∧
    Setting.Untold name rest (setting.next showData step s).2

/-- One of the steps changes the tracking of a node, through a wrapper in another slot. -/
def Setting.TrackedElsewhere (name : String) (n : NodeId) (steps : List (Step α)) (s : State α V) :
    Prop :=
  ∃ before other flag rest, steps = before ++ .setTracked other flag :: rest ∧ other ≠ name ∧
    let s' := setting.after showData before s
    (engine s'.env.world).tensor (s'.heldIn .tensor other) = .ok n ∧
      (setting.next showData (.setTracked other flag) s').1.Succeeded

variable {setting} {showData} {engine} [Sampler α] {calm asked : V → Prop}
  {w : State α (Engine α)} {g : GraphSession.State α} {s : State α V} {step : Step α}
  {name : String}

omit [Scalar α] [Sampler α] in
theorem tells_setTracked {flag : Bool} {a : Answer α} (ha : a.Succeeded) :
    (Step.setTracked name flag : Step α).tells a = [name] := by
  cases a with
  | failed cause => exact absurd rfl (ha.1 cause)
  | emptySlot => exact absurd rfl ha.2
  | _ => rfl

omit [Scalar α] [Sampler α] in
theorem tells_of_result {out : String} (hr : step.result? = some out) {a : Answer α}
    (ha : a.Succeeded) : step.tells a = [out] := by
  cases a with
  | failed cause => exact absurd rfl (ha.1 cause)
  | emptySlot => exact absurd rfl ha.2
  | gradient view => cases view <;> cases step <;> cases hr <;> rfl
  | _ => cases step <;> cases hr <;> rfl

/-- Each step has told some tensors whether they are tracked, and has left the others as they
were. -/
theorem told_answer (showData : Bool) (hS : Serving setting.libraries engine calm asked)
    (hs : In engine calm w s) (hw : Stands w g) (hstep : step.Ordinary) :
    ∃ w', In engine calm w' (setting.answer showData step s).2 ∧
      Told step (setting.answer showData step s).1 w w' := by
  have hends : Ends engine calm asked w g step s (setting.answer showData step s).1
      (setting.answer showData step s).2 := answer_of_meets (ends_run hS hs hw step hstep)
  generalize (setting.answer showData step s).1 = a,
    (setting.answer showData step s).2 = s' at hends ⊢
  cases hends with
  | refused cause => exact ⟨w, hs, .of_slots_eq (step.tells_failed _) rfl⟩
  | idle still reason direct stands =>
    refine ⟨w, hs, .of_slots_eq ?_ rfl⟩
    rcases reason with rfl | hl
    · exact step.tells_emptySlot
    · exact Step.tells_of_looks hl a
  | failed seen direct stands broken =>
    exact ⟨_, seen.mono fun _ => hS.still, .withEngine (step.tells_failed _) _⟩
  | done succeeded seen direct direct_succeeded stands persists told => exact ⟨_, seen, told⟩

/-! ## Sessions -/

/-- Whether a node is tracked stays as it is, unless it is changed through another wrapper. -/
theorem tracked_after (showData : Bool) (hS : Serving setting.libraries engine calm asked)
    {n : NodeId} : ∀ {steps : List (Step α)} {w : State α (Engine α)} {g : GraphSession.State α}
    {s : State α V}, In engine calm w s → Stands w g → (∀ step ∈ steps, step.Ordinary) →
    setting.Untold showData name steps s → n < w.env.world.store.nodes.size →
    (engine (setting.after showData steps s).env.world).store.tracked n =
        w.env.world.store.tracked n ∨
      setting.TrackedElsewhere showData engine name n steps s
  | [], w, _, s, hs, _, _, _, _ => .inl (congrFun (congrArg Store.tracked hs.store_eq) n)
  | step :: rest, w, g, s, hs, hw, hsteps, ⟨hu, huntold⟩, hn => by
    obtain ⟨hstep, hrest⟩ := List.forall_mem_cons.1 hsteps
    have hs' := hs.withLog []
    obtain ⟨w', g', ha⟩ := abides_answer showData hS hs' hw hstep
    by_cases hsame : w'.env.world.store.tracked n = w.env.world.store.tracked n
    · rcases tracked_after showData hS ha.seen ha.stands hrest huntold
        (Nat.lt_of_lt_of_le hn ha.frame.size_le) with heq | ⟨before, other, flag, late, rfl, helse⟩
      · exact .inl (heq.trans hsame)
      · exact .inr ⟨step :: before, other, flag, late, rfl, helse⟩
    · obtain ⟨hflag, hok⟩ := ha.flagged n hn hsame
      rw [hs'.scope_eq] at hflag
      cases step with
      | setTracked other flag =>
        refine .inr ⟨[], other, flag, rest, rfl, ?_, hflag, hok⟩
        rintro rfl
        rw [tells_setTracked (show (setting.next showData _ s).1.Succeeded from hok)] at hu
        exact hu List.mem_cons_self
      | _ => exact hflag.elim

/-- The tensor in a slot was told whether it is tracked right before `s'`, when it stood for the
node `n`, and not since then: the `rest` of the steps lead on to `s`. -/
structure SinceTold (setting : Setting α V) (showData : Bool) (engine : V → Engine α)
    (s' s : State α V) (name : String) (t : Tensor) (rest : List (Step α)) (n : NodeId) :
    Prop where
  untold : setting.Untold showData name rest s'
  /-- It is the same tensor still, unless its handle has been given back. -/
  same : ∃ u, s'.tensors.find? name = some u ∧ Remains u t
  node : (engine s'.env.world).tensor (s'.heldIn .tensor name) = .ok n
  agreed : t.tracked = (engine s'.env.world).store.tracked n
  /-- It stands for the node still, unless its handle has been given back. -/
  now : ∀ h, t.owned.held = some h → (engine s.env.world).tensor (some h) = .ok n
  stale : (engine s.env.world).store.tracked n ≠ t.tracked →
    setting.TrackedElsewhere showData engine name n rest s'

/-- One of the steps has told the tensor in a slot for the last time whether it is tracked. -/
def LastTold (setting : Setting α V) (showData : Bool) (engine : V → Engine α) (start : State α V)
    (steps : List (Step α)) (s : State α V) (name : String) (t : Tensor) : Prop :=
  ∃ before step rest n, steps = before ++ step :: rest ∧
    let next := setting.next showData step (setting.after showData before start)
    name ∈ step.tells next.1 ∧ SinceTold setting showData engine next.2 s name t rest n

/-- A tensor in a slot has been told last by one of the steps, or it was there before them. -/
theorem told_after (showData : Bool) (hS : Serving setting.libraries engine calm asked)
    {t : Tensor} : ∀ {steps : List (Step α)} {w : State α (Engine α)} {g : GraphSession.State α}
    {s : State α V}, In engine calm w s → Stands w g → (∀ step ∈ steps, step.Ordinary) →
    (setting.after showData steps s).tensors.find? name = some t →
    (∃ u, s.tensors.find? name = some u ∧ Remains u t ∧ setting.Untold showData name steps s ∧
      ∀ h n, t.owned.held = some h → w.env.world.object? h = some (.tensor n) →
        (engine (setting.after showData steps s).env.world).tensor (some h) = .ok n) ∨
      LastTold setting showData engine s steps (setting.after showData steps s) name t
  | [], w, _, s, hs, _, _, ht => .inl ⟨t, ht, .refl t, trivial, fun h _ _ ho =>
      Engine.tensor_of_object? ((hs.object?_eq h).trans ho)⟩
  | step :: rest, w, g, s, hs, hw, hsteps, ht => by
    obtain ⟨hstep, hrest⟩ := List.forall_mem_cons.1 hsteps
    have hs' := hs.withLog []
    obtain ⟨w', g', ha⟩ := abides_answer showData hS hs' hw hstep
    obtain ⟨w'', hs'', htold⟩ := told_answer showData hS hs' hw hstep
    obtain rfl := ha.seen.unique hs''
    rcases told_after showData hS ha.seen ha.stands hrest ht with
      ⟨u, hu, hr, huntold, hnow⟩ | ⟨before, last, late, n, rfl, hlast⟩
    · have hu' : (w'.slots .tensor).find? name = some u := ha.seen.find?_slot .tensor hu
      by_cases hm : name ∈ step.tells (setting.next showData step s).1
      · obtain ⟨v, hv, h, n, hh, ho, hf⟩ := htold.told name hm
        obtain rfl : u = v := Option.some.inj (hu'.symm.trans hv)
        have hlt : n < w'.env.world.store.nodes.size := ha.stands.sound.objects h _ ho
        have hheld : (setting.next showData step s).2.heldIn .tensor name = some h := by
          rw [State.heldIn, show ((setting.next showData step s).2.slots .tensor).find? name =
            some u from hu]
          exact hh
        have htracked : t.tracked = w'.env.world.store.tracked n := hr.tracked.trans hf
        refine .inr ⟨[], step, rest, n, rfl, hm, huntold, ⟨u, hu, hr⟩, ?_, ?_, fun k hk => ?_,
          fun hne => ?_⟩
        · rw [Setting.after, hheld]
          exact Engine.tensor_of_object? ((ha.seen.object?_eq h).trans ho)
        · exact htracked.trans (congrFun (congrArg Store.tracked ha.seen.store_eq) n).symm
        · obtain rfl : k = h := Option.some.inj ((hr.held hk).symm.trans hh)
          exact hnow k n hk ho
        · refine (tracked_after showData hS ha.seen ha.stands hrest huntold hlt).resolve_left ?_
          rw [← htracked]
          exact hne
      · obtain ⟨v, hv, hvu⟩ := htold.kept name hm u hu'
        rw [← hs'.slots_eq] at hv
        refine .inl ⟨v, hv, hvu.trans hr, ⟨hm, huntold⟩, fun h n hh ho => ?_⟩
        obtain ⟨m, -, ho', -⟩ := ha.stands.live hu' (hr.held hh)
        obtain rfl : n = m := ha.persists.tensor_eq ho ho'
        exact hnow h n hh ho'
    · exact .inr ⟨step :: before, last, late, n, rfl, hlast⟩

/-! ## What libraries report -/

/-- What the library of a live tensor reports of it, in the state `s`, is what the wrapper in the
slot tells: its shape, and the number of its elements. -/
structure Reported (setting : Setting α V) (showData : Bool) (engine : V → Engine α)
    (s : State α V) (name : String) (t : Tensor) (h : Handle) : Prop where
  rank : ((setting.libraries t.library).answer (.query (.rank (some h))) s.env.world).1 = t.rank
  shape : ((setting.libraries t.library).answer (.shape (some h) true) s.env.world).1 =
    ⟨.success, t.shape⟩
  size : ((setting.libraries t.library).answer (.query (.size (some h))) s.env.world).1 = t.size
  values : ∃ values, (setting.answer showData (.values name) s).1 = .values values ∧
    values.length = t.size
  /-- Whether it is tracked is reported as it is kept with its node. -/
  tracked : ∃ n, (engine s.env.world).tensor (some h) = .ok n ∧
    ((setting.libraries t.library).answer (.query (.tracked (some h))) s.env.world).1 =
      if (engine s.env.world).store.tracked n then 1 else 0

theorem Stands.reported (hS : Serving setting.libraries engine calm asked)
    (hs : In engine calm w s) (hw : Stands w g) {t : Tensor} {h : Handle}
    (ht : s.tensors.find? name = some t) (hh : t.owned.held = some h) :
    Reported setting showData engine s name t h := by
  obtain ⟨n, hn, ho, hshow⟩ := hw.live (hs.find?_slot .tensor ht) hh
  have hshape : t.shape = (w.env.world.store.shape n).map Int.ofNat := hshow
  have hb := hw.sound.graph.sound.values n
  have hsize : t.size = (w.env.world.store.value n).size := by
    rw [Tensor.size, Dims.size_eq_saturated, hshape, Dims.toNat_ofNat]
    exact hb.proper.saturated.trans hb.full.symm
  have htensor : (engine s.env.world).tensor (some h) = .ok n :=
    Engine.tensor_of_object? ((hs.object?_eq h).trans ho)
  have hquery : ∀ (q : Query Handle) (k : Nat), (engine s.env.world).look q = .ok k →
      ((setting.libraries t.library).answer (.query q) s.env.world).1 = k := by
    intro q k hq
    rw [hS.reply t.library _ hs.1, ((engine s.env.world).answer_query q).1, hq]
    rfl
  refine ⟨hquery _ _ ?_, ?_, hquery _ _ ?_, ⟨_, answer_values showData hS hs hw ht hh hn, ?_⟩, n,
    htensor, hquery _ _ ?_⟩
  · rw [Engine.look, htensor, hs.store_eq, Tensor.rank, hshape, List.length_map]
    rfl
  · have hdims : (engine s.env.world).readDims (some h) true = .ok t.shape := by
      rw [Engine.readDims, htensor, hs.store_eq, hshape]
      cases hd : w.env.world.store.shape n <;> simp [hd]
    rw [hS.reply t.library _ hs.1, Engine.answer, hdims]
    rfl
  · rw [Engine.look, htensor, hs.store_eq, hsize]
    rfl
  · rw [hw.store, Array.length_toList, hsize]
    rfl
  · rw [Engine.look, htensor]
    rfl

/-! ## The law -/

/-- What the wrappers of a session keep of their tensors, after `steps` from the start. -/
structure Metadata (setting : Setting α V) (showData : Bool) (engine : V → Engine α)
    (start : State α V) (steps : List (Step α)) (s : State α V) : Prop where
  /-- Shapes are what the library reports now. -/
  reported : ∀ {name} {t : Tensor} {h}, s.tensors.find? name = some t → t.owned.held = some h →
    Reported setting showData engine s name t h
  /-- Whether a tensor is tracked is kept as it was when the wrapper was told for the last time. -/
  told : ∀ {name} {t : Tensor}, s.tensors.find? name = some t →
    LastTold setting showData engine start steps s name t
  /-- The result of an operation is tracked exactly if one of its inputs is at that time. -/
  made : ∀ {step : Step α} {out}, step.Ordinary → step.result? = some out →
    (setting.next showData step s).1.Succeeded → ∃ t inputs,
      (setting.next showData step s).2.tensors.find? out = some t ∧
      step.inputs (engine s.env.world) s = .ok inputs ∧
      t.tracked = inputs.any (engine s.env.world).store.tracked

/-- Where wrappers and slots stand side by side, a step that succeeds keeps with its result whether
one of the inputs was tracked. -/
theorem Stands.made_answer (hS : Serving setting.libraries engine calm asked)
    (hs : In engine calm w s) (hw : Stands w g) (hstep : step.Ordinary) {out : String}
    (hr : step.result? = some out) (hok : (setting.next showData step s).1.Succeeded) :
    ∃ t inputs, (setting.next showData step s).2.tensors.find? out = some t ∧
      step.inputs (engine s.env.world) s = .ok inputs ∧
      t.tracked = inputs.any (engine s.env.world).store.tracked := by
  have hs' := hs.withLog []
  have hends : Ends engine calm asked w g step { s with env.log := [] }
      (setting.next showData step s).1 (setting.next showData step s).2 :=
    answer_of_meets (ends_run hS hs' hw step hstep)
  have hinputs : step.inputs w.env.world w = step.inputs (engine s.env.world) s := by
    obtain ⟨-, rfl⟩ := hs
    cases step <;> rfl
  generalize (setting.next showData step s).1 = a,
    (setting.next showData step s).2 = s' at hends hok ⊢
  cases hends with
  | refused cause => exact absurd rfl (hok.1 _)
  | failed seen direct stands broken => exact absurd rfl (hok.1 _)
  | idle still reason direct stands =>
    rcases reason with rfl | hl
    · exact absurd rfl hok.2
    · cases step <;> first | exact hl.elim | cases hr
  | @done _ _ w' b g' succeeded seen direct direct_succeeded stands persists told =>
    obtain ⟨n, inputs, hn, hi, htracked⟩ := hw.tracked_made hr direct direct_succeeded
    have hm : out ∈ step.tells a := by
      rw [tells_of_result hr hok]
      exact List.mem_cons_self
    obtain ⟨t, ht, h, m, hh, ho, hf⟩ := told.told out hm
    obtain ⟨k, hk, hobj, -⟩ := stands.live ht hh
    obtain rfl : k = n := Option.some.inj (hk.symm.trans hn)
    obtain rfl : k = m := by
      rw [ho] at hobj
      cases hobj
      rfl
    refine ⟨t, inputs, ?_, hinputs ▸ hi, ?_⟩
    · rw [← seen.slots_eq] at ht
      exact ht
    · rw [hf, ← stands.store, htracked, hs.store_eq]

/-- In every state of every session with the reference library wrappers keep of their tensors what
is so, or was so when they were told. -/
theorem metadata_after (seed : UInt64) (showData : Bool) {steps : List (Step α)}
    (hsteps : ∀ step ∈ steps, step.Ordinary) :
    let setting : Setting α (Rehearsal (Engine α)) := .rehearsing .reference
    let start : State α (Rehearsal (Engine α)) := .new { inner := .ofSeed seed }
    Metadata setting showData Rehearsal.inner start steps (setting.after showData steps start) := by
  intro setting start
  obtain ⟨hin, hstands⟩ := stands_start (α := α) seed
  obtain ⟨w, hs, hw⟩ := stands_after showData serving_rehearsing hin hstands hsteps
  refine ⟨fun ht hh => hw.reported serving_rehearsing hs ht hh, fun ht => ?_,
    fun hstep hr hok => hw.made_answer serving_rehearsing hs hstep hr hok⟩
  refine (told_after showData serving_rehearsing hin hstands hsteps ht).resolve_left ?_
  rintro ⟨u, hu, -⟩
  cases hu

/-- Two wrappers of the weight of a layer: the tracking is changed through one of them, and the
other one is told nothing. -/
theorem metadata_after_aliasing :
    let steps : List (Step Float) := [.linear 0 2 1 "l", .parameters "l" ["v", "b"],
      .parameters "l" ["w"], .setTracked "v" false, .filled 0 .ones [3, 2] "x",
      .forward "l" "x" "y", .unary .sum "y" "loss", .backward "loss", .destroy .tensor "w"]
    let setting : Setting Float (Rehearsal (Engine Float)) := .rehearsing .reference
    let start : State Float (Rehearsal (Engine Float)) := .new { inner := .ofSeed 7 }
    Metadata setting true Rehearsal.inner start steps (setting.after true steps start) := by
  intro steps
  have hsteps : ∀ step ∈ steps, step.Ordinary := by decide
  exact metadata_after 7 true hsteps

end HostSession

end DiffTensor
