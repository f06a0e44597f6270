import DiffTensor.Proofs.Standing

/-!
# When wrappers are told whether tensors are tracked

A wrapper keeps whether its tensor is tracked. It is told so when it is made, and again when its
own tracking is changed (`Step.tells`); at that moment it agrees with the library. Otherwise a step
leaves the tensors in slots as they are, but for their handles (`Told`).
-/

namespace DiffTensor

theorem Slots.find?_insert_self {β : Type} (slots : Slots β) (name : String) (x : β) :
    (slots.insert name x).find? name = some x := by
  rw [find?_insert, if_pos rfl]

/-- The result of an operation is tracked exactly if one of its inputs is. -/
theorem Store.tracked_record {α : Type} (s : Store α) (v : Buffer α) (rule : Rule α)
    (inputs : List NodeId) :
    (s.record v rule inputs).2.tracked (s.record v rule inputs).1 = inputs.any s.tracked := by
  unfold record leaf
  split
  · rename_i h
    rw [tracked, node_push, if_pos rfl, h]
  · rename_i h
    rw [tracked, node_push, if_pos rfl, Bool.eq_false_iff.2 h]

theorem Store.tracked_setTracked {α : Type} {s s' : Store α} {n : NodeId} {flag : Bool}
    (hn : n < s.nodes.size) (h : s.setTracked n flag = .ok s') : s'.tracked n = flag := by
  unfold setTracked at h
  split at h
  · cases h
  · cases h
    rw [tracked, node_modify _ _ _ _ hn, if_pos rfl]

namespace HostSession

open Host (Tensor)

variable {α : Type}

/-- The slots that a step has put new tensors into, after it was answered. A layer has two
parameters. -/
def Step.makes : Step α → Answer α → List String
  | _, .failed _ | _, .emptySlot | .gradient _ _, .gradient none => []
  | .filled _ _ _ out, _ | .ofValues _ _ _ out, _ | .binary _ _ _ out, _ | .unary _ _ out, _
  | .forward _ _ out, _ | .gradient _ out, _ => [out]
  | .parameters _ outs, _ => outs.take 2
  | _, _ => []

/-- The slots of the tensors that a step has told whether they are tracked: of the new ones, and of
the one whose tracking it has changed. -/
def Step.tells : Step α → Answer α → List String
  | _, .failed _ | _, .emptySlot => []
  | .setTracked a _, _ => [a]
  | other, a => other.makes a

@[simp] theorem Step.tells_failed (step : Step α) (cause : HostFailure) :
    step.tells (.failed cause) = [] := by
  cases step <;> rfl

@[simp] theorem Step.tells_emptySlot (step : Step α) : step.tells .emptySlot = [] := by
  cases step <;> rfl

/-- Looking tells nothing. -/
theorem Step.tells_of_looks [Scalar α] [Sampler α] {step : Step α} (h : Direct.Looks step)
    (a : Answer α) : step.tells a = [] := by
  cases a with
  | gradient view => cases view <;> cases step <;> first | rfl | exact h.elim
  | _ => cases step <;> first | rfl | exact h.elim

/-- It is the tensor that was there, except that its handle may have been given back. -/
structure Remains (t t' : Tensor) : Prop where
  shape : t'.shape = t.shape
  tracked : t'.tracked = t.tracked
  owned : t'.owned = t.owned ∨ t'.owned = { t.owned with held := none }

namespace Remains

theorem refl (t : Tensor) : Remains t t := ⟨rfl, rfl, .inl rfl⟩

theorem givenBack (t : Tensor) : Remains t (@Wrapper.givenBack α .tensor t) :=
  ⟨rfl, rfl, .inr rfl⟩

theorem trans {t t' t'' : Tensor} (h : Remains t t') (h' : Remains t' t'') : Remains t t'' := by
  refine ⟨h'.shape.trans h.shape, h'.tracked.trans h.tracked, ?_⟩
  rcases h.owned with ho | ho <;> rcases h'.owned with ho' | ho' <;> simp [ho, ho']

/-- A handle that is held still was held before. -/
theorem held {t t' : Tensor} (hr : Remains t t') {h : Handle} (hh : t'.owned.held = some h) :
    t.owned.held = some h := by
  rcases hr.owned with ho | ho <;> rw [ho] at hh
  · exact hh
  · cases hh

end Remains

/-- A live tensor is tracked exactly if its node is. -/
def UpToDate (e : Engine α) (t : Tensor) : Prop :=
  ∃ h n, t.owned.held = some h ∧ e.object? h = some (.tensor n) ∧ t.tracked = e.store.tracked n

theorem store_fill (w : State α (Engine α)) (kind : ResourceKind) (name : String)
    (x : Wrapper α kind) : (w.fill kind name x).env.world.store = w.env.world.store := by
  unfold State.fill
  cases w.heldIn kind name <;> rfl

/-- What a step has told the tensors in slots. -/
structure Told (step : Step α) (a : Answer α) (w w' : State α (Engine α)) : Prop where
  told : ∀ name ∈ step.tells a, ∃ t, (w'.slots .tensor).find? name = some t ∧
    UpToDate w'.env.world t
  kept : ∀ name ∉ step.tells a, ∀ t', (w'.slots .tensor).find? name = some t' →
    ∃ t, (w.slots .tensor).find? name = some t ∧ Remains t t'

namespace Told

variable {w w' w₁ : State α (Engine α)} {g : GraphSession.State α} {step : Step α} {a : Answer α}
  {kind : ResourceKind} {name : String} {t : Tensor} {h : Handle} {n : NodeId}

/-- No tensor is told anything. -/
theorem of_remains (ha : step.tells a = []) (hr : ∀ name t',
    (w'.slots .tensor).find? name = some t' →
      ∃ t, (w.slots .tensor).find? name = some t ∧ Remains t t') : Told step a w w' := by
  refine ⟨fun name hm => ?_, fun name _ => hr name⟩
  rw [ha] at hm
  cases hm

/-- The tensors in slots are what they were. -/
theorem of_slots_eq (ha : step.tells a = []) (hs : w'.slots .tensor = w.slots .tensor) :
    Told step a w w' :=
  .of_remains ha fun _ t' ht' => ⟨t', hs ▸ ht', .refl t'⟩

theorem withEngine (ha : step.tells a = []) (e : Engine α) : Told step a w (w.withEngine e) :=
  .of_slots_eq ha (congrFun (slots_withEngine w e) _)

/-- A wrapper of another kind is put into a slot. -/
theorem fill_other (ha : step.tells a = []) (hk : .tensor ≠ kind) (hs : w₁.slots = w.slots)
    (x : Wrapper α kind) : Told step a w (w₁.fill kind name x) :=
  .of_slots_eq ha (by rw [slots_fill, State.slots_setSlots_of_ne hk, hs])

/-- A slot is emptied. -/
theorem empty (ha : step.tells a = []) : Told step a w (w.empty kind name) := by
  have hs : (w.empty kind name).slots = (w.setSlots kind ((w.slots kind).erase name)).slots :=
    slots_withEngine ..
  by_cases hk : .tensor = kind
  · subst hk
    refine .of_remains ha fun other t' ht' => ?_
    rw [hs, State.slots_setSlots, Slots.find?_erase] at ht'
    split at ht'
    · cases ht'
    · exact ⟨t', ht', .refl t'⟩
  · exact .of_slots_eq ha (by rw [hs, State.slots_setSlots_of_ne hk])

/-- A wrapper has given its handle back. -/
theorem givenBack (ha : step.tells a = []) {x : Wrapper α kind}
    (hx : (w.slots kind).find? name = some x) :
    Told step a w (w.fill kind name x.givenBack) := by
  by_cases hk : .tensor = kind
  · subst hk
    refine .of_remains ha fun other t' ht' => ?_
    rw [State.find?_fill] at ht'
    split at ht'
    · rename_i heq
      cases ht'
      exact ⟨x, heq ▸ hx, .givenBack x⟩
    · exact ⟨t', ht', .refl t'⟩
  · exact .fill_other ha hk rfl _

/-- The tensor in a slot has been told what is behind its handle. -/
theorem of_stands (hw : Stands w' g) (ha : step.tells a = [name])
    (ht : (w'.slots .tensor).find? name = some t) (hh : t.owned.held = some h)
    (hn : g.nodes.find? name = some n) (hf : t.tracked = w'.env.world.store.tracked n)
    (ho : ∀ other ≠ name, (w'.slots .tensor).find? other = (w.slots .tensor).find? other) :
    Told step a w w' := by
  refine ⟨fun other hm => ?_, fun other hm t' ht' => ?_⟩
  · rw [ha, List.mem_singleton] at hm
    obtain ⟨m, hm', hobj, -⟩ := hw.live ht hh
    obtain rfl : m = n := Option.some.inj (hm'.symm.trans hn)
    exact ⟨t, hm ▸ ht, h, m, hh, hobj, hf⟩
  · rw [ha, List.mem_singleton] at hm
    rw [ho other hm] at ht'
    exact ⟨t', ht', .refl t'⟩

/-- A new tensor is put into a slot. -/
theorem fill (hw : Stands (w₁.fill .tensor name t) g) (ha : step.tells a = [name])
    (hs : w₁.slots = w.slots) (hh : t.owned.held = some h) (hn : g.nodes.find? name = some n)
    (hf : t.tracked = w₁.env.world.store.tracked n) :
    Told step a w (w₁.fill .tensor name t) := by
  refine .of_stands hw ha ?_ hh hn (store_fill w₁ .tensor name t ▸ hf) fun other hne => ?_
  · rw [State.find?_fill, if_pos rfl]
  · rw [State.find?_fill, if_neg hne, hs]

end Told

/-- Where tensors are put into slots, each slot holds what it held, or one of them and the node that
it stands for. -/
theorem find?_fillAll (name : String) : ∀ (items : List (Tensor × NodeId)) (names : List String)
    (w : State α (Engine α)) (nodes : Slots NodeId),
    (name ∈ names.take items.length ∧ ∃ p ∈ items,
      ((w.fillAll names (items.map Prod.fst)).slots .tensor).find? name = some p.1 ∧
      (nodes.insertAll (names.zip (items.map Prod.snd))).find? name = some p.2) ∨
    (name ∉ names.take items.length ∧
      ((w.fillAll names (items.map Prod.fst)).slots .tensor).find? name =
        (w.slots .tensor).find? name ∧
      (nodes.insertAll (names.zip (items.map Prod.snd))).find? name = nodes.find? name)
  | [], [], w, nodes | [], _ :: _, w, nodes => .inr ⟨List.not_mem_nil, rfl, rfl⟩
  | p :: items, [], w, nodes => by
    rcases find?_fillAll name items [] (w.withEngine (w.env.world.release p.1.owned.held)) nodes
      with ⟨hm, -⟩ | ⟨-, hw, -⟩
    · rw [List.take_nil] at hm
      cases hm
    · exact .inr ⟨List.not_mem_nil, hw.trans (by rw [slots_withEngine]), rfl⟩
  | p :: items, other :: names, w, nodes => by
    rcases find?_fillAll name items names (w.fill .tensor other p.1) (nodes.insert other p.2) with
      ⟨hm, q, hq, hw, hn⟩ | ⟨hm, hw, hn⟩
    · exact .inl ⟨List.mem_cons_of_mem _ hm, q, List.mem_cons_of_mem _ hq, hw, hn⟩
    · rw [State.find?_fill] at hw
      rw [Slots.find?_insert] at hn
      by_cases he : name = other
      · rw [if_pos he] at hw hn
        exact .inl ⟨he ▸ List.mem_cons_self, p, List.mem_cons_self, hw, hn⟩
      · rw [if_neg he] at hw hn
        exact .inr ⟨fun h => (List.mem_cons.1 h).elim he hm, hw, hn⟩

theorem store_fillAll : ∀ (names : List String) (ts : List Tensor) (w : State α (Engine α)),
    (w.fillAll names ts).env.world.store = w.env.world.store
  | [], [], _ | _ :: _, [], _ => rfl
  | [], t :: ts, w => (store_fillAll [] ts _).trans (by cases t.owned.held <;> rfl)
  | name :: names, t :: ts, w =>
    (store_fillAll names ts _).trans (store_fill w .tensor name t)

/-- New tensors are put into slots as far as there are names for them. -/
theorem Told.fillAll {w w₁ : State α (Engine α)} {step : Step α} {a : Answer α}
    {items : List (Tensor × NodeId)} {names : List String} {nodes : Slots NodeId}
    {g : GraphSession.State α} (hw : Stands (w₁.fillAll names (items.map Prod.fst)) g)
    (hg : g.nodes = nodes.insertAll (names.zip (items.map Prod.snd)))
    (ha : step.tells a = names.take items.length) (hs : w₁.slots = w.slots)
    (hl : ∀ p ∈ items, p.1.owned.held ≠ none)
    (hf : ∀ p ∈ items, p.1.tracked = w₁.env.world.store.tracked p.2) :
    Told step a w (w₁.fillAll names (items.map Prod.fst)) := by
  refine ⟨fun name hm => ?_, fun name hm t' ht' => ?_⟩ <;> rw [ha] at hm <;>
    rcases find?_fillAll name items names w₁ nodes with ⟨hin, p, hp, ht, hn⟩ | ⟨hout, ht, -⟩
  · obtain ⟨h, hh⟩ := Option.ne_none_iff_exists'.1 (hl p hp)
    obtain ⟨m, hm', hobj, -⟩ := hw.live ht hh
    have hnode : g.nodes.find? name = some m := hm'
    rw [hg, hn] at hnode
    cases hnode
    refine ⟨p.1, ht, h, p.2, hh, hobj, ?_⟩
    rw [store_fillAll]
    exact hf p hp
  · exact absurd hm hout
  · exact absurd hin hm
  · rw [ht, hs] at ht'
    exact ⟨t', ht', .refl t'⟩

end HostSession

end DiffTensor
