import DiffTensor.Proofs.HostCalls
import DiffTensor.Proofs.Direct
import DiffTensor.Proofs.HostSession
import DiffTensor.Proofs.Persistence

/-!
# What wrappers stand for

A session on the host and a session on the graph stand side by side (`Stands`): the graph and the
stream are those of the engine, a slot with a live wrapper holds without wrappers what is behind
the wrapper's handle, and all other slots are empty there. No two live wrappers have the same
handle.

The few ways in which both change are here: the engine gets on while what is behind handles stays,
a slot is filled or emptied, and a handle that no slot holds is released.
-/

namespace DiffTensor

variable {α : Type}

/-- What a library keeps behind a handle of it. -/
def Item.object : {kind : ResourceKind} → Item α kind → Object α
  | .tensor, n => .tensor n
  | .layer, l => .layer l
  | .optimizer, state => .optimizer state

theorem Item.kind_object {kind : ResourceKind} (i : Item α kind) : i.object.kind = kind := by
  cases kind <;> rfl

namespace GraphSession.State

variable {g : State α} {kind kind' : ResourceKind}

theorem items_setItems (items : Slots (Item α kind)) :
    (g.setItems kind items).items kind = items := by
  cases kind <;> rfl

theorem items_setItems_of_ne (hk : kind' ≠ kind) (items : Slots (Item α kind)) :
    (g.setItems kind items).items kind' = g.items kind' := by
  cases kind <;> cases kind' <;> first | rfl | exact absurd rfl hk

end GraphSession.State

namespace HostSession

open Host (Tensor Layer)

/-- What a wrapper keeps is so. -/
def Wrapper.Shows (s : Store α) : {kind : ResourceKind} → Wrapper α kind → Item α kind → Prop
  | .tensor, t, n => Tensor.shape t = (s.shape n).map Int.ofNat
  | .layer, l, layer => Layer.inputs l = layer.inputs ∧ Layer.outputs l = layer.outputs
  | .optimizer, o, state => Host.Optimizer.parameters o = state.parameters.length

/-- The wrapper without its handle. -/
def Wrapper.givenBack : {kind : ResourceKind} → Wrapper α kind → Wrapper α kind
  | .tensor, t => { t with owned := { Tensor.owned t with held := none } }
  | .layer, l => { l with owned := { Layer.owned l with held := none } }
  | .optimizer, o => { o with owned := { Host.Optimizer.owned o with held := none } }

theorem Wrapper.owned_givenBack {kind : ResourceKind} (x : Wrapper α kind) :
    x.givenBack.owned = { x.owned with held := none } := by
  cases kind <;> rfl

/-- The state with another engine. -/
def State.withEngine (w : State α (Engine α)) (e : Engine α) : State α (Engine α) :=
  { w with env := { w.env with world := e } }

/-- What the wrapper in a slot holds, if there is one. -/
def State.heldIn {V : Type} (s : State α V) (kind : ResourceKind) (name : String) : Option Handle :=
  ((s.slots kind).find? name).bind fun x => x.owned.held

/-- The state in which a slot has been filled, and what was held there is released. -/
def State.fill (w : State α (Engine α)) (kind : ResourceKind) (name : String)
    (x : Wrapper α kind) : State α (Engine α) :=
  (w.setSlots kind ((w.slots kind).insert name x)).withEngine
    (w.env.world.release (w.heldIn kind name))

/-- The state in which a slot has been emptied, and what was held there is released. -/
def State.empty (w : State α (Engine α)) (kind : ResourceKind) (name : String) :
    State α (Engine α) :=
  (w.setSlots kind ((w.slots kind).erase name)).withEngine
    (w.env.world.release (w.heldIn kind name))

/-- The state in which tensors have been put into slots, as far as there are names for them. -/
def State.fillAll (w : State α (Engine α)) : List String → List Tensor → State α (Engine α)
  | name :: names, t :: ts => (w.fill .tensor name t).fillAll names ts
  | [], t :: ts => (w.withEngine (w.env.world.release t.owned.held)).fillAll [] ts
  | _, [] => w

/-- A slot with a live wrapper holds, without wrappers, what is behind the handle. -/
def Matches (e : Engine α) {kind : ResourceKind} (x : Option (Wrapper α kind))
    (i : Option (Item α kind)) : Prop :=
  match x with
  | none => i = none
  | some x => x.owned.kind = kind ∧ match x.owned.held with
    | none => i = none
    | some h => ∃ j, i = some j ∧ e.object? h = some j.object ∧ x.Shows e.store j

/-- The two sessions stand side by side. -/
structure Stands (w : State α (Engine α)) (g : GraphSession.State α) : Prop where
  sound : w.env.world.Sound
  store : g.store = w.env.world.store
  stream : g.stream = w.env.world.stream
  slots : ∀ kind name,
    Matches w.env.world ((w.slots kind).find? name) ((g.items kind).find? name)
  distinct : ∀ kind a b (x y : Wrapper α kind) h, (w.slots kind).find? a = some x →
    (w.slots kind).find? b = some y → x.owned.held = some h → y.owned.held = some h → a = b

/-- No wrapper in a slot holds the handle. -/
def Unheld (w : State α (Engine α)) (h : Handle) : Prop :=
  ∀ kind name (x : Wrapper α kind), (w.slots kind).find? name = some x → x.owned.held ≠ some h

variable {w : State α (Engine α)} {g : GraphSession.State α} {e : Engine α} {kind : ResourceKind}
  {name : String} {h : Handle}

theorem slots_withEngine (w : State α (Engine α)) (e : Engine α) :
    (w.withEngine e).slots = w.slots := by
  funext kind
  cases kind <;> rfl

theorem State.slots_setSlots_of_ne {V : Type} {s : State α V} {kind kind' : ResourceKind}
    (hk : kind' ≠ kind) (slots : Slots (Wrapper α kind)) :
    (s.setSlots kind slots).slots kind' = s.slots kind' := by
  cases kind <;> cases kind' <;> first | rfl | exact absurd rfl hk

theorem slots_fill (w : State α (Engine α)) (kind : ResourceKind) (name : String)
    (x : Wrapper α kind) :
    (w.fill kind name x).slots = (w.setSlots kind ((w.slots kind).insert name x)).slots :=
  slots_withEngine ..

theorem State.find?_fill (w : State α (Engine α)) (kind : ResourceKind) (name : String)
    (x : Wrapper α kind) (other : String) : ((w.fill kind name x).slots kind).find? other =
      if other = name then some x else (w.slots kind).find? other := by
  rw [slots_fill, State.slots_setSlots, Slots.find?_insert]

theorem State.find?_of_heldIn {V : Type} {s : State α V} {kind : ResourceKind} {name : String} {h : Handle}
    (hh : s.heldIn kind name = some h) :
    ∃ x, (s.slots kind).find? name = some x ∧ x.owned.held = some h :=
  Option.bind_eq_some_iff.1 hh

namespace Matches

variable {x : Option (Wrapper α kind)} {i : Option (Item α kind)}

/-- A match depends on what is behind the handle only, and on the shape of nodes. -/
theorem mono {e' : Engine α} (hm : Matches e x i)
    (ho : ∀ y h j, x = some y → y.owned.held = some h → i = some j → e.object? h = some j.object →
      y.Shows e.store j → e'.object? h = some j.object ∧ y.Shows e'.store j) : Matches e' x i := by
  cases x with
  | none => exact hm
  | some y =>
    refine ⟨hm.1, ?_⟩
    have hm := hm.2
    cases hh : y.owned.held with
    | none => simpa only [hh] using hm
    | some h =>
      simp only [hh] at hm ⊢
      obtain ⟨j, hi, hj, hs⟩ := hm
      exact ⟨j, hi, ho y h j rfl hh hi hj hs⟩

end Matches

namespace Stands

/-- What a live wrapper stands for. -/
theorem live (hw : Stands w g) {x : Wrapper α kind} (hx : (w.slots kind).find? name = some x)
    (hh : x.owned.held = some h) : ∃ j, (g.items kind).find? name = some j ∧
      w.env.world.object? h = some j.object ∧ x.Shows w.env.world.store j := by
  have hm := hw.slots kind name
  rw [hx] at hm
  simpa only [Matches, hh] using hm.2

/-- What is in a slot without wrappers is behind the handle of a live wrapper. -/
theorem held_of_item (hw : Stands w g) (kind : ResourceKind) {i : Item α kind}
    (hi : (g.items kind).find? name = some i) :
    ∃ h, w.heldIn kind name = some h ∧ w.env.world.object? h = some i.object := by
  have hm := hw.slots kind name
  rw [hi] at hm
  unfold State.heldIn
  cases hx : (w.slots kind).find? name with
  | none =>
    rw [hx] at hm
    cases hm
  | some x =>
    simp only [hx, Matches] at hm
    cases hh : x.owned.held with
    | none => simp only [hh, reduceCtorEq, and_false] at hm
    | some h =>
      simp only [hh] at hm
      obtain ⟨-, j, hj, ho, -⟩ := hm
      cases hj
      exact ⟨h, hh, ho⟩

theorem tensor_of_node (hw : Stands w g) {n : NodeId} (hn : g.nodes.find? name = some n) :
    w.env.world.tensor (w.heldIn .tensor name) = .ok n := by
  obtain ⟨h, hh, ho⟩ := hw.held_of_item .tensor hn
  rw [hh, Engine.tensor_of_object? ho]

theorem optimizer_of_item (hw : Stands w g) {state : Optimizer α}
    (hs : g.optimizers.find? name = some state) :
    ∃ h, w.env.world.optimizer (w.heldIn .optimizer name) = .ok (h, state) := by
  obtain ⟨h, hh, ho⟩ := hw.held_of_item .optimizer hs
  exact ⟨h, by rw [hh, Engine.optimizer_of_object? ho]⟩

/-- No two wrappers hold the same handle, of whatever kinds they are. -/
theorem unique (hw : Stands w g) {kind' : ResourceKind} {name' : String} {x : Wrapper α kind}
    {y : Wrapper α kind'} (hx : (w.slots kind).find? name = some x)
    (hy : (w.slots kind').find? name' = some y) (hxh : x.owned.held = some h)
    (hyh : y.owned.held = some h) : kind = kind' ∧ name = name' := by
  obtain ⟨i, -, hi, -⟩ := hw.live hx hxh
  obtain ⟨j, -, hj, -⟩ := hw.live hy hyh
  have hk : kind = kind' := by
    rw [← i.kind_object, ← j.kind_object, Option.some.inj (hi.symm.trans hj)]
  subst hk
  exact ⟨rfl, hw.distinct kind name name' x y h hx hy hxh hyh⟩

/-- Handles that have not been used are not held. -/
theorem unheld_of_object? (hw : Stands w g) (ho : w.env.world.object? h = none) : Unheld w h := by
  intro kind name x hx hh
  obtain ⟨j, -, hj, -⟩ := hw.live hx hh
  rw [ho] at hj
  cases hj

/-- The engine gets on, and what is behind handles stays as it is. -/
theorem advance (hw : Stands w g) (he : e.Sound)
    (ho : ∀ h o, w.env.world.object? h = some o → e.object? h = some o)
    (hs : ∀ n, n < w.env.world.store.nodes.size → e.store.shape n = w.env.world.store.shape n) :
    Stands (w.withEngine e) { g with store := e.store, stream := e.stream } := by
  refine ⟨he, rfl, rfl, fun kind name => ?_, fun kind => ?_⟩
  · rw [slots_withEngine]
    have hm : Matches w.env.world ((w.slots kind).find? name) ((g.items kind).find? name) :=
      hw.slots kind name
    have hi : ({ g with store := e.store, stream := e.stream } : GraphSession.State α).items kind =
        g.items kind := by cases kind <;> rfl
    rw [hi]
    refine hm.mono fun y h j hy hh hj hobj hshow => ⟨ho h _ hobj, ?_⟩
    cases kind with
    | tensor =>
      have hlt : (j : NodeId) < w.env.world.store.nodes.size := hw.sound.objects h _ hobj
      exact hshow.trans (congrArg _ (hs _ hlt).symm)
    | layer => exact hshow
    | optimizer => exact hshow
  · rw [slots_withEngine]
    exact hw.distinct kind

/-- A handle that no slot holds may be released. -/
theorem release (hw : Stands w g) (hh : Unheld w h) :
    Stands (w.withEngine (w.env.world.release (some h))) g := by
  have hS : (w.env.world.release (some h)).Sound := hw.sound.release (some h)
  refine ⟨hS, hw.store, hw.stream, fun kind name => ?_, fun kind => ?_⟩
  · rw [slots_withEngine]
    refine (hw.slots kind name).mono fun y k j hy hk hj hobj hshow => ⟨?_, hshow⟩
    have hne : k ≠ h := fun heq => hh kind name y hy (heq ▸ hk)
    show Engine.object? { w.env.world with objects := _ } k = _
    rw [Engine.object?_setIfInBounds, if_neg fun hc => hne hc.1]
    exact hobj
  · rw [slots_withEngine]
    exact hw.distinct kind

/-- What a slot holds is replaced by something new. -/
theorem set (hw : Stands w g) {slots : Slots (Wrapper α kind)} {items : Slots (Item α kind)}
    {x : Option (Wrapper α kind)} {i : Option (Item α kind)}
    (hs : ∀ other, slots.find? other = if other = name then x else (w.slots kind).find? other)
    (hi : ∀ other, items.find? other = if other = name then i else (g.items kind).find? other)
    (hm : Matches w.env.world x i)
    (hx : ∀ y h, x = some y → y.owned.held = some h → ∀ other z, other ≠ name →
      (w.slots kind).find? other = some z → z.owned.held ≠ some h) :
    Stands (w.setSlots kind slots) (g.setItems kind items) := by
  have henv : (w.setSlots kind slots).env = w.env := State.env_setSlots _
  have hstore : (g.setItems kind items).store = g.store := by cases kind <;> rfl
  have hstream : (g.setItems kind items).stream = g.stream := by cases kind <;> rfl
  refine ⟨henv ▸ hw.sound, ?_, ?_, fun kind' other => ?_, fun kind' a b y z h hy hz hyh hzh => ?_⟩
  · rw [hstore, henv, hw.store]
  · rw [hstream, henv, hw.stream]
  · rw [henv]
    by_cases hk : kind' = kind
    · subst hk
      rw [State.slots_setSlots, GraphSession.State.items_setItems, hs, hi]
      split
      · exact hm
      · exact hw.slots kind' other
    · rw [State.slots_setSlots_of_ne hk, GraphSession.State.items_setItems_of_ne hk]
      exact hw.slots kind' other
  · by_cases hk : kind' = kind
    · subst hk
      rw [State.slots_setSlots, hs] at hy hz
      by_cases ha : a = name <;> by_cases hb : b = name
      · rw [ha, hb]
      · rw [if_pos ha] at hy
        rw [if_neg hb] at hz
        exact absurd hzh (hx y h hy hyh b z hb hz)
      · rw [if_neg ha] at hy
        rw [if_pos hb] at hz
        exact absurd hyh (hx z h hz hzh a y ha hy)
      · rw [if_neg ha] at hy
        rw [if_neg hb] at hz
        exact hw.distinct kind' a b y z h hy hz hyh hzh
    · rw [State.slots_setSlots_of_ne hk] at hy hz
      exact hw.distinct kind' a b y z h hy hz hyh hzh

/-- A wrapper in a slot may be changed in what it does not show. -/
theorem change (hw : Stands w g) {x : Wrapper α kind} (hx : (w.slots kind).find? name = some x)
    (x' : Wrapper α kind) (ho : x'.owned = x.owned)
    (hs : ∀ i, x.Shows w.env.world.store i → x'.Shows w.env.world.store i) :
    Stands (w.setSlots kind ((w.slots kind).insert name x')) g := by
  have hi : g.setItems kind (g.items kind) = g := by cases kind <;> rfl
  have hm := hw.slots kind name
  rw [← hi]
  refine hw.set (fun other => Slots.find?_insert ..) (i := (g.items kind).find? name)
    (fun other => ?_) ?_ ?_
  · split
    · rename_i heq
      rw [heq]
    · rfl
  · rw [hx] at hm
    simp only [Matches, ho] at hm ⊢
    refine ⟨hm.1, ?_⟩
    have hm := hm.2
    cases hh : x.owned.held with
    | none => simpa only [hh] using hm
    | some h =>
      simp only [hh] at hm ⊢
      obtain ⟨j, hj, hobj, hshow⟩ := hm
      exact ⟨j, hj, hobj, hs j hshow⟩
  · rintro y h ⟨⟩ hy other z hne hz hzh
    exact hne (hw.distinct kind other name z x h hz hx hzh (ho ▸ hy))

/-- What was held in a slot that is filled or emptied may be released. -/
theorem release_old (hw : Stands w g) {slots : Slots (Wrapper α kind)} {g' : GraphSession.State α}
    {x : Option (Wrapper α kind)}
    (hs : ∀ other, slots.find? other = if other = name then x else (w.slots kind).find? other)
    (hx : ∀ y h, x = some y → y.owned.held = some h → w.heldIn kind name ≠ some h)
    (hw' : Stands (w.setSlots kind slots) g') :
    Stands ((w.setSlots kind slots).withEngine (w.env.world.release (w.heldIn kind name))) g' := by
  have henv : (w.setSlots kind slots).env = w.env := State.env_setSlots _
  cases hh : w.heldIn kind name with
  | none =>
    have hself : (w.setSlots kind slots).withEngine (w.env.world.release none) =
        w.setSlots kind slots := by
      cases kind <;> rfl
    rw [hself]
    exact hw'
  | some h =>
    rw [← henv]
    refine hw'.release fun kind' other z hz hzh => ?_
    obtain ⟨y, hy, hyh⟩ := Option.bind_eq_some_iff.1 hh
    by_cases hk : kind' = kind
    · subst hk
      rw [State.slots_setSlots, hs] at hz
      split at hz
      · exact hx z h hz hzh hh
      · rename_i hne
        exact hne (hw.distinct kind' other name z y h hz hy hzh hyh)
    · rw [State.slots_setSlots_of_ne hk] at hz
      exact hk (hw.unique hz hy hzh hyh).1

/-- A wrapper of something new is put into a slot. -/
theorem fill (hw : Stands w g) (kind : ResourceKind) (name : String) {x : Wrapper α kind}
    {i : Item α kind} (hk : x.owned.kind = kind) (hh : x.owned.held = some h)
    (ho : w.env.world.object? h = some i.object) (hs : x.Shows w.env.world.store i)
    (hu : Unheld w h) :
    Stands (w.fill kind name x) (g.setItems kind ((g.items kind).insert name i)) := by
  have hu' : ∀ y k, some x = some y → y.owned.held = some k → k = h := by
    rintro y k ⟨⟩ hy
    exact Option.some.inj (hy.symm.trans hh)
  refine hw.release_old (fun other => Slots.find?_insert ..) (fun y k hy hyh hold => ?_)
    (hw.set (fun other => Slots.find?_insert ..) (fun other => Slots.find?_insert ..) ?_ ?_)
  · obtain ⟨z, hz, hzh⟩ := Option.bind_eq_some_iff.1 hold
    exact hu kind name z hz (hu' y k hy hyh ▸ hzh)
  · simp only [Matches, hh]
    exact ⟨hk, i, rfl, ho, hs⟩
  · intro y k hy hyh other z _ hz hzh
    exact hu kind other z hz (hu' y k hy hyh ▸ hzh)

/-- A slot is emptied. -/
theorem empty (hw : Stands w g) (kind : ResourceKind) (name : String) :
    Stands (w.empty kind name) (g.setItems kind ((g.items kind).erase name)) :=
  hw.release_old (fun _ => Slots.find?_erase ..) nofun
    (hw.set (fun _ => Slots.find?_erase ..) (fun _ => Slots.find?_erase ..) rfl nofun)

/-- A wrapper is destroyed, and stays in its slot. -/
theorem destroy (hw : Stands w g) {x' : Wrapper α kind} (hk : x'.owned.kind = kind)
    (hh : x'.owned.held = none) (name : String) :
    Stands (w.fill kind name x') (g.setItems kind ((g.items kind).erase name)) := by
  have hx : ∀ y h, some x' = some y → y.owned.held ≠ some h := by
    rintro y h ⟨⟩ hy
    rw [hh] at hy
    cases hy
  refine hw.release_old (fun other => Slots.find?_insert ..)
    (fun y h hy hyh => absurd hyh (hx y h hy))
    (hw.set (fun other => Slots.find?_insert ..) (fun other => Slots.find?_erase ..) ?_
      fun y h hy hyh => absurd hyh (hx y h hy))
  simp only [Matches, hh]
  exact ⟨hk, trivial⟩

/-- An optimizer gets on. -/
theorem setOptimizer (hw : Stands w g) {x : Host.Optimizer α}
    (hx : (w.slots .optimizer).find? name = some x) (hh : x.owned.held = some h)
    {state : Optimizer α} (hf : state.Fits w.env.world.store)
    (hp : x.parameters = state.parameters.length) :
    Stands (w.withEngine (w.env.world.setOptimizer h state))
      { g with optimizers := g.optimizers.insert name state } := by
  have hS : (w.env.world.setOptimizer h state).Sound := hw.sound.setOptimizer hf
  have hlt : h < w.env.world.objects.size := by
    obtain ⟨j, -, hj, -⟩ := hw.live hx hh
    exact Engine.lt_size_of_kind?
      (show w.env.world.kind? h = some .optimizer by rw [Engine.kind?, hj]; rfl)
  have ho : ∀ k, (w.env.world.setOptimizer h state).object? k =
      if k = h ∧ h < w.env.world.objects.size then some (.optimizer state)
      else w.env.world.object? k := fun k => Engine.object?_setIfInBounds _ h _ k
  refine ⟨hS, hw.store, hw.stream, fun kind other => ?_, fun kind => ?_⟩
  · rw [slots_withEngine]
    by_cases hk : kind = .optimizer
    · subst hk
      have hi : (({ g with optimizers := g.optimizers.insert name state } :
          GraphSession.State α).items .optimizer).find? other =
            if other = name then some state else (g.items .optimizer).find? other :=
        Slots.find?_insert ..
      rw [hi]
      split
      · rename_i heq
        have hm := hw.slots .optimizer other
        have hh' : (@Wrapper.owned α .optimizer x).held = some h := hh
        rw [heq, hx] at hm ⊢
        simp only [Matches, hh'] at hm ⊢
        refine ⟨hm.1, state, rfl, ?_, hp⟩
        exact (ho h).trans (if_pos ⟨rfl, hlt⟩)
      · rename_i hne
        refine (hw.slots .optimizer other).mono fun y k j hy hyk hj hobj hshow => ⟨?_, hshow⟩
        have hk : k ≠ h := fun heq => hne (hw.unique hy hx hyk (heq ▸ hh)).2
        show (w.env.world.setOptimizer h state).object? k = _
        rw [ho, if_neg fun hc => hk hc.1]
        exact hobj
    · have hi : ({ g with optimizers := g.optimizers.insert name state } :
          GraphSession.State α).items kind = g.items kind := by
        cases kind <;> first | rfl | exact absurd rfl hk
      rw [hi]
      refine (hw.slots kind other).mono fun y k j hy hyk hj hobj hshow => ⟨?_, hshow⟩
      have hne : k ≠ h := fun heq => hk (hw.unique hy hx hyk (heq ▸ hh)).1
      show (w.env.world.setOptimizer h state).object? k = _
      rw [ho, if_neg fun hc => hne hc.1]
      exact hobj
  · rw [slots_withEngine]
    exact hw.distinct kind

/-- What was reported on the graph makes no difference. -/
theorem withLog (hw : Stands w g) (log : List Event) : Stands w { g with log } := by
  refine ⟨hw.sound, hw.store, hw.stream, fun kind name => ?_, hw.distinct⟩
  have hi : ({ g with log } : GraphSession.State α).items kind = g.items kind := by
    cases kind <;> rfl
  rw [hi]
  exact hw.slots kind name

theorem reseed (hw : Stands w g) (stream : Stream) :
    Stands (w.withEngine { w.env.world with stream }) { g with stream } := by
  have h := hw.advance (e := { w.env.world with stream }) (hw.sound.congr rfl rfl)
    (fun _ _ ho => ho) fun _ _ => rfl
  rwa [show ({ w.env.world with stream } : Engine α).store = g.store from hw.store.symm] at h

/-- The graph advances. -/
theorem advanceStore (hw : Stands w g) {s : Store α} (hA : w.env.world.store.Advanced s) :
    Stands (w.withEngine { w.env.world with store := s }) { g with store := s } := by
  have h := hw.advance (e := { w.env.world with store := s }) (hw.sound.advance hA)
    (fun _ _ ho => ho) fun n hn => hA.grown.shape_eq n hn
  rwa [show ({ w.env.world with store := s } : Engine α).stream = g.stream from hw.stream.symm] at h

/-- Slots do not hold handles that have not been used. -/
theorem unheld_new (hw : Stands w g) (e : Engine α) (hh : w.env.world.objects.size ≤ h) :
    Unheld (w.withEngine e) h := by
  unfold Unheld
  rw [slots_withEngine]
  exact hw.unheld_of_object? (Engine.object?_of_le hh)

/-- A new object is handed out. -/
theorem made [Scalar α] [Sampler α] (hw : Stands w g) {c : Creation α Handle}
    (hc : (Call.create c true).Representable) {new : Object α × Store α × Stream}
    (hb : w.env.world.build c = .ok new) : Stands (w.withEngine (w.env.world.made new))
      { g with store := new.2.1, stream := new.2.2 } := by
  refine hw.advance (hw.sound.made hc hb) (fun h o ho => ?_)
    fun n hn => (Engine.build_spec hw.sound hc hb).1.grown.shape_eq n hn
  rw [Engine.object?_made, if_neg (Nat.ne_of_lt (Engine.lt_size_of_object? ho))]
  exact ho

/-- A new object is handed out, and its wrapper goes into a slot. -/
theorem fill_made [Scalar α] [Sampler α] (hw : Stands w g) (kind : ResourceKind) (name : String)
    {x : Wrapper α kind} {i : Item α kind} {c : Creation α Handle} {store : Store α}
    {stream : Stream} (hc : (Call.create c true).Representable)
    (hb : w.env.world.build c = .ok (i.object, store, stream)) (hk : x.owned.kind = kind)
    (hh : x.owned.held = some w.env.world.objects.size) (hs : x.Shows store i) :
    let g' : GraphSession.State α := { g with store, stream }
    Stands ((w.withEngine (w.env.world.made (i.object, store, stream))).fill kind name x)
      (g'.setItems kind ((g'.items kind).insert name i)) :=
  (hw.made hc hb).fill kind name hk hh (Engine.object?_made_new ..) hs
    (hw.unheld_new _ (Nat.le_refl _))

/-- A handle is handed out for a node. -/
theorem handOut (hw : Stands w g) {n : NodeId} (hn : n < w.env.world.store.nodes.size) :
    Stands (w.withEngine (w.env.world.handOut (.tensor n)).2) g := by
  have h := hw.advance (e := (w.env.world.handOut (.tensor n)).2) (hw.sound.handOut hn)
    (fun h o ho => by
      rw [Engine.object?_handOut, if_neg (Nat.ne_of_lt (Engine.lt_size_of_object? ho))]
      exact ho) fun _ _ => rfl
  have hs : (w.env.world.handOut (.tensor n)).2.store = g.store := hw.store.symm
  have hr : (w.env.world.handOut (.tensor n)).2.stream = g.stream := hw.stream.symm
  rwa [hs, hr] at h

/-- A slot without a live wrapper has nothing to be emptied. -/
theorem erase_empty (hw : Stands w g) (hn : (w.slots kind).find? name = none) :
    Stands w (g.setItems kind ((g.items kind).erase name)) := by
  have hs : w.setSlots kind (w.slots kind) = w := by cases kind <;> rfl
  rw [← hs]
  refine hw.set (x := none) (i := none) (fun other => ?_) (fun _ => Slots.find?_erase ..) rfl nofun
  split
  · rename_i ho
    rw [ho, hn]
  · rfl

end Stands

/-! ## Tensors that have no slot yet -/

/-- A wrapper of a node that is in no slot. -/
structure Loose (w : State α (Engine α)) (t : Tensor) (n : NodeId) : Prop where
  kind : t.owned.kind = .tensor
  held : ∃ h, t.owned.held = some h ∧ w.env.world.object? h = some (.tensor n) ∧ Unheld w h
  shows : t.shape = (w.env.world.store.shape n).map Int.ofNat

namespace Loose

variable {t t' : Tensor} {n n' : NodeId}

/-- It stays so when another handle is released. -/
theorem release (hl : Loose w t n) {old : Option Handle} (hne : t.owned.held ≠ old) :
    Loose (w.withEngine (w.env.world.release old)) t n := by
  obtain ⟨hk, ⟨h, hh, ho, hu⟩, hs⟩ := hl
  refine ⟨hk, ⟨h, hh, ?_, ?_⟩, ?_⟩
  · cases old with
    | none => exact ho
    | some k =>
      have hne : h ≠ k := fun heq => hne (heq ▸ hh)
      show Engine.object? { w.env.world with objects := _ } h = _
      rw [Engine.object?_setIfInBounds, if_neg fun hc => hne hc.1]
      exact ho
  · unfold Unheld
    rw [slots_withEngine]
    exact hu
  · cases old <;> exact hs

/-- It stays so when another wrapper is put into a slot. -/
theorem fill (hl : Loose w t n) (hne : t.owned.held ≠ t'.owned.held) :
    Loose (w.fill .tensor name t') t n := by
  obtain ⟨hk, ⟨h, hh, ho, hu⟩, hs⟩ := hl
  have hset : Loose (w.setSlots .tensor ((w.slots .tensor).insert name t')) t n := by
    refine ⟨hk, ⟨h, hh, ho, fun kind other x hx hxh => ?_⟩, hs⟩
    by_cases hkind : kind = .tensor
    · subst hkind
      rw [State.slots_setSlots, Slots.find?_insert] at hx
      split at hx
      · cases hx
        exact hne (hh.trans hxh.symm)
      · exact hu .tensor other x hx hxh
    · rw [State.slots_setSlots_of_ne hkind] at hx
      exact hu kind other x hx hxh
  refine hset.release fun hold => ?_
  obtain ⟨x, hx, hxh⟩ := Option.bind_eq_some_iff.1 (hold.symm.trans hh)
  exact hu .tensor name x hx hxh

end Loose

/-- Tensors are put into slots, and the nodes that they stand for with them. -/
theorem Stands.fillAll : ∀ (items : List (Tensor × NodeId)) (names : List String)
    {w : State α (Engine α)} {g : GraphSession.State α}, Stands w g →
    (∀ p ∈ items, Loose w p.1 p.2) → (items.map fun p => p.1.owned.held).Nodup →
    Stands (w.fillAll names (items.map Prod.fst))
      { g with nodes := g.nodes.insertAll (names.zip (items.map Prod.snd)) }
  | [], [], _, _, hw, _, _ | [], _ :: _, _, _, hw, _, _ => hw
  | (t, n) :: items, [], w, g, hw, hl, hd => by
    obtain ⟨ht, hl⟩ := List.forall_mem_cons.1 hl
    obtain ⟨hnot, hd⟩ := List.nodup_cons.1 hd
    obtain ⟨h, hh, -, hu⟩ := ht.held
    have hw' : Stands (w.withEngine (w.env.world.release t.owned.held)) g := hh ▸ hw.release hu
    exact fillAll items [] hw' (fun p hp => (hl p hp).release fun heq =>
      hnot (List.mem_map.2 ⟨p, hp, heq⟩)) hd
  | (t, n) :: items, name :: names, w, g, hw, hl, hd => by
    obtain ⟨ht, hl⟩ := List.forall_mem_cons.1 hl
    obtain ⟨hnot, hd⟩ := List.nodup_cons.1 hd
    obtain ⟨h, hh, ho, hu⟩ := ht.held
    have hw' := hw.fill .tensor name (i := n) ht.kind hh ho ht.shows hu
    exact fillAll items names hw' (fun p hp => (hl p hp).fill fun heq =>
      hnot (List.mem_map.2 ⟨p, hp, heq⟩)) hd

end HostSession

end DiffTensor
