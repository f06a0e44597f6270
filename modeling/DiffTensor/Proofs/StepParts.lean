import DiffTensor.Proofs.Standing

/-!
# Parts of steps on the reference library

What the parts of a step do to what is seen of a session (`State.seen`): the slots, and the engine
up to its last error. Where the libraries serve one engine (`Serving`), reading what is in a slot
may end the step, a wrapper that goes away is released, and showing a tensor changes nothing.
-/

namespace DiffTensor.HostSession

open Host (Tensor Layer)

variable {α V β : Type}

/-! ## What is seen of a session -/

/-- The state, with nothing of its world but the engine. The last error and the log are left
out. -/
def State.seen (engine : V → Engine α) (s : State α V) : State α (Engine α) where
  env := ⟨(engine s.env.world).hushed, []⟩
  tensors := s.tensors
  layers := s.layers
  optimizers := s.optimizers

/-- The world is calm, and this is what is seen. -/
def In (engine : V → Engine α) (calm : V → Prop) (w : State α (Engine α)) (s : State α V) : Prop :=
  calm s.env.world ∧ s.seen engine = w

namespace In

variable {engine : V → Engine α} {calm asked : V → Prop} {w : State α (Engine α)} {s : State α V}
  {e : Engine α} {env : Env V} {kind : ResourceKind}

theorem at_env (h : In engine calm w s) : At engine calm w.env.world s.env := by
  obtain ⟨hc, rfl⟩ := h
  exact ⟨hc, rfl⟩

/-- The engine is the one that is seen, but for its last error. -/
theorem world_eq (h : In engine calm w s) : w.env.world = (engine s.env.world).hushed := by
  obtain ⟨-, rfl⟩ := h
  rfl

theorem store_eq (h : In engine calm w s) : (engine s.env.world).store = w.env.world.store := by
  rw [h.world_eq]
  rfl

theorem stream_eq (h : In engine calm w s) :
    (engine s.env.world).stream = w.env.world.stream := by
  rw [h.world_eq]
  rfl

theorem object?_eq (h : In engine calm w s) (k : Handle) :
    (engine s.env.world).object? k = w.env.world.object? k := by
  rw [h.world_eq]
  rfl

theorem slots_eq (h : In engine calm w s) : s.slots = w.slots := by
  obtain ⟨-, rfl⟩ := h
  funext kind
  cases kind <;> rfl

theorem tensor_eq (h : In engine calm w s) (handle : Option Handle) :
    (engine s.env.world).tensor handle = w.env.world.tensor handle := by
  rw [h.world_eq]
  rfl

theorem heldIn_eq (h : In engine calm w s) (kind : ResourceKind) (name : String) :
    s.heldIn kind name = w.heldIn kind name := by
  rw [State.heldIn, State.heldIn, h.slots_eq]

theorem find?_slot (h : In engine calm w s) (kind : ResourceKind) {name : String}
    {x : Wrapper α kind} (hx : (s.slots kind).find? name = some x) :
    (w.slots kind).find? name = some x := h.slots_eq ▸ hx

/-- What is seen of a state is one thing only. -/
theorem unique {w' : State α (Engine α)} (h : In engine calm w s) (h' : In engine calm w' s) :
    w = w' := h.2.symm.trans h'.2

theorem mono (h : In engine asked w s) (hc : ∀ v, asked v → calm v) : In engine calm w s :=
  ⟨hc _ h.1, h.2⟩

theorem withEnv (h : In engine calm w s) (hA : At engine asked e env) :
    In engine asked (w.withEngine e) { s with env } := by
  obtain ⟨-, rfl⟩ := h
  obtain ⟨ha, rfl⟩ := hA
  exact ⟨ha, rfl⟩

theorem setSlots (h : In engine calm w s) (kind : ResourceKind) (slots : Slots (Wrapper α kind)) :
    In engine calm (w.setSlots kind slots) (s.setSlots kind slots) := by
  obtain ⟨hc, rfl⟩ := h
  cases kind <;> exact ⟨hc, rfl⟩

end In

/-- How a tensor is shown that stands for the node `n`. -/
def viewOf (showData : Bool) (s : Store α) (t : Tensor) (n : NodeId) : TensorView α where
  shape := t.shape
  tracked := t.tracked
  data := if showData then some (.ok (s.value n).data.toList) else none

/-! ## Parts of steps -/

section

variable {w : State α (Engine α)} {kind : ResourceKind} {name : String}
  {E : Answer α → State α V → Prop}

/-- An operation of the host, as a part of a step. -/
theorem meets_operating {action : Action V β} {Q : β → State α V → Prop} {s : State α V}
    (h : Meets (· = s.env) action (fun x env => Q x { s with env })
      fun cause env => E (.failed cause) { s with env }) : Meets (· = s) (perform action) Q E :=
  meets_perform fun _ hs => hs ▸ h

/-- So far as it does not depend on the state it starts from. -/
theorem meets_acting {engine : V → Engine α} {calm asked : V → Prop} {action : Action V β}
    {R : β → Prop} {e : Engine α}
    (h : Meets (At engine calm w.env.world) action (fun x env => R x ∧ At engine asked e env)
      fun _ _ => False) :
    Meets (In engine calm w) (perform action)
      (fun x s => R x ∧ In engine asked (w.withEngine e) s) E :=
  meets_perform fun _ hs => .start hs.at_env
    (h.imp (fun _ _ h => ⟨h.1, hs.withEnv h.2⟩) fun _ _ h => h.elim)

/-- The result need not matter. -/
theorem meets_moving {engine : V → Engine α} {calm asked : V → Prop} {action : Action V β}
    {e : Engine α}
    (h : Meets (At engine calm w.env.world) action (fun _ => At engine asked e) fun _ _ => False) :
    Meets (In engine calm w) (perform action) (fun _ => In engine asked (w.withEngine e)) E :=
  (meets_acting (R := fun _ => True) (h.imp_result fun _ _ h => ⟨trivial, h⟩)).imp_result
    fun _ _ h => h.2

theorem meets_slot {f : Wrapper α kind → Running α V β} {Q : β → State α V → Prop} {s : State α V}
    (h : ∀ x, (s.slots kind).find? name = some x → Meets (· = s) (f x) Q E)
    (hE : (s.slots kind).find? name = none → E .emptySlot s) :
    Meets (· = s) (filledSlot kind name >>= f) Q E := by
  rintro _ rfl
  rename_i s
  cases hf : (s.slots kind).find? name with
  | none =>
    have : (filledSlot kind name : Running α V (Wrapper α kind)) s = (.error .emptySlot, s) := by
      simp only [filledSlot, hf]
    rw [bind_of_error this]
    exact hE hf
  | some x =>
    rw [filledSlot_bind hf]
    exact h x hf s rfl

/-- What is known to be in a slot. -/
theorem meets_inSlot {x : Wrapper α kind} {f : Wrapper α kind → Running α V β}
    {Q : β → State α V → Prop} {s : State α V} (hx : (s.slots kind).find? name = some x)
    (h : Meets (· = s) (f x) Q E) : Meets (· = s) (filledSlot kind name >>= f) Q E :=
  meets_slot (fun _ hy => Option.some.inj (hx.symm.trans hy) ▸ h) fun hn =>
    nomatch hx.symm.trans hn

theorem meets_tensors : ∀ {names : List String} {f : List Tensor → Running α V β}
    {Q : β → State α V → Prop} {s : State α V},
    (∀ ts, names.mapM (s.slots .tensor).find? = some ts → Meets (· = s) (f ts) Q E) →
    ((∃ name ∈ names, (s.slots .tensor).find? name = none) → E .emptySlot s) →
    Meets (· = s) (tensorsAt names >>= f) Q E
  | [], _, _, _, h, _ => h [] rfl
  | name :: names, f, Q, s, h, hE => by
    rw [tensorsAt, List.mapM_cons, bind_assoc]
    refine meets_slot (fun t ht => ?_) fun hn => hE ⟨name, List.mem_cons_self, hn⟩
    rw [bind_assoc]
    refine meets_tensors (fun ts hts => ?_)
      fun ⟨other, hm, hn⟩ => hE ⟨other, List.mem_cons_of_mem _ hm, hn⟩
    rw [pure_bind]
    refine h (t :: ts) ?_
    rw [List.mapM_cons, ht, hts]
    rfl

end

variable [Scalar α] [Sampler α] {setting : Setting α V} {engine : V → Engine α}
  {calm asked : V → Prop} {w : State α (Engine α)} {kind : ResourceKind} {name : String}
  {E : Answer α → State α V → Prop} {showData : Bool}
  (hS : Serving setting.libraries engine calm asked)

include hS

theorem meets_discarding (old : Option (Wrapper α kind)) :
    Meets (In engine calm w) (discardOld setting old)
      (fun _ => In engine calm
        (w.withEngine (w.env.world.release (old.bind fun x => x.owned.held)))) E := by
  cases old with
  | none => exact .pure fun _ h => h
  | some x => exact meets_moving (hS.meets_discard x.owned)

/-- The slot is filled, and what it held is released. -/
theorem meets_storing (kind : ResourceKind) (x : Wrapper α kind) :
    Meets (In engine calm w) (store setting kind name x)
      (fun _ => In engine calm (w.fill kind name x)) E := by
  intro s hs
  have hfill : w.fill kind name x = (w.setSlots kind ((w.slots kind).insert name x)).withEngine
      ((w.setSlots kind ((w.slots kind).insert name x)).env.world.release
        (w.heldIn kind name)) := by
    rw [State.env_setSlots]
    rfl
  rw [hfill, State.heldIn, ← hs.slots_eq]
  exact meets_discarding hS ((s.slots kind).find? name) _ (hs.setSlots kind _)

/-- The slot is emptied, and what it held is released. -/
theorem meets_dropping :
    Meets (In engine calm w) (dropFrom setting kind name)
      (fun a s => (∃ filled, a = .dropped filled) ∧ In engine calm (w.empty kind name) s) E := by
  intro s hs
  have hempty : w.empty kind name = (w.setSlots kind ((w.slots kind).erase name)).withEngine
      ((w.setSlots kind ((w.slots kind).erase name)).env.world.release (w.heldIn kind name)) := by
    rw [State.env_setSlots]
    rfl
  rw [hempty, State.heldIn, ← hs.slots_eq]
  exact Meets.bind (meets_discarding hS ((s.slots kind).find? name))
    (Q := fun (a : Answer α) s' => (∃ filled, a = .dropped filled) ∧ In engine calm _ s')
    (f := fun _ => pure (.dropped ((s.slots kind).find? name).isSome))
    (fun _ => .pure fun _ h => ⟨⟨_, rfl⟩, h⟩) _ (hs.setSlots kind _)

/-- A live wrapper is destroyed, and what it held is released. -/
theorem meets_destroying {x : Wrapper α kind} {h : Handle}
    (hx : (w.slots kind).find? name = some x) (hh : x.owned.held = some h) {s : State α V}
    (hs : In engine calm w s) :
    Meets (· = s) (destroyAt setting kind name)
      (fun a s => a = .done ∧ In engine asked (w.fill kind name x.givenBack) s) E := by
  refine meets_slot (fun y hy => ?_) fun hn => ?_
  · obtain rfl : y = x := by
      rw [hs.slots_eq, hx] at hy
      exact (Option.some.inj hy).symm
    have hdestroy : Meets (At engine calm w.env.world) (y.destroy setting.libraries)
        (fun y' env => y' = y.givenBack ∧
          At engine asked (w.env.world.release (some h)) env) fun _ _ => False := by
      cases kind <;> exact .bind (hS.meets_release hh) fun _ => .pure fun _ h => ⟨h.1 ▸ rfl, h.2⟩
    refine .start hs (.bind (meets_acting hdestroy) fun _ => .assume ?_)
    rintro rfl
    refine Meets.bind (R := fun _ => In engine asked (w.fill kind name y.givenBack))
      (fun s' hs' => ?_) fun _ => .pure fun _ h => ⟨rfl, h⟩
    have hfill : w.fill kind name y.givenBack =
        (w.withEngine (w.env.world.release (some h))).setSlots kind
          (((w.withEngine (w.env.world.release (some h))).slots kind).insert name y.givenBack) := by
      have hold : w.heldIn kind name = some h := by rw [State.heldIn, hx]; exact hh
      rw [State.fill, hold, slots_withEngine]
      cases kind <;> rfl
    rw [hfill]
    have hput := hs'.setSlots kind ((s'.slots kind).insert name y.givenBack)
    rw [hs'.slots_eq] at hput
    show In engine asked _ (s'.setSlots kind ((s'.slots kind).insert name y.givenBack))
    rw [hs'.slots_eq]
    exact hput
  · rw [hs.slots_eq, hx] at hn
    cases hn

/-- A live tensor is shown as its wrapper keeps it, with the elements of its node. -/
theorem meets_shown {t : Tensor} {h : Handle} {n : NodeId} (hw : w.env.world.Sound)
    (hh : t.owned.held = some h) (ho : w.env.world.object? h = some (.tensor n)) :
    Meets (In engine calm w) (view setting showData t) (fun shown s =>
      shown = viewOf showData w.env.world.store t n ∧ In engine calm w s) E := by
  have hvalues : Meets (At engine calm w.env.world) (t.values setting.libraries)
      (fun values env => values = (w.env.world.store.value n).data.toList ∧
        At engine calm w.env.world env) fun _ _ => False :=
    (hS.meets_values ho hh (hw.graph.sound.values n)).imp_result
      fun _ _ h => ⟨h.1, h.2.mono fun _ => hS.still⟩
  unfold view
  split
  · refine .bind (meets_acting (R := fun data =>
      data = .ok (w.env.world.store.value n).data.toList) ?_) fun data => .assume fun hd =>
        .pure fun _ h => ⟨by rw [hd, viewOf, if_pos ‹_›], h⟩
    refine (Action.meets_attempt hvalues).imp_result fun result _ h => ?_
    cases result with
    | ok values => exact ⟨congrArg Except.ok h.1, h.2⟩
    | error cause => exact h.elim
  · exact .pure fun _ h => ⟨by rw [viewOf, if_neg ‹_›], h⟩

/-- Nothing is changed when it is shown. -/
theorem meets_showing {t : Tensor} {h : Handle} {n : NodeId} (hw : w.env.world.Sound)
    (hh : t.owned.held = some h) (ho : w.env.world.object? h = some (.tensor n)) :
    Meets (In engine calm w) (view setting showData t) (fun _ => In engine calm w) E :=
  (meets_shown hS hw hh ho).imp_result fun _ _ h => h.2

theorem meets_showingAll (hw : w.env.world.Sound) {ts : List Tensor}
    (ht : ∀ t ∈ ts, ∃ h n, t.owned.held = some h ∧ w.env.world.object? h = some (.tensor n)) :
    Meets (In engine calm w) (ts.mapM (view setting showData)) (fun _ => In engine calm w) E := by
  refine (Meets.mapM (R := fun _ => True) fun t hm => ?_).imp_result
    fun _ _ h => h.2
  obtain ⟨h, n, hh, ho⟩ := ht t hm
  exact (meets_showing hS hw hh ho).imp_result fun _ _ h => ⟨trivial, h⟩

/-- A new tensor is shown and stored. -/
theorem meets_kept {t : Tensor} {h : Handle} {n : NodeId} (hw : w.env.world.Sound)
    (hh : t.owned.held = some h) (ho : w.env.world.object? h = some (.tensor n)) :
    Meets (In engine calm w) (keep setting showData name t) (fun shown s =>
      shown = viewOf showData w.env.world.store t n ∧
      In engine calm (w.fill .tensor name t) s) E := by
  refine .bind (meets_shown hS hw hh ho) fun shown => .assume fun hshown => ?_
  exact .bind (meets_storing hS .tensor t) fun _ => .pure fun _ h => ⟨hshown, h⟩

theorem meets_keeping {t : Tensor} {h : Handle} {n : NodeId} (hw : w.env.world.Sound)
    (hh : t.owned.held = some h) (ho : w.env.world.object? h = some (.tensor n)) :
    Meets (In engine calm w) (keep setting showData name t)
      (fun _ => In engine calm (w.fill .tensor name t)) E :=
  (meets_kept hS hw hh ho).imp_result fun _ _ h => h.2

/-- Tensors are put into slots as far as there are names for them. -/
theorem meets_storingAll : ∀ (names : List String) (ts : List Tensor) {w : State α (Engine α)},
    Meets (In engine calm w) (storeTensors setting names ts)
      (fun _ => In engine calm (w.fillAll names ts)) E
  | [], [], _ | _ :: _, [], _ => .pure fun _ h => h
  | [], t :: _, _ => .bind (meets_moving (hS.meets_discard t.owned)) fun _ => meets_storingAll [] _
  | _ :: names, t :: ts, _ =>
    .bind (meets_storing hS .tensor t) fun _ => meets_storingAll names ts

end DiffTensor.HostSession
