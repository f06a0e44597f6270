import DiffTensor.Proofs.HostLayer
import DiffTensor.Proofs.Refusal

/-!
# Handles over whole sessions

Between two steps of a session all that is held is owned by the wrappers in the slots, each
handle by one of them, and the log of all steps agrees (`Kept`). Every step keeps this, whether
it succeeds or fails.
-/

namespace DiffTensor

/-! ## Wrappers in slots -/

namespace Slots

variable {β : Type} (owner : β → Host.Owned) {slots : Slots β} {name : String} {x : β}

/-- What the wrappers in slots hold. -/
def holdings (slots : Slots β) : Multiset Holding :=
  (slots.filled.map fun slot => (owner slot.2).holdings).sum

/-- Every slot has a name of its own, and all wrappers are of one kind. -/
structure Tidy (kind : ResourceKind) (slots : Slots β) : Prop where
  names : (slots.filled.map Prod.fst).Nodup
  kinds : ∀ slot ∈ slots.filled, (owner slot.2).kind = kind

theorem tidy_empty (kind : ResourceKind) : Tidy owner kind {} :=
  ⟨List.nodup_nil, fun _ h => absurd h List.not_mem_nil⟩

theorem holdings_insert :
    (slots.insert name x).holdings owner = (owner x).holdings + (slots.erase name).holdings owner :=
  List.sum_cons

variable {owner} {kind : ResourceKind}

theorem mem_of_find? (h : slots.find? name = some x) : (name, x) ∈ slots.filled := by
  obtain ⟨filled⟩ := slots
  simp only [find?] at h
  induction filled with
  | nil => cases h
  | cons slot filled ih =>
    obtain ⟨key, y⟩ := slot
    by_cases hn : name = key
    · obtain rfl : y = x := by simpa [List.lookup_cons, hn] using h
      rw [hn]
      exact List.mem_cons_self
    · have hb : (name == key) = false := beq_false_of_ne hn
      refine List.mem_cons_of_mem _ (ih ?_)
      simpa [List.lookup_cons, hb] using h

/-- Emptying a slot takes away what its wrapper held. -/
theorem Tidy.holdings_erase (h : Tidy owner kind slots) (name : String) :
    ((slots.find? name).elim 0 fun x => (owner x).holdings) + (slots.erase name).holdings owner =
      slots.holdings owner := by
  have hnames := h.names
  obtain ⟨filled⟩ := slots
  simp only [find?, Slots.erase, holdings] at hnames ⊢
  clear h
  induction filled with
  | nil => rfl
  | cons slot filled ih =>
    obtain ⟨key, y⟩ := slot
    obtain ⟨hnot, hnames⟩ := List.nodup_cons.1 hnames
    by_cases hn : name = key
    · have hf : filled.filter (fun slot => slot.1 ≠ name) = filled := by
        refine List.filter_eq_self.2 fun other ho => ?_
        have hne : other.1 ≠ key := fun he => hnot (List.mem_map.2 ⟨other, ho, he⟩)
        simpa [hn] using hne
      rw [List.filter_cons_of_neg (by simp [hn]), hf, List.map_cons, List.sum_cons]
      simp [hn]
    · have hb : (name == key) = false := beq_false_of_ne hn
      rw [List.filter_cons_of_pos (by simpa using Ne.symm hn), List.map_cons, List.sum_cons,
        List.map_cons, List.sum_cons, ← ih hnames, add_left_comm]
      simp [List.lookup_cons, hb]

theorem Tidy.erase (h : Tidy owner kind slots) (name : String) :
    Tidy owner kind (slots.erase name) := by
  refine ⟨(List.filter_sublist.map _).nodup h.names, fun slot hs => ?_⟩
  exact h.kinds slot (List.mem_filter.1 hs).1

theorem Tidy.insert (h : Tidy owner kind slots) (name : String) (hx : (owner x).kind = kind) :
    Tidy owner kind (slots.insert name x) := by
  refine ⟨List.nodup_cons.2 ⟨fun hm => ?_, (h.erase name).names⟩, fun slot hs => ?_⟩
  · obtain ⟨slot, hs, hn⟩ := List.mem_map.1 hm
    simpa [hn] using (List.mem_filter.1 hs).2
  · rcases List.mem_cons.1 hs with rfl | hs
    · exact hx
    · exact (h.erase name).kinds slot hs

/-- What is in a slot is listed. -/
theorem Tidy.listed (h : Tidy owner kind slots) (hf : slots.find? name = some x) :
    (owner x).Listed kind (slots.holdings owner) := by
  have hk := h.kinds _ (mem_of_find? hf)
  refine ⟨hk, fun k hh => ?_⟩
  rw [← h.holdings_erase name, hf]
  refine Multiset.mem_add.2 (.inl ?_)
  simp only [Option.elim_some, Host.Owned.holdings, hh]
  rw [← hk]
  exact Multiset.mem_singleton_self _

end Slots

namespace HostSession

open Host (Tensor Layer)

variable {α V β : Type}

/-! ## The state of a session -/

namespace State

/-- What the wrappers in all slots hold. -/
def holdings (s : State α V) : Multiset Holding :=
  (s.slots .tensor).holdings Wrapper.owned + (s.slots .layer).holdings Wrapper.owned +
    (s.slots .optimizer).holdings Wrapper.owned

/-- In each slot there is a wrapper of the right kind. -/
def Tidy (s : State α V) : Prop := ∀ kind, (s.slots kind).Tidy Wrapper.owned kind

variable {s : State α V} {kind : ResourceKind}

theorem slots_setSlots (slots : Slots (Wrapper α kind)) :
    (s.setSlots kind slots).slots kind = slots := by
  cases kind <;> rfl

theorem env_setSlots (slots : Slots (Wrapper α kind)) : (s.setSlots kind slots).env = s.env := by
  cases kind <;> rfl

theorem slots_withEnv (env : Env V) : State.slots { s with env } = s.slots := by
  funext kind
  cases kind <;> rfl

theorem holdings_setSlots (slots : Slots (Wrapper α kind)) :
    (s.setSlots kind slots).holdings + (s.slots kind).holdings Wrapper.owned =
      slots.holdings Wrapper.owned + s.holdings := by
  cases kind <;> simp only [holdings, setSlots, State.slots] <;> ac_rfl

theorem Tidy.withEnv (h : s.Tidy) (env : Env V) : State.Tidy { s with env } := by
  intro kind
  rw [slots_withEnv]
  exact h kind

theorem Tidy.setSlots (h : s.Tidy) {slots : Slots (Wrapper α kind)}
    (hs : slots.Tidy Wrapper.owned kind) : (s.setSlots kind slots).Tidy := by
  intro other
  by_cases ho : other = kind
  · subst ho
    rw [slots_setSlots]
    exact hs
  · have he : (s.setSlots kind slots).slots other = s.slots other := by
      cases kind <;> cases other <;> first | rfl | exact absurd rfl ho
    rw [he]
    exact h other

/-- What is in a slot is listed. -/
theorem Tidy.listed (h : s.Tidy) {name : String} {x : Wrapper α kind}
    (hf : (s.slots kind).find? name = some x) : x.owned.Listed kind s.holdings := by
  refine ((h kind).listed hf).mono ?_
  cases kind with
  | tensor => exact (Multiset.le_add_right _ _).trans (Multiset.le_add_right _ _)
  | layer => exact (Multiset.le_add_left _ _).trans (Multiset.le_add_right _ _)
  | optimizer => exact Multiset.le_add_left _ _

end State

/-- What an earlier wrapper holds, if there is one. -/
def heldByOld {kind : ResourceKind} (old : Option (Wrapper α kind)) : Multiset Holding :=
  old.elim 0 fun x => x.owned.holdings

/-- Filling a slot takes away what its wrapper held before. -/
theorem State.Tidy.holdings_put {s : State α V} {kind : ResourceKind} (h : s.Tidy) (name : String)
    (x : Wrapper α kind) :
    (s.setSlots kind ((s.slots kind).insert name x)).holdings +
      heldByOld ((s.slots kind).find? name) = x.owned.holdings + s.holdings := by
  have hp := State.holdings_setSlots (s := s) ((s.slots kind).insert name x)
  rw [Slots.holdings_insert, ← (h kind).holdings_erase name] at hp
  refine add_right_cancel (b := ((s.slots kind).erase name).holdings Wrapper.owned) ?_
  rw [heldByOld, add_assoc, hp]
  ac_rfl

/-- Emptying a slot takes away what its wrapper held. -/
theorem State.Tidy.holdings_erase {s : State α V} (h : s.Tidy) (kind : ResourceKind)
    (name : String) : (s.setSlots kind ((s.slots kind).erase name)).holdings +
      heldByOld ((s.slots kind).find? name) = s.holdings := by
  have hp := State.holdings_setSlots (s := s) ((s.slots kind).erase name)
  rw [← (h kind).holdings_erase name] at hp
  refine add_right_cancel (b := ((s.slots kind).erase name).holdings Wrapper.owned) ?_
  rw [heldByOld, add_assoc, hp]
  ac_rfl

/-- The same setting; calls to the libraries are written down. -/
def Setting.journaled (setting : Setting α V) : Setting α (Journal α V) where
  libraries := setting.libraries.journaled
  inject fault j := { j with world := setting.inject fault j.world }
  census j := setting.census j.world

/-- The books agree with the slots: the wrappers in slots hold `slots`, and `loose` is what
wrappers without a slot hold. -/
structure Kept (Valid : V → Multiset Holding → Prop) (past : List Event)
    (slots loose untraced : Multiset Holding) (s : State α (Journal α V)) : Prop where
  books : Books Valid past (slots + loose) 0 untraced s.env
  counted : s.holdings = slots
  tidy : s.Tidy

variable {Valid : V → Multiset Holding → Prop} {past : List Event}
  {slots loose untraced : Multiset Holding} {s : State α (Journal α V)}
  {E : Answer α → State α (Journal α V) → Prop}

/-- Wrappers may be moved between slots and hands. -/
theorem Kept.move (h : Kept Valid past slots loose untraced s) {s' : State α (Journal α V)}
    (hs : s'.Tidy) (he : s'.env = s.env) {loose' : Multiset Holding}
    (hb : s'.holdings + loose' = slots + loose) :
    Kept Valid past s'.holdings loose' untraced s' :=
  ⟨by rw [hb, he]; exact h.books, rfl, hs⟩

theorem Kept.listed (h : Kept Valid past slots loose untraced s) {kind : ResourceKind}
    {name : String} {x : Wrapper α kind} (hf : (s.slots kind).find? name = some x) :
    x.owned.Listed kind (slots + loose) :=
  (h.tidy.listed hf).mono (h.counted ▸ Multiset.le_add_right _ _)

/-! ## Parts of steps -/

theorem meets_perform {W : Type} {action : Action W β} {P : State α W → Prop}
    {Q : β → State α W → Prop} {E : Answer α → State α W → Prop}
    (h : ∀ s, P s → Meets (fun env => env = s.env) action (fun x env => Q x { s with env })
      fun e env => E (.failed e) { s with env }) : Meets P (perform action) Q E := by
  intro s hs
  have h := h s hs s.env rfl
  revert h
  unfold perform
  rcases action s.env with ⟨_ | _, env⟩ <;> exact id

/-- An operation of the host, as a part of a step. -/
theorem meets_operation {action : Action (Journal α V) β} {R : β → Prop}
    {gain : β → Multiset Holding}
    (h : Meets (Books Valid past (slots + loose) 0 untraced) action
      (fun x env => R x ∧ Books Valid past (gain x + (slots + loose)) 0 untraced env)
      fun _ env => Books Valid past (slots + loose) 0 untraced env)
    (hE : ∀ e s, Kept Valid past slots loose untraced s → E e s) :
    Meets (Kept Valid past slots loose untraced) (perform action)
      (fun x s => R x ∧ Kept Valid past slots (gain x + loose) untraced s) E := by
  refine meets_perform fun s hs => h.mono (fun env he => he ▸ hs.books) (fun x env hx => ?_)
    fun e env hb => hE _ _ ⟨hb, hs.counted, hs.tidy.withEnv env⟩
  rw [add_left_comm] at hx
  exact ⟨hx.1, hx.2, hs.counted, hs.tidy.withEnv env⟩

/-- An operation that neither makes nor gives back anything. -/
theorem meets_inquiring {action : Action (Journal α V) β}
    (h : Meets (Books Valid past (slots + loose) 0 untraced) action
      (fun _ env => Books Valid past (slots + loose) 0 untraced env)
      fun _ env => Books Valid past (slots + loose) 0 untraced env)
    (hE : ∀ e s, Kept Valid past slots loose untraced s → E e s) :
    Meets (Kept Valid past slots loose untraced) (perform action)
      (fun _ s => Kept Valid past slots loose untraced s) E :=
  meets_perform fun _ hs => h.mono (fun _ he => he ▸ hs.books)
    (fun _ env hb => ⟨hb, hs.counted, hs.tidy.withEnv env⟩)
    fun _ env hb => hE _ _ ⟨hb, hs.counted, hs.tidy.withEnv env⟩

theorem meets_filledSlot {kind : ResourceKind} {name : String}
    (hE : ∀ e s, Kept Valid past slots loose untraced s → E e s) :
    Meets (Kept Valid past slots loose untraced) (filledSlot kind name)
      (fun x s => (s.slots kind).find? name = some x ∧ Kept Valid past slots loose untraced s)
      E := by
  intro s hs
  unfold filledSlot
  cases hf : (s.slots kind).find? name with
  | none => exact hE _ s hs
  | some x => exact ⟨hf, hs⟩

/-- What is found in a slot is listed. -/
theorem meets_found {kind : ResourceKind} {name : String}
    (hE : ∀ e s, Kept Valid past slots loose untraced s → E e s) :
    Meets (Kept Valid past slots loose untraced) (filledSlot kind name)
      (fun x s => x.owned.Listed kind (slots + loose) ∧
        Kept Valid past slots loose untraced s) E :=
  (meets_filledSlot hE).mono (fun _ h => h) (fun _ _ h => ⟨h.2.listed h.1, h.2⟩) fun _ _ h => h

/-- Every part keeps the books, for some contents of the slots. -/
def Settled (Valid : V → Multiset Holding → Prop) (past : List Event)
    (loose untraced : Multiset Holding) (s : State α (Journal α V)) : Prop :=
  ∃ slots, Kept Valid past slots loose untraced s

section Custody

variable {setting : Setting α V} (hc : Custody setting.libraries Valid)
include hc

theorem meets_letGo (o : Host.Owned) :
    Meets (Kept Valid past slots (o.holdings + loose) untraced)
      (perform (o.discard setting.journaled.libraries))
      (fun _ s => Settled Valid past loose untraced s) E := by
  refine meets_perform fun s hs => (Host.Owned.meets_discard hc o).mono (fun env he => ?_)
    (fun _ env hb => ⟨slots, hb, hs.counted, hs.tidy.withEnv env⟩) fun _ _ h => h
  rw [he]
  exact add_left_comm slots _ loose ▸ hs.books

theorem meets_discardOld {kind : ResourceKind} (old : Option (Wrapper α kind)) :
    Meets (Kept Valid past slots (heldByOld old + loose) untraced)
      (discardOld setting.journaled old) (fun _ s => Settled Valid past loose untraced s) E := by
  cases old with
  | none => exact .pure fun _ h => ⟨slots, by simpa [heldByOld] using h⟩
  | some x => exact meets_letGo hc x.owned

/-- A wrapper that is stored is in a slot, and the wrapper that was there goes away. -/
theorem meets_store (kind : ResourceKind) {name : String} {x : Wrapper α kind}
    (hx : x.owned.kind = kind) :
    Meets (Kept Valid past slots (x.owned.holdings + loose) untraced)
      (store setting.journaled kind name x)
      (fun _ s => Settled Valid past loose untraced s) E := by
  intro s hs
  have hb : (s.setSlots kind ((s.slots kind).insert name x)).holdings +
      (heldByOld ((s.slots kind).find? name) + loose) = slots + (x.owned.holdings + loose) := by
    rw [← add_assoc, hs.tidy.holdings_put, hs.counted]
    ac_rfl
  have ht := hs.tidy.setSlots ((hs.tidy kind).insert name hx)
  exact meets_discardOld hc _ _ (hs.move ht (State.env_setSlots _) hb)

theorem meets_dropFrom {kind : ResourceKind} {name : String} :
    Meets (Kept Valid past slots loose untraced) (dropFrom setting.journaled kind name)
      (fun _ s => Settled Valid past loose untraced s) E := by
  intro s hs
  have hb : (s.setSlots kind ((s.slots kind).erase name)).holdings +
      (heldByOld ((s.slots kind).find? name) + loose) = slots + loose := by
    rw [← add_assoc, hs.tidy.holdings_erase, hs.counted]
  have ht := hs.tidy.setSlots ((hs.tidy kind).erase name)
  have hk := hs.move ht (State.env_setSlots _) hb
  exact Meets.bind (Q := fun (_ : Answer α) s => Settled Valid past loose untraced s)
    (meets_discardOld hc ((s.slots kind).find? name))
    (f := fun _ => pure (.dropped ((s.slots kind).find? name).isSome))
    (fun _ => .pure fun _ h => h) _ hk

/-- A wrapper has been changed, and what it holds is all that changed in the books; in its slot
it is still as it was. -/
structure Changed (Valid : V → Multiset Holding → Prop) (past : List Event)
    (untraced : Multiset Holding) {kind : ResourceKind} (name : String) (x x' : Wrapper α kind)
    (s : State α (Journal α V)) : Prop where
  found : (s.slots kind).find? name = some x
  tidy : s.Tidy
  kind_eq : x'.owned.kind = kind
  books : ∃ rest, s.holdings = x.owned.holdings + rest ∧
    Books Valid past (x'.owned.holdings + rest) 0 untraced s.env

omit hc in
theorem meets_change {kind : ResourceKind} {name : String} {x : Wrapper α kind}
    {action : Action (Journal α V) (Wrapper α kind)}
    (ha : ∀ rest, x.owned.Listed kind (x.owned.holdings + rest) →
      Meets (Books Valid past (x.owned.holdings + rest) 0 untraced) action
        (fun x' env => x'.owned.kind = kind ∧
          Books Valid past (x'.owned.holdings + rest) 0 untraced env)
        fun _ env => Books Valid past (x.owned.holdings + rest) 0 untraced env)
    (hE : ∀ e s, Kept Valid past slots 0 untraced s → E e s) :
    Meets (fun s => (s.slots kind).find? name = some x ∧ Kept Valid past slots 0 untraced s)
      (perform action) (fun x' s => Changed Valid past untraced name x x' s) E := by
  refine meets_perform fun s ⟨hf, hs⟩ => ?_
  have hr := hs.tidy.holdings_erase kind name
  rw [hf, add_comm] at hr
  obtain ⟨rest, hr⟩ : ∃ rest, x.owned.holdings + rest = s.holdings := ⟨_, hr⟩
  have hk := (hs.tidy.listed hf).kind_eq
  refine (ha rest (Host.Owned.listed_of_le hk (Multiset.le_add_right _ _))).mono (fun env he => ?_)
    (fun x' env hx => ?_) fun e env hb => ?_
  · rw [hr, hs.counted, he, ← add_zero slots]
    exact hs.books
  · refine ⟨?_, hs.tidy.withEnv env, hx.1, _, hr.symm, hx.2⟩
    rw [State.slots_withEnv]
    exact hf
  · refine hE _ _ ⟨?_, hs.counted, hs.tidy.withEnv env⟩
    rw [hr, hs.counted] at hb
    rw [add_zero]
    exact hb

omit hc in
theorem meets_put {kind : ResourceKind} {name : String} {x x' : Wrapper α kind} :
    Meets (Changed Valid past untraced name x x') (put kind name x')
      (fun _ s => Settled Valid past 0 untraced s) E := by
  intro s hs
  obtain ⟨rest, hr, hb⟩ := hs.books
  have hp := hs.tidy.holdings_put name x'
  rw [hs.found, hr] at hp
  have hh : (s.setSlots kind ((s.slots kind).insert name x')).holdings =
      x'.owned.holdings + rest := by
    refine add_right_cancel (b := x.owned.holdings) ?_
    rw [add_assoc, add_comm rest]
    exact hp
  refine ⟨_, ?_, hh, hs.tidy.setSlots ((hs.tidy kind).insert name hs.kind_eq)⟩
  rw [add_zero, State.env_setSlots]
  exact hb

/-- Giving a wrapper's handle back, once, changes nothing but what it holds. -/
theorem Wrapper.meets_destroy {kind : ResourceKind} (x : Wrapper α kind)
    {owned raw : Multiset Holding} :
    Meets (Books Valid past (x.owned.holdings + owned) raw untraced)
      (x.destroy setting.libraries.journaled)
      (fun x' env => x'.owned = { x.owned with held := none } ∧
        Books Valid past owned raw untraced env)
      (fun _ env => x.owned.held = none ∧
        Books Valid past (x.owned.holdings + owned) raw untraced env) := by
  cases kind with
  | tensor =>
    exact Meets.bind (Host.Owned.meets_release hc _) fun _ => .pure fun _ h => h
  | layer =>
    exact Meets.bind (Host.Owned.meets_release hc _) fun _ => .pure fun _ h => h
  | optimizer =>
    exact Meets.bind (Host.Owned.meets_release hc _) fun _ => .pure fun _ h => h

theorem meets_destroyAt {kind : ResourceKind} {name : String}
    (hE : ∀ e s, Kept Valid past slots 0 untraced s → E e s) :
    Meets (Kept Valid past slots 0 untraced) (destroyAt setting.journaled kind name)
      (fun _ s => Settled Valid past 0 untraced s) E := by
  refine Meets.bind (meets_filledSlot hE) fun x => ?_
  refine Meets.bind (meets_change (fun rest hx => ?_) hE) fun x' => ?_
  · refine (x.meets_destroy hc).mono (fun _ h => h) (fun x' env h => ?_) fun _ _ h => h.2
    rw [h.1]
    exact ⟨hx.kind_eq, by simpa [Host.Owned.holdings] using h.2⟩
  · exact Meets.bind meets_put fun _ => .pure fun _ h => h

section View

variable [Scalar α] {showData : Bool}

theorem meets_view {t : Tensor} (ht : t.owned.Listed .tensor (slots + loose)) :
    Meets (Kept Valid past slots loose untraced) (view setting.journaled showData t)
      (fun _ s => Kept Valid past slots loose untraced s) E := by
  unfold view
  split
  · refine Meets.bind (meets_perform fun s hs => ?_) fun _ => .pure fun _ h => h
    exact (Action.meets_attempt_either (Host.Tensor.meets_values hc ht)).mono
      (fun env he => he ▸ hs.books) (fun _ env hb => ⟨hb, hs.counted, hs.tidy.withEnv env⟩)
      fun _ _ h => h
  · exact .pure fun _ h => h

/-- A new tensor is stored. -/
theorem meets_keep {out : String} {t : Tensor} (ht : t.owned.kind = .tensor) :
    Meets (Kept Valid past slots (t.owned.holdings + loose) untraced)
      (keep setting.journaled showData out t)
      (fun _ s => Settled Valid past loose untraced s) E := by
  have hl : t.owned.Listed .tensor (slots + (t.owned.holdings + loose)) :=
    Host.Owned.listed_of_le ht ((Multiset.le_add_right _ _).trans (Multiset.le_add_left _ _))
  refine Meets.bind (meets_view hc hl) fun _ => ?_
  refine Meets.bind (meets_store hc .tensor ht) fun _ => ?_
  exact .pure fun _ h => h

end View

theorem meets_storeTensors : ∀ (names : List String) {ts : List Tensor}
    {slots loose : Multiset Holding}, (∀ t ∈ ts, t.owned.kind = .tensor) →
      Meets (Kept Valid past slots (Host.heldBy ts + loose) untraced)
        (storeTensors setting.journaled names ts)
        (fun _ s => Settled Valid past loose untraced s) E
  | [], [], slots, _, _ | _ :: _, [], slots, _, _ =>
    .pure fun _ h => ⟨slots, by simpa using h⟩
  | [], t :: ts, slots, loose, ht => by
    obtain ⟨-, hts⟩ := List.forall_mem_cons.1 ht
    rw [Host.heldBy_cons, add_assoc]
    refine Meets.bind (meets_letGo hc t.owned) fun _ => ?_
    exact Meets.exists_left fun slots => meets_storeTensors [] hts
  | name :: names, t :: ts, slots, loose, ht => by
    obtain ⟨hk, hts⟩ := List.forall_mem_cons.1 ht
    rw [Host.heldBy_cons, add_assoc]
    refine Meets.bind (meets_store hc .tensor hk) fun _ => ?_
    exact Meets.exists_left fun slots => meets_storeTensors names hts

end Custody

/-! ## Steps -/

/-- The step's dimensions are signed words, they and its data lie in memory, and a failure that it
orders leaves the libraries such as callers rely on. -/
def Step.Admissible (Valid : V → Multiset Holding → Prop) (setting : Setting α V) : Step α → Prop
  | .filled _ _ dims _ => Words (some dims)
  | .ofValues _ data dims _ => data.length < Extent.allocationLimit ∧ Words dims
  | .inject fault => ∀ world held, Valid world held → Valid (setting.inject fault world) held
  | _ => True

/-- The step takes the parameters of a layer out. -/
def Step.Exports : Step α → Prop
  | .parameters .. => True
  | _ => False

/-- The books after a step that has failed: only taking out parameters can leave something that
the log does not tell. -/
def Failed (Valid : V → Multiset Holding → Prop) (past : List Event) (untraced : Multiset Holding)
    (step : Step α) (e : Answer α) (s : State α (Journal α V)) : Prop :=
  ∃ untraced', Settled Valid past 0 untraced' s ∧
    (untraced' = untraced ∨ step.Exports ∧ ∃ cause, e = .failed cause)

theorem Kept.failed {step : Step α} (e : Answer α) (s : State α (Journal α V))
    (h : Kept Valid past slots 0 untraced s) : Failed Valid past untraced step e s :=
  ⟨untraced, ⟨slots, h⟩, .inl rfl⟩

section Steps

variable {setting : Setting α V} (hc : Custody setting.libraries Valid) [Scalar α]
  {showData : Bool} {step : Step α}
include hc

/-- A new tensor of an operation is stored and shown. -/
theorem meets_newTensor {action : Action (Journal α V) Tensor} {out : String}
    (h : Meets (Books Valid past (slots + 0) 0 untraced) action
      (fun t env => t.owned.kind = .tensor ∧
        Books Valid past (t.owned.holdings + (slots + 0)) 0 untraced env)
      fun _ env => Books Valid past (slots + 0) 0 untraced env) :
    Meets (Kept Valid past slots 0 untraced)
      (do let t ← perform action
          return (.tensor (← keep setting.journaled showData out t) : Answer α))
      (fun _ s => Settled Valid past 0 untraced s) (Failed Valid past untraced step) := by
  refine Meets.bind (meets_operation h Kept.failed) fun t => Meets.assume fun ht => ?_
  exact Meets.bind (meets_keep hc ht) fun _ => .pure fun _ h => h

omit hc [Scalar α] in
theorem meets_plain {action : Action (Journal α V) β} {f : β → Answer α}
    (h : Meets (Books Valid past (slots + 0) 0 untraced) action
      (fun _ env => Books Valid past (slots + 0) 0 untraced env)
      fun _ env => Books Valid past (slots + 0) 0 untraced env) :
    Meets (Kept Valid past slots 0 untraced) (do return f (← perform action))
      (fun _ s => Settled Valid past 0 untraced s) (Failed Valid past untraced step) :=
  Meets.bind (meets_inquiring h Kept.failed) fun _ => .pure fun _ h => ⟨slots, h⟩

omit [Scalar α] in
theorem meets_takeParameters {l : Layer} (hl : l.owned.Listed .layer (slots + 0))
    {name : String} {outs : List String} :
    Meets (Kept Valid past slots 0 untraced) (perform (l.parameters setting.journaled.libraries))
      (fun ts s => Host.Fresh ts ∧ Kept Valid past slots (Host.heldBy ts + 0) untraced s)
      (Failed Valid past untraced (.parameters name outs)) := by
  refine meets_perform fun s hs => (Host.Layer.meets_parameters hc hl).mono
    (fun env he => he ▸ hs.books) (fun ts env ht => ?_) fun e env hb => ?_
  · obtain ⟨hf, hb⟩ := ht
    exact ⟨hf, add_left_comm slots _ 0 ▸ hb, hs.counted, hs.tidy.withEnv env⟩
  · obtain ⟨u, hb⟩ := hb
    exact ⟨u, ⟨slots, hb, hs.counted, hs.tidy.withEnv env⟩, .inr ⟨trivial, e, rfl⟩⟩

variable (showData) in
/-- Every step keeps the books, whether it succeeds or fails. -/
theorem meets_run (step : Step α) (hstep : step.Admissible Valid setting) :
    Meets (Kept Valid past slots 0 untraced) (run setting.journaled showData step)
      (fun _ s => Settled Valid past 0 untraced s) (Failed Valid past untraced step) := by
  cases step with
  | seed library value =>
    exact meets_plain (f := fun _ => .done) ((meets_inquiry hc (.seed value) trivial
      (fun a ha => absurd ha List.not_mem_nil) (fun _ => rfl) fun _ => rfl).mono
        (fun _ h => h) (fun _ _ h => h.2) fun _ _ h => h)
  | filled library filling dims out =>
    exact meets_newTensor hc (Host.Tensor.meets_filled hc hstep)
  | ofValues library values dims out =>
    exact meets_newTensor hc (Host.Tensor.meets_ofValues hc hstep.1 hstep.2)
  | binary op a b out =>
    refine Meets.bind (meets_found Kept.failed) fun a => Meets.assume fun ha => ?_
    refine Meets.bind (meets_found Kept.failed) fun b => Meets.assume fun hb => ?_
    exact meets_newTensor hc (Host.Tensor.meets_binary hc ha hb)
  | unary op a out =>
    refine Meets.bind (meets_found Kept.failed) fun a => Meets.assume fun ha => ?_
    exact meets_newTensor hc (Host.Tensor.meets_unary hc ha)
  | values a =>
    refine Meets.bind (meets_found Kept.failed) fun a => Meets.assume fun ha => ?_
    exact meets_plain (Host.Tensor.meets_values hc ha)
  | item a =>
    refine Meets.bind (meets_found Kept.failed) fun a => Meets.assume fun ha => ?_
    exact meets_plain (Host.Tensor.meets_item hc ha)
  | info a =>
    refine Meets.bind (meets_found Kept.failed) fun a => Meets.assume fun _ => ?_
    exact .pure fun _ h => ⟨slots, h⟩
  | debug a =>
    refine Meets.bind (meets_found Kept.failed) fun a => Meets.assume fun _ => ?_
    exact .pure fun _ h => ⟨slots, h⟩
  | setTracked a flag =>
    refine Meets.bind (meets_filledSlot Kept.failed) fun t => ?_
    refine Meets.bind (meets_change (fun rest ht => ?_) Kept.failed) fun t' => ?_
    · refine (Host.Tensor.meets_setTracked hc ht).mono (fun _ h => h) (fun t' env h => ?_)
        fun _ _ h => h
      show t'.owned.kind = _ ∧ Books Valid past (t'.owned.holdings + rest) 0 untraced env
      rw [h.1]
      exact ⟨ht.kind_eq, h.2⟩
    · exact Meets.bind meets_put fun _ => .pure fun _ h => h
  | backward a =>
    refine Meets.bind (meets_found Kept.failed) fun a => Meets.assume fun ha => ?_
    exact meets_plain (f := fun _ => .done) (Host.Tensor.meets_backward hc ha)
  | gradient a out =>
    refine Meets.bind (meets_found Kept.failed) fun a => Meets.assume fun ha => ?_
    refine Meets.bind (meets_operation (Host.Tensor.meets_gradient hc ha) Kept.failed)
      fun g => Meets.assume fun hg => ?_
    cases g with
    | none => exact .pure fun _ h => ⟨slots, by simpa using h⟩
    | some g => exact Meets.bind (meets_keep hc (hg g rfl)) fun _ => .pure fun _ h => h
  | linear library inputs outputs out =>
    refine Meets.bind (meets_operation (Host.Layer.meets_create hc) Kept.failed)
      fun l => Meets.assume fun hl => ?_
    exact Meets.bind (meets_store hc .layer hl) fun _ => .pure fun _ h => h
  | forward layer a out =>
    refine Meets.bind (meets_found Kept.failed) fun layer => Meets.assume fun hl => ?_
    refine Meets.bind (meets_found Kept.failed) fun a => Meets.assume fun ha => ?_
    exact meets_newTensor hc (Host.Layer.meets_forward hc hl ha)
  | parameters layer outs =>
    refine Meets.bind (meets_found Kept.failed) fun l => Meets.assume fun hl => ?_
    refine Meets.bind (meets_takeParameters hc hl) fun ts => Meets.assume fun ht => ?_
    have hv : ∀ t ∈ ts, Meets (Kept Valid past slots (Host.heldBy ts + 0) untraced)
        (view setting.journaled showData t)
        (fun _ s => True ∧ Kept Valid past slots (Host.heldBy ts + 0) untraced s)
        (Failed Valid past untraced (.parameters layer outs)) := by
      intro t hm
      have hle : t.owned.holdings ≤ slots + (Host.heldBy ts + 0) := by
        rw [add_zero]
        exact (Host.holdings_le_heldBy hm).trans (Multiset.le_add_left _ _)
      refine (meets_view hc (Host.Owned.listed_of_le (ht t hm).1 hle)).mono (fun _ h => h)
        (fun _ _ h => ⟨trivial, h⟩) fun _ _ h => h
    refine Meets.bind (Meets.mapM hv) fun views => Meets.assume fun _ => ?_
    exact Meets.bind (meets_storeTensors hc outs fun t hm => (ht t hm).1) fun _ =>
      .pure fun _ h => h
  | layerInfo layer =>
    refine Meets.bind (meets_found Kept.failed) fun _ => Meets.assume fun _ => ?_
    exact .pure fun _ h => ⟨slots, h⟩
  | adam library params rates out =>
    refine Meets.bind (Meets.mapM fun _ _ => meets_found Kept.failed)
      fun ts => Meets.assume fun ht => ?_
    refine Meets.bind (meets_operation (Host.Optimizer.meets_adam hc ht) Kept.failed)
      fun o => Meets.assume fun ho => ?_
    exact Meets.bind (meets_store hc .optimizer ho) fun _ => .pure fun _ h => h
  | sgd library params rates out =>
    refine Meets.bind (Meets.mapM fun _ _ => meets_found Kept.failed)
      fun ts => Meets.assume fun ht => ?_
    refine Meets.bind (meets_operation (Host.Optimizer.meets_sgd hc ht) Kept.failed)
      fun o => Meets.assume fun ho => ?_
    exact Meets.bind (meets_store hc .optimizer ho) fun _ => .pure fun _ h => h
  | step optimizer =>
    refine Meets.bind (meets_found Kept.failed) fun o => Meets.assume fun ho => ?_
    exact meets_plain (f := fun _ => .done) (Host.Optimizer.meets_step hc ho)
  | clearGradients optimizer =>
    refine Meets.bind (meets_found Kept.failed) fun o => Meets.assume fun ho => ?_
    exact meets_plain (f := fun _ => .done) (Host.Optimizer.meets_clearGradients hc ho)
  | optimizerInfo optimizer =>
    refine Meets.bind (meets_found Kept.failed) fun _ => Meets.assume fun _ => ?_
    exact .pure fun _ h => ⟨slots, h⟩
  | destroy kind name =>
    exact meets_destroyAt hc Kept.failed
  | drop kind name =>
    exact (meets_dropFrom hc)
  | inject fault =>
    intro s hs
    refine ⟨slots, ⟨⟨hs.books.orderly, hs.books.counted, ?_⟩, hs.books.traced, hs.books.handedOut⟩,
      hs.counted, hs.tidy.withEnv _⟩
    exact hstep _ _ hs.books.valid
  | census =>
    intro s hs
    exact ⟨slots, hs⟩

end Steps

/-! ## Giving handles back -/

/-- Between two states one handle was given back, and of all events about handles the log has got
just this one. -/
structure GivenBack (x : Holding) (e : Event) (s t : State α (Journal α V)) : Prop where
  calls : t.env.world.calls = ⟨x.library, .release x.kind (some x.handle), ()⟩ :: s.env.world.calls
  log : ∃ events, t.env.log = s.env.log ++ e :: events ∧ ∀ e ∈ events, e.face? = none

section GivingBack

variable {setting : Setting α V} (hc : Custody setting.libraries Valid) {kind : ResourceKind}
  {name : String} {h : Handle}
include hc

theorem release_eq {o : Host.Owned} (hh : o.held = some h) (s : State α (Journal α V)) :
    ∃ env, o.release setting.journaled.libraries s.env = (.ok { o with held := none }, env) ∧
      GivenBack ⟨o.library, o.kind, h⟩ (.released o.kind h) s { s with env } := by
  unfold Host.Owned.release
  rw [Host.Owned.handle_eq_ok.2 hh]
  refine ⟨_, rfl, rfl, _, ?_, hc.quiet o.library (.release o.kind (some h)) s.env.world.world⟩
  exact List.append_assoc ..

theorem discard_eq {o : Host.Owned} (hh : o.held = some h) (s : State α (Journal α V)) :
    ∃ env, o.discard setting.journaled.libraries s.env = (.ok (), env) ∧
      GivenBack ⟨o.library, o.kind, h⟩ (.leaked o.kind h) s { s with env } := by
  unfold Host.Owned.discard
  rw [hh]
  refine ⟨_, rfl, rfl, _, ?_, hc.quiet o.library (.release o.kind (some h)) s.env.world.world⟩
  exact List.append_assoc ..

theorem discardOld_eq {x : Wrapper α kind} (hh : x.owned.held = some h)
    (s : State α (Journal α V)) :
    ∃ env, discardOld setting.journaled (some x) s = (.ok (), { s with env }) ∧
      GivenBack ⟨x.owned.library, x.owned.kind, h⟩ (.leaked x.owned.kind h) s { s with env } := by
  obtain ⟨env, he, hg⟩ := discard_eq hc hh s
  refine ⟨env, ?_, hg⟩
  show perform (x.owned.discard setting.journaled.libraries) s = _
  rw [perform, he]
  rfl

theorem destroy_eq {x : Wrapper α kind} (hh : x.owned.held = some h)
    (s : State α (Journal α V)) :
    ∃ x' env, x.destroy setting.journaled.libraries s.env = (.ok x', env) ∧
      x'.owned = { x.owned with held := none } ∧
      GivenBack ⟨x.owned.library, x.owned.kind, h⟩ (.released x.owned.kind h) s { s with env } := by
  obtain ⟨env, he, hg⟩ := release_eq hc hh s
  cases kind with
  | tensor => exact ⟨_, env, bind_of_ok he _, rfl, hg⟩
  | layer => exact ⟨_, env, bind_of_ok he _, rfl, hg⟩
  | optimizer => exact ⟨_, env, bind_of_ok he _, rfl, hg⟩

omit hc in
theorem GivenBack.of_env {x : Holding} {e : Event} {s t s' t' : State α (Journal α V)}
    (hg : GivenBack x e s t) (hs : s'.env = s.env) (ht : t'.env = t.env) :
    GivenBack x e s' t' :=
  ⟨by rw [hs, ht]; exact hg.calls, by rw [hs, ht]; exact hg.log⟩

variable {x : Wrapper α kind} {s : State α (Journal α V)}
  (hf : (s.slots kind).find? name = some x) (hh : x.owned.held = some h)
include hf hh

/-- Destroying a live wrapper gives its handle back on request. -/
theorem answer_destroy [Scalar α] {showData : Bool} :
    ∃ t x', setting.journaled.answer showData (.destroy kind name) s = (.done, t) ∧
      (t.slots kind).find? name = some x' ∧ x'.owned = { x.owned with held := none } ∧
      GivenBack ⟨x.owned.library, x.owned.kind, h⟩ (.released x.owned.kind h) s t := by
  obtain ⟨x', env, he, hx', hg⟩ := destroy_eq hc hh s
  have hp : perform (x.destroy setting.journaled.libraries) s = (.ok x', { s with env }) := by
    rw [perform, he]
    rfl
  have hr : run setting.journaled showData (.destroy kind name) s = (.ok .done,
      State.setSlots { s with env } kind ((State.slots { s with env } kind).insert name x')) :=
    (filledSlot_bind hf _).trans (bind_of_ok hp _)
  refine ⟨_, x', by rw [Setting.answer, hr], ?_, hx', hg.of_env rfl (State.env_setSlots _)⟩
  rw [State.slots_setSlots, Slots.find?_insert, if_pos rfl]

/-- Dropping a live wrapper is a leak. -/
theorem answer_drop [Scalar α] {showData : Bool} :
    ∃ t, setting.journaled.answer showData (.drop kind name) s = (.dropped true, t) ∧
      (t.slots kind).find? name = none ∧
      GivenBack ⟨x.owned.library, x.owned.kind, h⟩ (.leaked x.owned.kind h) s t := by
  obtain ⟨env, he, hg⟩ := discardOld_eq hc hh (s.setSlots kind ((s.slots kind).erase name))
  have hr : run setting.journaled showData (.drop kind name) s = (.ok (.dropped true),
      { s.setSlots kind ((s.slots kind).erase name) with env }) := by
    rw [← hf] at he
    refine (bind_of_ok he _).trans ?_
    rw [hf]
    rfl
  refine ⟨_, by rw [Setting.answer, hr], ?_, hg.of_env (State.env_setSlots _).symm rfl⟩
  rw [State.slots_withEnv, State.slots_setSlots, Slots.find?_erase, if_pos rfl]

/-- Putting something else into the slot of a live wrapper is a leak. -/
theorem store_eq (x' : Wrapper α kind) :
    ∃ t, store setting.journaled kind name x' s = (.ok (), t) ∧
      (t.slots kind).find? name = some x' ∧
      GivenBack ⟨x.owned.library, x.owned.kind, h⟩ (.leaked x.owned.kind h) s t := by
  obtain ⟨env, he, hg⟩ := discardOld_eq hc hh (s.setSlots kind ((s.slots kind).insert name x'))
  rw [← hf] at he
  refine ⟨_, he, ?_, hg.of_env (State.env_setSlots _).symm rfl⟩
  rw [State.slots_withEnv, State.slots_setSlots, Slots.find?_insert, if_pos rfl]

end GivingBack

/-! ## Sessions -/

/-- The state after a list of steps. -/
def Setting.after [Scalar α] (setting : Setting α V) (showData : Bool) :
    List (Step α) → State α V → State α V
  | [], s => s
  | step :: rest, s =>
    Setting.after setting showData rest (setting.answer showData step { s with env.log := [] }).2

/-- All that was reported during a list of steps. -/
def Setting.wholeLog [Scalar α] (setting : Setting α V) (showData : Bool) (steps : List (Step α))
    (s : State α V) : List Event :=
  (setting.answers showData steps s).flatMap Prod.snd

/-- A step that took the parameters of a layer out has failed. -/
def ExportFailed (steps : List (Step α)) (answers : List (Answer α × List Event)) : Prop :=
  ∃ p ∈ steps.zip answers, p.1.Exports ∧ ∃ cause, p.2.1 = .failed cause

theorem Settled.nextLog (h : Settled Valid past loose untraced s) :
    Settled Valid (past ++ s.env.log) loose untraced { s with env.log := [] } := by
  obtain ⟨slots, hb, hs, ht⟩ := h
  refine ⟨slots, ⟨hb.toStock, ?_, ?_⟩, hs, ht.withEnv _⟩
  · simpa using hb.traced
  · simpa using hb.handedOut

section Sessions

variable [Scalar α] {setting : Setting α V} (hc : Custody setting.libraries Valid)
  (showData : Bool)
include hc

/-- The books are kept over one step. -/
theorem settled_answer {step : Step α} (hstep : step.Admissible Valid setting)
    (h : Settled Valid past 0 untraced s) :
    ∃ untraced', Settled Valid past 0 untraced' (setting.journaled.answer showData step s).2 ∧
      (untraced' = untraced ∨ step.Exports ∧
        ∃ cause, (setting.journaled.answer showData step s).1 = .failed cause) := by
  obtain ⟨slots, hs⟩ := h
  have hr := meets_run hc showData step hstep s hs
  revert hr
  unfold Setting.answer
  rcases run setting.journaled showData step s with ⟨_ | _, s'⟩
  · exact id
  · exact fun h => ⟨untraced, h, .inl rfl⟩

/-- The books are kept over a whole session. -/
theorem settled_after : ∀ {steps : List (Step α)},
    (∀ step ∈ steps, step.Admissible Valid setting) →
    ∀ {past : List Event} {untraced : Multiset Holding} {s : State α (Journal α V)},
      Settled Valid past 0 untraced { s with env.log := [] } →
      ∃ untraced', Settled Valid (past ++ setting.journaled.wholeLog showData steps s) 0 untraced'
          { setting.journaled.after showData steps s with env.log := [] } ∧
        (untraced' = untraced ∨ ExportFailed steps (setting.journaled.answers showData steps s))
  | [], _, past, untraced, s, h => by
    refine ⟨untraced, ?_, .inl rfl⟩
    rw [Setting.wholeLog, Setting.answers, List.flatMap_nil, List.append_nil]
    exact h
  | step :: rest, hsteps, past, untraced, s, h => by
    obtain ⟨hstep, hrest⟩ := List.forall_mem_cons.1 hsteps
    obtain ⟨u, hu, hfirst⟩ := settled_answer hc showData hstep h
    obtain ⟨u', hu', hlater⟩ := settled_after hrest hu.nextLog
    rw [List.append_assoc] at hu'
    refine ⟨u', hu', ?_⟩
    rcases hlater with rfl | ⟨p, hp, he⟩
    · rcases hfirst with rfl | he
      · exact .inl rfl
      · exact .inr ⟨_, List.mem_cons_self, he⟩
    · exact .inr ⟨p, List.mem_cons_of_mem _ hp, he⟩

end Sessions

end HostSession

end DiffTensor
