import Mathlib.Data.Multiset.Count
import DiffTensor.Proofs.Books
import DiffTensor.Proofs.Engine

/-!
# The reference library keeps custody

The reference library never hands out a handle that it has handed out before, and what is behind
a handle stays of its kind until it is released; so callers can rely on it (`custody_reference`).
-/

namespace DiffTensor

variable {α : Type}

/-! ## Objects and their kinds -/

namespace Engine

variable {e e' e'' : Engine α} {held : Multiset Holding} {new : List (ResourceKind × Handle)}

/-- The kind of the object behind a handle, if it has not been released. -/
def kind? (e : Engine α) (h : Handle) : Option ResourceKind := (e.object? h).map Object.kind

theorem kind?_congr (h : e'.objects = e.objects) : e'.kind? = e.kind? := by
  funext k
  rw [kind?, kind?, object?, object?, h]

theorem lt_size_of_kind? {h : Handle} {kind : ResourceKind} (hk : e.kind? h = some kind) :
    h < e.objects.size := by
  by_contra hn
  have ho : e.object? h = none := by
    rw [object?, Array.getD_eq_getD_getElem?, Array.getElem?_eq_none (Nat.le_of_not_lt hn)]
    rfl
  rw [kind?, ho] at hk
  cases hk

/-- Between two states `new` was handed out, under handles that had not been used before; what
there was is still there. -/
structure HandsOut (new : List (ResourceKind × Handle)) (e e' : Engine α) : Prop where
  size_le : e.objects.size ≤ e'.objects.size
  keeps : ∀ h kind, e.kind? h = some kind → e'.kind? h = some kind
  fresh : ∀ x ∈ new, e.objects.size ≤ x.2
  kinds : ∀ x ∈ new, e'.kind? x.2 = some x.1
  distinct : (new.map Prod.snd).Nodup

theorem handsOut_nil (h : e'.objects = e.objects) : HandsOut [] e e' := by
  refine ⟨by rw [h], fun k kind hk => ?_, by simp, by simp, List.nodup_nil⟩
  rw [kind?_congr h]
  exact hk

theorem handsOut_handOut (e : Engine α) (o : Object α) :
    HandsOut [(o.kind, (e.handOut o).1)] e (e.handOut o).2 := by
  constructor
  · show e.objects.size ≤ (e.objects.push (some o)).size
    rw [Array.size_push]
    omega
  · intro h kind hk
    have hn : h ≠ e.objects.size := Nat.ne_of_lt (lt_size_of_kind? hk)
    rw [kind?, object?_handOut, if_neg hn]
    exact hk
  · intro x hx
    obtain rfl := List.mem_singleton.1 hx
    exact Nat.le_refl _
  · intro x hx
    obtain rfl := List.mem_singleton.1 hx
    rw [kind?, object?_handOut, handOut, if_pos rfl]
    rfl
  · exact List.nodup_singleton _

theorem HandsOut.trans {new' : List (ResourceKind × Handle)} (h : HandsOut new e e')
    (h' : HandsOut new' e' e'') : HandsOut (new ++ new') e e'' := by
  constructor
  · exact h.size_le.trans h'.size_le
  · exact fun k kind hk => h'.keeps k kind (h.keeps k kind hk)
  · intro x hx
    rcases List.mem_append.1 hx with hx | hx
    · exact h.fresh x hx
    · exact h.size_le.trans (h'.fresh x hx)
  · intro x hx
    rcases List.mem_append.1 hx with hx | hx
    · exact h'.keeps _ _ (h.kinds x hx)
    · exact h'.kinds x hx
  · rw [List.map_append]
    refine List.nodup_append.2 ⟨h.distinct, h'.distinct, fun k hk k' hk' => ?_⟩
    obtain ⟨x, hx, rfl⟩ := List.mem_map.1 hk
    obtain ⟨x', hx', rfl⟩ := List.mem_map.1 hk'
    have hlt := lt_size_of_kind? (h.kinds x hx)
    exact Nat.ne_of_lt (Nat.lt_of_lt_of_le hlt (h'.fresh x' hx'))

/-- Only the objects count. -/
theorem HandsOut.congr_left (h : HandsOut new e e') (he : e''.objects = e.objects) :
    HandsOut new e'' e' := (handsOut_nil he.symm).trans h

theorem HandsOut.congr_right (h : HandsOut new e e') (he : e''.objects = e'.objects) :
    HandsOut new e e'' := List.append_nil new ▸ h.trans (handsOut_nil he)

theorem handsOut_handOutNodes : ∀ (nodes : List NodeId) (e : Engine α),
    HandsOut ((e.handOutNodes nodes).1.map fun h => (.tensor, h)) e (e.handOutNodes nodes).2
  | [], _ => handsOut_nil rfl
  | n :: rest, e => (handsOut_handOut e (.tensor n)).trans
      (handsOut_handOutNodes rest (e.handOut (.tensor n)).2)

theorem length_handOutNodes : ∀ (nodes : List NodeId) (e : Engine α),
    (e.handOutNodes nodes).1.length = nodes.length
  | [], _ => rfl
  | n :: rest, e => congrArg (· + 1) (length_handOutNodes rest (e.handOut (.tensor n)).2)

/-! ## What calls hand out -/

theorem objects_settle {β : Type} (result : Outcome β) (e : Engine α) :
    (settle result e).2.1.objects = e.objects := by
  unfold settle
  split <;> rfl

/-- An attempt succeeds with all that it made, or changes nothing that counts. -/
theorem attempt_cases {β : Type} (e : Engine α) (result : Outcome (β × Engine α)) :
    (∃ x e', result = .ok (x, e') ∧ (e.attempt result).1 = .ok x ∧
      (e.attempt result).2.1.objects = e'.objects) ∨
    ∃ status, status ≠ .success ∧ (e.attempt result).1 = .error status ∧
      (e.attempt result).2.1.objects = e.objects := by
  cases result with
  | ok new => exact .inl ⟨new.1, new.2, rfl, rfl, rfl⟩
  | error cause =>
    refine .inr ⟨cause.status, cause.status_ne_success, attempt_fst .., ?_⟩
    show (e.attempt (.error cause : Outcome (β × Engine α))).2.1.hushed.objects = e.objects
    rw [hushed_attempt]
    rfl

variable [Scalar α]

/-- A command leaves all objects of their kinds. -/
theorem handsOut_run (e : Engine α) (c : Command Handle) : HandsOut [] e (e.run c).2.1 := by
  have hr := e.ran c
  generalize e.run c = out at hr ⊢
  cases hr with
  | refused _ | setTracked _ _ | backward _ _ | clearGradients _ => exact handsOut_nil rfl
  | step ho _ =>
    have hk := object?_of_optimizer ho
    refine ⟨by simp [setOptimizer], fun h kind hh => ?_, by simp, by simp, List.nodup_nil⟩
    rw [kind?, setOptimizer, object?_setIfInBounds]
    split
    · rename_i heq
      rw [kind?, heq.1, hk] at hh
      exact hh
    · exact hh

variable [Sampler α]

omit [Scalar α] [Sampler α] in
theorem handsOut_made (e : Engine α) (new : Object α × Store α × Stream) :
    HandsOut [(new.1.kind, e.objects.size)] e (e.made new) :=
  (handsOut_handOut { e with store := new.2.1, stream := new.2.2 } new.1).congr_left rfl

/-- Whatever a call makes is handed out as one object of its kind. -/
theorem handsOut_make {c : Creation α Handle} {new : Handle × Engine α}
    (h : e.make c = .ok new) : HandsOut [(c.kind, new.1)] e new.2 := by
  rw [make_eq] at h
  cases hb : e.build c with
  | error cause =>
    rw [hb] at h
    cases h
  | ok built =>
    rw [hb] at h
    cases h
    exact kind_of_build hb ▸ handsOut_made e built

omit [Scalar α] [Sampler α] in
theorem handsOut_exportParameters {layer : Option Handle} {hasBuffer : Bool} {length : Nat}
    {new : List Handle × Engine α} (h : e.exportParameters layer hasBuffer length = .ok new) :
    HandsOut (new.1.map fun h => (.tensor, h)) e new.2 ∧ new.1.length = length := by
  obtain ⟨l, -, hlength, rfl⟩ := exportParameters_eq_ok h
  refine ⟨handsOut_handOutNodes _ _, ?_⟩
  rw [length_handOutNodes]
  exact hlength.symm

omit [Scalar α] [Sampler α] in
theorem handsOut_exportGradient {tensor : Option Handle} {new : Option Handle × Engine α}
    (h : e.exportGradient tensor = .ok new) :
    HandsOut (new.1.toList.map fun h => (.tensor, h)) e new.2 := by
  rcases exportGradient_eq_ok h with rfl | ⟨n, g, -, -, rfl⟩
  · exact handsOut_nil rfl
  · exact handsOut_handOut e (.tensor g)

/-- All that changes among the objects in a call, unless it is a release, is that new ones are
handed out. -/
theorem handsOut_answer (e : Engine α) {c : Call α} (hc : ∀ kind h, c ≠ .release kind h) :
    HandsOut (c.handedOut (e.answer c).1) e (e.answer c).2.1 := by
  cases c with
  | seed value => exact handsOut_nil rfl
  | lastError buffer => exact handsOut_nil rfl
  | release kind h => exact absurd rfl (hc kind h)
  | create body hasStatus =>
    cases hasStatus with
    | false => exact handsOut_nil rfl
    | true =>
      simp only [answer, answerCreation]
      rcases attempt_cases e (e.make body) with ⟨h, e', hm, hr, ho⟩ | ⟨status, -, hr, ho⟩
      · rw [hr]
        exact (handsOut_make hm).congr_right ho
      · rw [hr]
        exact handsOut_nil ho
  | command body => exact (handsOut_run e body).congr_right (objects_settle _ _)
  | query body => exact handsOut_nil (objects_settle _ _)
  | shape tensor hasBuffer => exact handsOut_nil (objects_settle _ _)
  | copyData tensor hasBuffer length => exact handsOut_nil (objects_settle _ _)
  | parameters layer hasBuffer length =>
    simp only [answer]
    rcases attempt_cases e (e.exportParameters layer hasBuffer length) with
      ⟨handles, e', hm, hr, ho⟩ | ⟨status, -, hr, ho⟩
    · rw [hr]
      exact (handsOut_exportParameters hm).1.congr_right ho
    · rw [hr]
      exact handsOut_nil ho
  | gradient tensor =>
    simp only [answer]
    rcases attempt_cases e (e.exportGradient tensor) with ⟨h, e', hm, hr, ho⟩ | ⟨status, -, hr, ho⟩
    · rw [hr]
      exact (handsOut_exportGradient hm).congr_right ho
    · rw [hr]
      exact handsOut_nil ho

/-- Objects are reported as made only where the call reports success. -/
theorem honest_answer (h : e.Sound) (c : Call α) : c.Honest (e.answer c).1 := by
  cases c with
  | create body hasStatus =>
    cases hasStatus with
    | false => exact fun hs => absurd hs Bool.false_ne_true
    | true =>
      simp only [answer, answerCreation]
      split
      · exact fun _ => ⟨rfl, rfl⟩
      · exact fun hs => absurd hs Bool.false_ne_true
  | parameters layer hasBuffer length =>
    simp only [answer]
    rcases attempt_cases e (e.exportParameters layer hasBuffer length) with
      ⟨handles, e', hm, hr, -⟩ | ⟨status, hs, hr, -⟩
    · rw [hr]
      exact (handsOut_exportParameters hm).2
    · rw [hr]
      exact (if_neg hs).mpr rfl
  | query body =>
    cases body with
    | rank tensor =>
      show (e.answer (.query (.rank tensor))).1 < Extent.allocationLimit
      rw [(e.answer_query _).1]
      cases hl : e.look (.rank tensor) with
      | error cause => exact (by decide : 0 < Extent.allocationLimit)
      | ok rank =>
        obtain ⟨n, -, hn⟩ := Outcome.bind_eq_ok_iff.1 hl
        cases hn
        exact (h.graph.sound.values n).proper.short
    | size tensor | tracked tensor | parameterCount layer => trivial
  | seed | lastError | release | command | shape | copyData | gradient => trivial

/-! ## What is held -/

/-- What is held are objects of the right kinds, each held once. -/
structure Holds (e : Engine α) (held : Multiset Holding) : Prop where
  sound : e.Sound
  distinct : (held.map Holding.handle).Nodup
  kinds : ∀ x ∈ held, e.kind? x.handle = some x.kind

omit [Scalar α] [Sampler α] in
theorem Holds.handsOut (h : e.Holds held) (hs : e'.Sound) (hn : HandsOut new e e')
    (library : LibraryId) : e'.Holds
      (((new.map fun object => (⟨library, object.1, object.2⟩ : Holding) : List Holding) :
        Multiset Holding) + held) := by
  refine ⟨hs, ?_, fun x hx => ?_⟩
  · rw [Multiset.map_add, Multiset.map_coe, List.map_map]
    refine Multiset.nodup_add.2 ⟨hn.distinct, h.distinct, ?_⟩
    refine Multiset.disjoint_left.2 @fun k hk hk' => ?_
    obtain ⟨x, hx, rfl⟩ := List.mem_map.1 (Multiset.mem_coe.1 hk)
    obtain ⟨y, hy, he⟩ := Multiset.mem_map.1 hk'
    have hlt := lt_size_of_kind? (h.kinds y hy)
    rw [he] at hlt
    exact Nat.not_lt_of_le (hn.fresh x hx) hlt
  · rcases Multiset.mem_add.1 hx with hx | hx
    · obtain ⟨object, ho, rfl⟩ := List.mem_map.1 (Multiset.mem_coe.1 hx)
      exact hn.kinds object ho
    · exact hn.keeps _ _ (h.kinds x hx)

omit [Scalar α] [Sampler α] in
theorem Holds.release {x : Holding} (h : e.Holds (x ::ₘ held)) :
    (e.release (some x.handle)).Holds held := by
  have hd := h.distinct
  rw [Multiset.map_cons, Multiset.nodup_cons] at hd
  refine ⟨h.sound.release _, hd.2, fun y hy => ?_⟩
  have hne : y.handle ≠ x.handle := fun he => hd.1 (he ▸ Multiset.mem_map_of_mem _ hy)
  rw [kind?, Engine.release, object?_setIfInBounds, if_neg fun hk => hne hk.1]
  exact h.kinds y (Multiset.mem_cons_of_mem hy)

omit [Scalar α] [Sampler α] in
theorem holds_ofSeed (seed : UInt64) : (ofSeed seed : Engine α).Holds 0 :=
  ⟨sound_ofSeed seed, Multiset.nodup_zero, fun x hx => absurd hx (Multiset.notMem_zero x)⟩

omit [Scalar α] [Sampler α] in
theorem quiet_settle {β : Type} (result : Outcome β) (e : Engine α) :
    ∀ ev ∈ (settle result e).2.2, ev.face? = none := by
  unfold settle
  split
  · exact fun ev h => absurd h List.not_mem_nil
  · exact fun ev h => List.mem_singleton.1 h ▸ rfl
  · exact fun ev h => absurd h List.not_mem_nil

omit [Scalar α] [Sampler α] in
theorem quiet_attempt {β : Type} (e : Engine α) (result : Outcome (β × Engine α)) :
    ∀ ev ∈ (e.attempt result).2.2, ev.face? = none := by
  unfold attempt
  split
  · exact quiet_settle _ _
  · exact quiet_settle _ _

omit [Sampler α] in
theorem quiet_run (e : Engine α) (c : Command Handle) : ∀ ev ∈ (e.run c).2.2, ev.face? = none := by
  have hr := e.ran c
  generalize e.run c = out at hr ⊢
  cases hr with
  | refused _ | setTracked _ _ | step _ _ | clearGradients _ =>
    exact fun ev h => absurd h List.not_mem_nil
  | backward _ _ =>
    unfold Store.backwardEvents
    split
    · exact fun ev h => absurd h List.not_mem_nil
    · exact fun ev h => List.mem_singleton.1 h ▸ rfl

/-- Nothing but failures and sweeps is reported. -/
theorem quiet_answer (e : Engine α) (c : Call α) : ∀ ev ∈ (e.answer c).2.2, ev.face? = none := by
  cases c with
  | seed value | lastError buffer | release kind h => exact fun ev h => absurd h List.not_mem_nil
  | create body hasStatus =>
    cases hasStatus with
    | false => exact fun ev h => absurd h List.not_mem_nil
    | true =>
      simp only [answer, answerCreation]
      split <;> exact quiet_attempt _ _
  | command body =>
    intro ev h
    rcases List.mem_append.1 h with h | h
    · exact quiet_run e body ev h
    · exact quiet_settle _ _ ev h
  | query body => exact quiet_settle _ _
  | shape tensor hasBuffer => exact quiet_settle _ _
  | copyData tensor hasBuffer length => exact quiet_settle _ _
  | parameters layer hasBuffer length => exact quiet_attempt _ _
  | gradient tensor => exact quiet_attempt _ _

end Engine

/-- Callers can rely on the reference library. -/
theorem custody_reference [Scalar α] [Sampler α] :
    Custody (fun _ => (Library.reference : Library α (Engine α))) Engine.Holds := by
  constructor
  · intro e held h
    exact .of_map _ h.distinct
  · intro e held library c h hr hb
    by_cases hk : ∃ kind k, c = .release kind k
    · obtain ⟨kind, k, rfl⟩ := hk
      obtain ⟨k, rfl, hm⟩ := hb _ (List.mem_singleton_self _)
      obtain ⟨rest, rfl⟩ := Multiset.exists_cons_of_mem hm
      rw [onto_release]
      exact h.release
    · have hk : ∀ kind k, c ≠ .release kind k := fun kind k he => hk ⟨kind, k, he⟩
      rw [Exchange.onto_of_ne hk]
      exact h.handsOut (h.sound.answer hr) (Engine.handsOut_answer e hk) library
  · intro e held library c h _ _
    exact Engine.honest_answer h.sound c
  · exact fun _ c e => Engine.quiet_answer e c

end DiffTensor
