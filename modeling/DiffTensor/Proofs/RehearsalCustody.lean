import DiffTensor.Library.Rehearsal
import DiffTensor.Proofs.Books

/-!
# Rehearsing keeps custody

Callers can rely on a library that can be relied on also where failures are rehearsed in front of
it, as long as these are failures that a library can have (`Fault.Honest`, `custody_rehearsed`):
a call is either passed on, or nothing is handed out and the library behind does not notice
(`Rehearsal.passed_or_stopped`).
-/

namespace DiffTensor

variable {α W : Type}

/-- The failure is one that a library can have: an object that is made is not reported as a
failure, no success is reported where nothing is listed, and dimensions lie in memory. -/
structure Fault.Honest (f : Fault) : Prop where
  made : f.carriedOut = true → f.status.getD .success = .success
  listed : f.entry = some .parameters → f.status.getD .success ≠ .success
  counted : f.entry = some .rank → f.number < Extent.allocationLimit

theorem Fault.take_spec (entry : Entry) : ∀ {faults : List Fault},
    (∀ f ∈ faults, f.Honest) → (∀ f ∈ (take entry faults).2, f.Honest) ∧
      ∀ f ∈ (take entry faults).1, f.Honest ∧ f.entry = some entry
  | [], h => ⟨h, by simp [take]⟩
  | f :: faults, h => by
    obtain ⟨hf, hfaults⟩ := List.forall_mem_cons.1 h
    obtain ⟨hrest, hfound⟩ := take_spec entry hfaults
    unfold take
    split
    · rename_i he
      split
      · exact ⟨List.forall_mem_cons.2 ⟨⟨hf.made, hf.listed, hf.counted⟩, hfaults⟩, by simp⟩
      · refine ⟨hfaults, fun g hg => ?_⟩
        obtain rfl := Option.some.inj hg
        exact ⟨hf, he⟩
    · exact ⟨List.forall_mem_cons.2 ⟨hf, hrest⟩, hfound⟩

namespace Rehearsal

variable {inner : Library α W} {c : Call α} {r : Rehearsal W}
  {out : c.Reply × Rehearsal W × List Event}

/-- The library behind was asked, and all that was handed out is what it handed out. -/
structure Passed (inner : Library α W) (c : Call α) (r : Rehearsal W)
    (out : c.Reply × Rehearsal W × List Event) : Prop where
  world : out.2.1.inner = (inner.answer c r.inner).2.1
  handedOut : c.handedOut out.1 = c.handedOut (inner.answer c r.inner).1
  honest : c.Honest (inner.answer c r.inner).1 → c.Honest out.1

/-- The library behind was not asked, and nothing was handed out or given back. -/
structure Stopped (c : Call α) (r : Rehearsal W) (out : c.Reply × Rehearsal W × List Event) :
    Prop where
  world : out.2.1.inner = r.inner
  handedOut : c.handedOut out.1 = []
  honest : c.Honest out.1
  keeps : ∀ kind k, c ≠ .release kind k

theorem passed_passOn : Passed inner c r (r.passOn inner c) := ⟨rfl, rfl, id⟩

theorem Passed.congr {r' : Rehearsal W} (h : Passed inner c r' out) (hr : r'.inner = r.inner) :
    Passed inner c r out := by
  obtain ⟨hw, ho, hh⟩ := h
  rw [hr] at hw ho hh
  exact ⟨hw, ho, hh⟩

/-- A fault stops a call, or changes nothing but the status of what is made. -/
theorem passed_or_stopped_apply {f : Fault} (hf : f.Honest) (hc : f.entry = some c.entry)
    (hk : ∀ kind k, c ≠ .release kind k) :
    Passed inner c r (r.apply inner f c) ∨ Stopped c r (r.apply inner f c) := by
  cases c with
  | create body hasStatus =>
    by_cases hm : f.carriedOut
    · simp only [apply, hm, if_true]
      refine .inl ⟨rfl, rfl, fun hh hs => ?_⟩
      obtain ⟨hst, hs'⟩ := hh hs
      refine ⟨hst, ?_⟩
      have hok := hf.made hm
      simp only [hst, if_true]
      cases hx : f.status with
      | none => exact hs'
      | some status =>
        rw [hx] at hok
        exact congrArg some hok
    · simp only [apply, hm]
      exact .inr ⟨rfl, rfl, fun hs => absurd hs Bool.false_ne_true, hk⟩
  | parameters layer hasBuffer length =>
    refine .inr ⟨rfl, rfl, ?_, hk⟩
    exact (if_neg (hf.listed hc)).mpr rfl
  | query body =>
    cases body with
    | rank tensor => exact .inr ⟨rfl, rfl, hf.counted hc, hk⟩
    | size tensor | tracked tensor | parameterCount layer =>
      exact .inr ⟨rfl, rfl, trivial, hk⟩
  | release kind k => exact absurd rfl (hk kind k)
  | seed | lastError | command | shape | copyData | gradient =>
    exact .inr ⟨rfl, rfl, trivial, hk⟩

theorem faults_apply (f : Fault) (c : Call α) : (r.apply inner f c).2.1.faults = r.faults := by
  cases c with
  | create body hasStatus =>
    unfold apply
    dsimp only
    split <;> rfl
  | _ => rfl

theorem passed_or_stopped_obey (hr : ∀ f ∈ r.faults, f.Honest)
    (hk : ∀ kind k, c ≠ .release kind k) :
    (∀ f ∈ (r.obey inner c).2.1.faults, f.Honest) ∧
      (Passed inner c r (r.obey inner c) ∨ Stopped c r (r.obey inner c)) := by
  obtain ⟨hrest, hfound⟩ := Fault.take_spec c.entry hr
  unfold obey
  revert hrest hfound
  rcases Fault.take c.entry r.faults with ⟨_ | f, faults⟩
  · exact fun hrest _ => ⟨hrest, .inl (passed_passOn.congr rfl)⟩
  · intro hrest hfound
    obtain ⟨hf, hc⟩ := hfound f rfl
    refine ⟨by rw [faults_apply]; exact hrest, ?_⟩
    rcases passed_or_stopped_apply hf hc hk with h | h
    · exact .inl (h.congr rfl)
    · exact .inr ⟨h.world, h.handedOut, h.honest, hk⟩

/-- Whatever is rehearsed, a call is passed on or stopped, and the faults that are still to come
are such as a library can have. -/
theorem passed_or_stopped (hr : ∀ f ∈ r.faults, f.Honest) (c : Call α) :
    (∀ f ∈ (r.answer inner c).2.1.faults, f.Honest) ∧
      (Passed inner c r (r.answer inner c) ∨ Stopped c r (r.answer inner c)) := by
  cases c with
  | seed value => exact ⟨hr, .inl passed_passOn⟩
  | lastError buffer =>
    simp only [answer]
    split
    · exact ⟨hr, .inr ⟨rfl, rfl, trivial, nofun⟩⟩
    · exact ⟨hr, .inl passed_passOn⟩
  | release kind k =>
    cases k with
    | none => exact ⟨hr, .inl passed_passOn⟩
    | some k => exact ⟨hr, .inl ⟨rfl, rfl, id⟩⟩
  | create | command | query | shape | copyData | parameters | gradient =>
    exact passed_or_stopped_obey hr nofun

/-- Nothing is reported but what the library behind reports. -/
theorem events_answer (inner : Library α W) (c : Call α) (r : Rehearsal W) :
    (r.answer inner c).2.2 = (inner.answer c r.inner).2.2 ∨ (r.answer inner c).2.2 = [] := by
  have hobey : (r.obey inner c).2.2 = (inner.answer c r.inner).2.2 ∨ (r.obey inner c).2.2 = [] := by
    unfold obey
    rcases Fault.take c.entry r.faults with ⟨_ | f, faults⟩
    · exact .inl rfl
    · cases c with
      | create body hasStatus =>
        simp only [apply]
        split
        · exact .inl rfl
        · exact .inr rfl
      | _ => exact .inr rfl
  cases c with
  | seed value | release kind k => exact .inl rfl
  | lastError buffer =>
    simp only [answer]
    split
    · exact .inr rfl
    · exact .inl rfl
  | create | command | query | shape | copyData | parameters | gradient => exact hobey

end Rehearsal

/-- The library behind a rehearsing one is in order, and all failures that have been ordered are
such as a library can have. -/
structure Rehearsal.Orderly (Valid : W → Multiset Holding → Prop) (r : Rehearsal W)
    (held : Multiset Holding) : Prop where
  behind : Valid r.inner held
  faults : ∀ f ∈ r.faults, f.Honest

/-- Callers can rely on a library that can be relied on also where failures are rehearsed in front
of it. -/
theorem custody_rehearsed {inner : Library α W} {Valid : W → Multiset Holding → Prop}
    (hc : Custody (fun _ => inner) Valid) {libs : Libraries α (Rehearsal W)}
    (hl : ∀ library, libs library = .direct inner ∨ libs library = .rehearsed inner) :
    Custody libs (Rehearsal.Orderly Valid) := by
  have hspec : ∀ (library : LibraryId) (c : Call α) (r : Rehearsal W),
      (∀ f ∈ r.faults, f.Honest) → (∀ f ∈ ((libs library).answer c r).2.1.faults, f.Honest) ∧
        (Rehearsal.Passed inner c r ((libs library).answer c r) ∨
          Rehearsal.Stopped c r ((libs library).answer c r)) := by
    intro library c r hr
    rcases hl library with h | h
    · rw [h]
      exact ⟨hr, .inl ⟨rfl, rfl, id⟩⟩
    · rw [h]
      exact Rehearsal.passed_or_stopped hr c
  constructor
  · exact fun h => hc.distinct h.behind
  · intro r held library c h hr hb
    obtain ⟨hf, hp | hs⟩ := hspec library c r h.faults
    · refine ⟨?_, hf⟩
      have hv := hc.valid library c h.behind hr hb
      rw [hp.world]
      unfold Exchange.onto Exchange.gained Exchange.returned at hv ⊢
      rw [hp.handedOut]
      exact hv
    · refine ⟨?_, hf⟩
      rw [hs.world, Exchange.onto_of_ne hs.keeps]
      unfold Exchange.gained
      rw [hs.handedOut]
      exact (zero_add held).symm ▸ h.behind
  · intro r held library c h hr hb
    obtain ⟨-, hp | hs⟩ := hspec library c r h.faults
    · exact hp.honest (hc.honest library c h.behind hr hb)
    · exact hs.honest
  · intro library c r e he
    rcases hl library with h | h
    · rw [h] at he
      exact hc.quiet library c r.inner e he
    · rw [h] at he
      rcases Rehearsal.events_answer inner c r with hev | hev
      · exact hc.quiet library c r.inner e (hev ▸ he)
      · exact absurd (hev ▸ he) List.not_mem_nil

end DiffTensor
