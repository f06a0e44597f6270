import Mathlib.Algebra.Order.Ring.Rat
import DiffTensor.Proofs.Exact
import DiffTensor.Random.Double
import DiffTensor.Scalar.Double
import DiffTensor.Proofs.Journal
import DiffTensor.Proofs.ReferenceCustody
import DiffTensor.Proofs.RehearsalCustody

/-!
# The discipline of handles

After any steps, whether they succeeded or failed, all handles that are held are owned by the
wrappers in the slots; no handle was passed to a library that was not held then, or to another
library than its own; and each one was reported when it was taken over and when it was given back
(`disciplined_after`).
-/

namespace DiffTensor.HostSession

open Host (Owned)

variable {α V : Type} [Scalar α] {Valid : V → Multiset Holding → Prop} {setting : Setting α V}

/-- What a session keeps to. In its course `log` was reported; it has come to the state `t`, which
has all calls in its journal; and of the handles that were handed out `untraced` were given back
before they were taken over. -/
structure Disciplined (setting : Setting α V) (showData : Bool) (log : List Event)
    (untraced : Multiset Holding) (t : State α (Journal α V)) : Prop where
  /-- Every call was given only handles that were held when it was made, from the library that was
  called and of the right kinds. A handle that is given back is held no longer. -/
  orderly : Orderly t.env.world.calls
  /-- What is held is what the wrappers in slots own. -/
  held : heldAfter t.env.world.calls = t.holdings
  /-- No handle has two owners. -/
  distinct : t.holdings.Nodup
  /-- Wrappers are in slots of their kinds. -/
  tidy : t.Tidy
  /-- What was taken over was given back on request, or as a leak, or is still owned. -/
  traced : acquiredIn log = releasedIn log + leakedIn log + t.holdings.map Holding.face
  /-- What was handed out was taken over. -/
  handedOut : (handedOutBy t.env.world.calls).map Holding.face =
    acquiredIn log + untraced.map Holding.face
  /-- Destroying a live wrapper gives its handle back, once, and this is reported, once. -/
  destroyed : ∀ {kind name} {x : Wrapper α kind} {h}, (t.slots kind).find? name = some x →
    x.owned.held = some h → ∃ t' x',
      setting.journaled.answer showData (.destroy kind name) t = (.done, t') ∧
      (t'.slots kind).find? name = some x' ∧ x'.owned = { x.owned with held := none } ∧
      GivenBack ⟨x.owned.library, x.owned.kind, h⟩ (.released x.owned.kind h) t t'
  /-- When a slot is emptied, a live wrapper in it is given back, and reported as a leak. -/
  dropped : ∀ {kind name} {x : Wrapper α kind} {h}, (t.slots kind).find? name = some x →
    x.owned.held = some h → ∃ t',
      setting.journaled.answer showData (.drop kind name) t = (.dropped true, t') ∧
      (t'.slots kind).find? name = none ∧
      GivenBack ⟨x.owned.library, x.owned.kind, h⟩ (.leaked x.owned.kind h) t t'
  /-- So is one in a slot that is filled again. -/
  replaced : ∀ {kind name} {x : Wrapper α kind} {h}, (t.slots kind).find? name = some x →
    x.owned.held = some h → ∀ new : Wrapper α kind, ∃ t',
      store setting.journaled kind name new t = (.ok (), t') ∧
      (t'.slots kind).find? name = some new ∧
      GivenBack ⟨x.owned.library, x.owned.kind, h⟩ (.leaked x.owned.kind h) t t'
  /-- A step that needs the handle of a released wrapper is refused for the first such wrapper,
  without a call or a report; where an optimizer is made something else may be wrong before. -/
  refused : ∀ {step : Step α} {earlier o later},
    t.owners step.operands = some (earlier ++ o :: later) →
    (∀ p ∈ earlier, p.isReleased = false) → o.isReleased = true → ¬step.WrongBefore earlier →
      setting.journaled.answer showData step t = (.failed (.refused (.released o.kind)), t)
  /-- In any case it is refused without a call or a report, for a released wrapper or for settings
  that make no sense. -/
  refusedEither : ∀ {step : Step α} {owners o}, t.owners step.operands = some owners →
    o ∈ owners → o.isReleased = true → ∃ cause,
      setting.journaled.answer showData step t = (.failed (.refused cause), t) ∧
      ((∃ p ∈ owners, p.isReleased = true ∧ cause = .released p.kind) ∨
        ∃ reason, cause = .configuration reason)

/-- Books that are kept are all that is needed. -/
theorem Settled.disciplined (hc : Custody setting.libraries Valid) {showData : Bool}
    {log : List Event} {untraced : Multiset Holding} {t : State α (Journal α V)}
    (h : Settled Valid log 0 untraced { t with env.log := [] }) :
    Disciplined setting showData log untraced t := by
  obtain ⟨slots, hb, hs, ht⟩ := h
  obtain rfl : t.holdings = slots := hs
  have he : t.holdings + 0 + 0 = t.holdings := by rw [add_zero, add_zero]
  constructor
  · exact hb.orderly
  · exact hb.counted.trans he
  · exact hc.distinct (he ▸ hb.valid)
  · exact ht.withEnv t.env
  · simpa using hb.traced
  · simpa using hb.handedOut
  · exact fun hf hh => answer_destroy hc hf hh
  · exact fun hf hh => answer_drop hc hf hh
  · exact fun hf hh new => store_eq hc hf hh new
  · exact fun hn he ho hw => answer_refused hn (Step.objection_first ho he hw)
  · intro step owners o hn hm ho
    obtain ⟨cause, hcause⟩ := step.exists_objection ho hm
    exact ⟨cause, answer_refused hn hcause, Step.objection_cases hcause⟩

omit [Scalar α] in
/-- Nothing is held at the start. -/
theorem settled_new {world : V} (hw : Valid world 0) :
    Settled Valid [] 0 0 (State.new ⟨world, []⟩ : State α (Journal α V)) := by
  refine ⟨0, ⟨⟨trivial, rfl, hw⟩, rfl, rfl⟩, rfl, fun kind => ?_⟩
  cases kind <;> exact Slots.tidy_empty _ _

/-- Any session in libraries that keep custody is disciplined. Handles that were given back before
they were taken over are there only if parameters of a layer could not be taken out. -/
theorem disciplined_after (hc : Custody setting.libraries Valid) {world : V} (hw : Valid world 0)
    (showData : Bool) {steps : List (Step α)}
    (hsteps : ∀ step ∈ steps, step.Admissible Valid setting) :
    ∃ (t : State α (Journal α V)) (untraced : Multiset Holding),
      setting.journaled.after showData steps (.new ⟨world, []⟩) = t ∧
      setting.after showData steps (.new world) = t.plain ∧
      (untraced = 0 ∨ ExportFailed steps (setting.answers showData steps (.new world))) ∧
      Disciplined setting showData (setting.wholeLog showData steps (.new world)) untraced t := by
  have hplain : State.plain (.new ⟨world, []⟩ : State α (Journal α V)) = .new world := rfl
  obtain ⟨untraced, hs, hu⟩ :=
    settled_after hc showData hsteps (s := .new ⟨world, []⟩) (settled_new hw)
  refine ⟨_, untraced, rfl, ?_, ?_, ?_⟩
  · rw [← hplain, after_plain]
  · rw [← hplain, answers_plain]
    exact hu
  · rw [Setting.wholeLog, ← hplain, answers_plain]
    exact hs.disciplined hc

/-! ## Sessions with the reference library -/

/-- The usual setting keeps custody. -/
theorem custody_rehearsing [Sampler α] :
    Custody (Setting.rehearsing (Library.reference : Library α (Engine α))).libraries
      (Rehearsal.Orderly Engine.Holds) := by
  refine custody_rehearsed custody_reference fun library => ?_
  by_cases h : library = 0
  · exact .inl (if_pos h)
  · exact .inr (if_neg h)

omit [Scalar α] in
/-- It still does when a failure is ordered that a library can have. -/
theorem admissible_inject {W : Type} {inner : Library α W} {Valid : W → Multiset Holding → Prop}
    {fault : Fault} (hf : fault.Honest) :
    (Step.inject fault).Admissible (Rehearsal.Orderly Valid) (.rehearsing inner) := by
  intro r held hr
  refine ⟨hr.behind, fun f hm => ?_⟩
  rcases List.mem_append.1 hm with hm | hm
  · exact hr.faults f hm
  · obtain rfl := List.mem_singleton.1 hm
    exact hf

/-- The parameters of a layer cannot be taken out, because a shape is not told, and an optimizer
cannot be made from a tensor that has been destroyed. -/
theorem rehearsing_disciplined_after :
    let setting : Setting Float (Rehearsal (Engine Float)) := .rehearsing .reference
    let world : Rehearsal (Engine Float) := { inner := .ofSeed 7 }
    let fault : Fault := ⟨some .shape, some .internal, false, 0, [], 1⟩
    let steps : List (Step Float) := [.filled 1 .zeros [2] "p", .linear 1 2 3 "l", .inject fault,
      .parameters "l" ["w", "b"], .destroy .tensor "p", .adam 1 ["p"] .standard "o",
      .drop .layer "l"]
    ∃ (t : State Float (Journal Float (Rehearsal (Engine Float)))) (untraced : Multiset Holding),
      setting.journaled.after true steps (.new ⟨world, []⟩) = t ∧
      setting.after true steps (.new world) = t.plain ∧
      (untraced = 0 ∨ ExportFailed steps (setting.answers true steps (.new world))) ∧
      Disciplined setting true (setting.wholeLog true steps (.new world)) untraced t := by
  intro setting world fault steps
  have hw : Rehearsal.Orderly Engine.Holds world 0 :=
    ⟨Engine.holds_ofSeed 7, fun f hf => absurd hf List.not_mem_nil⟩
  have hf : fault.Honest := ⟨nofun, nofun, nofun⟩
  have hp : Words (some [2]) := by decide
  have hsteps : ∀ step ∈ steps, step.Admissible (Rehearsal.Orderly Engine.Holds) setting := by
    simp only [steps, List.forall_mem_cons]
    exact ⟨hp, trivial, admissible_inject hf, trivial, trivial, trivial, trivial, nofun⟩
  exact disciplined_after custody_rehearsing hw true hsteps

/-- A learning rate that is not positive is found before a parameter that has been destroyed. -/
theorem rate_refused_before_released :
    let _ := Elementary.plain ℚ
    let _ : Sampler ℚ := ⟨fun s => (0, s), fun _ s => .ok (0, s)⟩
    let setting : Setting ℚ (Rehearsal (Engine ℚ)) := .rehearsing .reference
    let step : Step ℚ := .adam 0 ["p"] ⟨-1, 0, 0, 0, 0⟩ "o"
    let s := setting.after false [.filled 0 .zeros [2] "p", .destroy .tensor "p"]
      (.new { inner := .ofSeed 0 })
    s.owners step.operands = some [⟨.tensor, 0, none⟩] ∧
      setting.answer false step s = (.failed (.refused (.configuration (.learningRate ""))), s) ∧
      (setting.answer false step s).1 ≠ .failed (.refused (.released .tensor)) := by
  intro _ _ setting step s
  have hn : s.owners step.operands = some [⟨.tensor, 0, none⟩] := rfl
  have ha : setting.answer false step s =
      (.failed (.refused (.configuration (.learningRate ""))), s) := answer_refused hn rfl
  refine ⟨hn, ha, ?_⟩
  rw [ha]
  nofun

end DiffTensor.HostSession
