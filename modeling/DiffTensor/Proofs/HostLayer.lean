import DiffTensor.Host.Layer
import DiffTensor.Host.Optimizer
import DiffTensor.Proofs.HostTensor

/-!
# What operations on layers and optimizers do to the books

The parameters of a layer come all at once, as raw handles that are wrapped one after the other.
If one of them cannot be wrapped, those behind it are given back as they are, which the log does
not tell, and those before it are destroyed (`meets_wrapAll`). In no other operation does a
handle come and go without a report.

The parameters of an optimizer stay with their wrappers: the new optimizer is the only thing
that is added to the books.
-/

namespace DiffTensor.Host

variable {α V : Type} {libs : Libraries α V} {Valid : V → Multiset Holding → Prop}
  {past : List Event} {owned raw untraced : Multiset Holding}

/-- What several tensors hold. -/
def heldBy (ts : List Tensor) : Multiset Holding := (ts.map fun t => t.owned.holdings).sum

@[simp] theorem heldBy_nil : heldBy [] = 0 := rfl

@[simp] theorem heldBy_cons (t : Tensor) (ts : List Tensor) :
    heldBy (t :: ts) = t.owned.holdings + heldBy ts := List.sum_cons

@[simp] theorem heldBy_append (ts us : List Tensor) :
    heldBy (ts ++ us) = heldBy ts + heldBy us := by
  simp [heldBy]

theorem holdings_le_heldBy {t : Tensor} {ts : List Tensor} (h : t ∈ ts) :
    t.owned.holdings ≤ heldBy ts := by
  obtain ⟨as, bs, rfl⟩ := List.append_of_mem h
  rw [heldBy_append, heldBy_cons]
  exact (Multiset.le_add_right _ _).trans (Multiset.le_add_left _ _)

/-- Tensors that have just been wrapped. -/
def Fresh (ts : List Tensor) : Prop := ∀ t ∈ ts, t.owned.kind = .tensor ∧ t.owned.held ≠ none

/-- Tensor handles of a library, as what is held. -/
def rawTensors (library : LibraryId) (handles : List Handle) : Multiset Holding :=
  handles.map fun h => (⟨library, .tensor, h⟩ : Holding)

theorem rawTensors_cons (library : LibraryId) (h : Handle) (handles : List Handle) :
    rawTensors library (h :: handles) = ⟨library, .tensor, h⟩ ::ₘ rawTensors library handles := rfl

namespace Layer

variable (hc : Custody libs Valid)
include hc

theorem meets_create {library : LibraryId} {inputs outputs : Nat} :
    Meets (Books Valid past owned raw untraced) (create libs.journaled library inputs outputs)
      (fun l env => l.owned.kind = .layer ∧
        Books Valid past (l.owned.holdings + owned) raw untraced env)
      (fun _ env => Books Valid past owned raw untraced env) := by
  refine Meets.bind meets_check fun _ => Meets.assume fun _ => ?_
  refine Meets.bind (DiffTensor.meets_create hc (.newLinear inputs outputs) trivial
    fun a ha => absurd ha List.not_mem_nil).forget fun h => ?_
  refine Meets.bind meets_acquire fun o => Meets.assume fun ho => ?_
  refine .pure fun _ hb => ?_
  rw [ho]
  exact ⟨rfl, by simpa [Owned.holdings, Creation.kind] using hb⟩

theorem meets_forward {l : Layer} {x : Tensor} (hl : l.owned.Listed .layer owned)
    (hx : x.owned.Listed .tensor owned) :
    Meets (Books Valid past owned raw untraced) (l.forward libs.journaled x)
      (fun y env => y.owned.kind = .tensor ∧
        Books Valid past (y.owned.holdings + owned) raw untraced env)
      (fun _ env => Books Valid past owned raw untraced env) := by
  refine Meets.bind (Owned.meets_handle hl) fun layer => Meets.assume fun hlayer => ?_
  refine Meets.bind (Owned.meets_handle hx) fun input => Meets.assume fun hinput => ?_
  refine Meets.bind meets_check fun _ => Meets.assume fun hs => ?_
  refine Meets.bind meets_check fun _ => Meets.assume fun _ => ?_
  rw [← Tensor.library_eq_of_sameLibrary hs] at hinput
  exact Tensor.meets_create hc rfl trivial (Call.backed_two rfl hlayer hinput)

/-! ## Parameters -/

theorem meets_releaseRaw {library : LibraryId} {E : HostFailure → Env (Journal α V) → Prop} :
    ∀ (handles : List Handle) {untraced : Multiset Holding},
      Meets (Books Valid past owned (rawTensors library handles + raw) untraced)
        (releaseRaw libs.journaled library (handles.map some))
        (fun _ env => ∃ untraced', Books Valid past owned raw untraced' env) E
  | [], untraced => .pure fun _ hb => ⟨untraced, by simpa [rawTensors] using hb⟩
  | h :: handles, untraced => by
    rw [rawTensors_cons, Multiset.cons_add]
    refine Meets.bind (DiffTensor.meets_releaseRaw hc) fun _ => ?_
    exact meets_releaseRaw handles

theorem meets_destroyAll {E : HostFailure → Env (Journal α V) → Prop} :
    ∀ {ts : List Tensor}, (∀ t ∈ ts, t.owned.held ≠ none) →
      Meets (Books Valid past (heldBy ts + owned) raw untraced) (destroyAll libs.journaled ts)
        (fun _ env => Books Valid past owned raw untraced env) E
  | [], _ => .pure fun _ hb => by simpa using hb
  | t :: ts, ht => by
    rw [heldBy_cons, add_assoc]
    have hd : Meets (Books Valid past (t.owned.holdings + (heldBy ts + owned)) raw untraced)
        (t.destroy libs.journaled)
        (fun _ env => Books Valid past (heldBy ts + owned) raw untraced env) E := by
      refine Meets.bind ((Owned.meets_release hc t.owned).mono (fun _ h => h) (fun _ _ h => h.2)
        fun _ _ h => absurd h.1 (ht t List.mem_cons_self)) fun _ => ?_
      exact .pure fun _ hb => hb
    refine Meets.bind hd fun _ => ?_
    exact meets_destroyAll fun t' ht' => ht t' (List.mem_cons_of_mem _ ht')

theorem meets_wrapAll {library : LibraryId} : ∀ (handles : List Handle) {wrapped : List Tensor},
    Fresh wrapped →
      Meets (Books Valid past (heldBy wrapped + owned) (rawTensors library handles + raw) untraced)
        (wrapAll libs.journaled library wrapped (handles.map some))
        (fun ts env => Fresh ts ∧ Books Valid past (heldBy ts + owned) raw untraced env)
        (fun _ env => ∃ untraced', Books Valid past owned raw untraced' env)
  | [], wrapped, hw => .pure fun _ hb => ⟨hw, by simpa [rawTensors] using hb⟩
  | h :: handles, wrapped, hw => by
    rw [rawTensors_cons, Multiset.cons_add]
    refine Meets.bind (Action.meets_attempt (Tensor.meets_wrap hc)) fun result => ?_
    rcases result with (cause | cause) | t
    · refine Meets.assume fun _ => ?_
      refine Meets.bind (meets_releaseRaw hc handles) fun _ => Meets.exists_left fun u => ?_
      refine Meets.bind (meets_destroyAll hc fun t ht => (hw t ht).2) fun _ => ?_
      exact .throw fun _ hb => ⟨u, hb⟩
    · refine Meets.assume fun hR => ?_
      obtain ⟨_, hR⟩ := hR
      cases hR
    · refine Meets.assume fun ht => ?_
      have hh : t.owned.holdings = {⟨library, .tensor, h⟩} := by rw [ht]; rfl
      have hw' : Fresh (wrapped ++ [t]) := by
        intro t' ht'
        rcases List.mem_append.1 ht' with hm | hm
        · exact hw t' hm
        · obtain rfl := List.mem_singleton.1 hm
          rw [ht]
          exact ⟨rfl, nofun⟩
      have he : ⟨library, .tensor, h⟩ ::ₘ (heldBy wrapped + owned) =
          heldBy (wrapped ++ [t]) + owned := by
        rw [heldBy_append, heldBy_cons, hh, heldBy_nil, add_zero, ← Multiset.singleton_add]
        ac_rfl
      rw [he]
      exact meets_wrapAll handles hw'

omit hc in
/-- A complete list of handles has no null in it. -/
theorem handleSlots_eq {count : Nat} {out : Written Handle} (h : out.items.length = count) :
    handleSlots count out = out.items.map some := by
  simp [handleSlots, Written.onto, ← h]

/-- Either all parameters are wrapped, or none is left. -/
theorem meets_parameters {l : Layer} (hl : l.owned.Listed .layer owned) :
    Meets (Books Valid past owned raw untraced) (l.parameters libs.journaled)
      (fun ts env => Fresh ts ∧ Books Valid past (heldBy ts + owned) raw untraced env)
      (fun _ env => ∃ untraced', Books Valid past owned raw untraced' env) := by
  have hE : ∀ (e : HostFailure) (env : Env (Journal α V)),
      Books Valid past owned raw untraced env →
        ∃ untraced', Books Valid past owned raw untraced' env := fun _ _ hb => ⟨_, hb⟩
  refine Meets.bind ((Owned.meets_handle hl).mono (fun _ h => h) (fun _ _ h => h) hE)
    fun h => Meets.assume fun hx => ?_
  refine Meets.bind (meets_inquiry hc (.query (.parameterCount (some h))) trivial
    (Call.backed_one rfl hx) (fun _ => rfl) fun _ => rfl) fun count => Meets.assume fun _ => ?_
  refine Meets.bind ((meets_reserve (R := fun _ => True) fun _ => trivial).forget.mono
    (fun _ h => h) (fun _ _ h => h) hE) fun _ => ?_
  refine Meets.bind (meets_call hc (.parameters (some h) true count) trivial
    (Call.backed_one rfl hx) fun _ => rfl) fun out => Meets.assume fun hh => ?_
  have hg : Exchange.gained ⟨l.library, (.parameters (some h) true count : Call α), out⟩ =
      rawTensors l.library out.items := by
    simp [Exchange.gained, Call.handedOut, rawTensors, Function.comp_def]
  rw [hg]
  have hfail : out.status ≠ .success → ∀ env : Env (Journal α V),
      Books Valid past owned (rawTensors l.library out.items + raw) untraced env →
        Books Valid past owned raw untraced env := by
    intro hs env hb
    have hi : out.items = [] := by simpa [Call.Honest, hs] using hh
    simpa [hi, rawTensors] using hb
  refine Meets.bind ((meets_checkStatus hc hfail).forget.mono (fun _ h => h) (fun _ _ h => h) hE)
    fun _ => Meets.assume fun hs => ?_
  have hi : out.items.length = count := by simpa [Call.Honest, hs] using hh
  rw [handleSlots_eq hi]
  refine (meets_wrapAll hc out.items fun _ ht => absurd ht List.not_mem_nil).mono
    (fun env hb => ?_) (fun _ _ h => h) fun _ _ h => h
  rw [heldBy_nil, zero_add]
  exact hb

end Layer

namespace Optimizer

/-- The handles of the parameters are held, and belong to the library. -/
theorem mem_parameterHandles {library : LibraryId} : ∀ {params : List Tensor}
    {handles : List Handle}, (∀ t ∈ params, t.owned.Listed .tensor owned) →
      parameterHandles library params = .ok handles →
      ∀ h ∈ handles, ⟨library, .tensor, h⟩ ∈ owned
  | [], _, _, hp => by
    cases hp
    exact fun _ h => absurd h List.not_mem_nil
  | t :: params, handles, ht, hp => by
    obtain ⟨hl, ht⟩ := List.forall_mem_cons.1 ht
    unfold parameterHandles at hp
    cases hh : t.owned.handle with
    | error cause =>
      rw [hh] at hp
      cases hp
    | ok h =>
      cases hr : parameterHandles library params with
      | error cause =>
        rw [hh, hr] at hp
        split_ifs at hp <;> cases hp
      | ok rest =>
        rw [hh, hr] at hp
        split_ifs at hp with hlib
        · cases hp
        · cases hp
          have ih := mem_parameterHandles ht hr
          intro k hk
          rcases List.mem_cons.1 hk with rfl | hk
          · rw [← not_not.1 hlib]
            exact hl.mem k (Owned.handle_eq_ok.1 hh)
          · exact ih k hk

theorem parameterHandles_of_some {library : LibraryId} {params : List Tensor}
    {handles : List Handle} (h : someParameterHandles library params = .ok handles) :
    parameterHandles library params = .ok handles := by
  unfold someParameterHandles at h
  cases hp : parameterHandles library params with
  | error cause =>
    rw [hp] at h
    cases h
  | ok found =>
    rw [hp] at h
    cases found with
    | nil => cases h
    | cons k rest => exact h

variable (hc : Custody libs Valid)
include hc

theorem meets_create {library : LibraryId} {kind : OptimizerKind} {rate : α}
    {handles : List Handle} {c : Creation α Handle} (hk : c.kind = .optimizer)
    (hr : (Call.create c true).Representable)
    (hb : (Call.create c true).Backed library (owned + raw)) :
    Meets (Books Valid past owned raw untraced)
      (create libs.journaled library kind rate handles c)
      (fun o env => o.owned.kind = .optimizer ∧
        Books Valid past (o.owned.holdings + owned) raw untraced env)
      (fun _ env => Books Valid past owned raw untraced env) := by
  refine Meets.bind (DiffTensor.meets_create hc c hr hb).forget fun h => ?_
  rw [hk]
  refine Meets.bind (meets_report rfl) fun _ => ?_
  refine Meets.bind meets_acquire fun o => Meets.assume fun ho => ?_
  refine .pure fun _ hb => ?_
  rw [ho]
  exact ⟨rfl, by simpa [Owned.holdings] using hb⟩

theorem meets_step {o : Optimizer α} (ho : o.owned.Listed .optimizer owned) :
    Meets (Books Valid past owned raw untraced) (o.step libs.journaled)
      (fun _ env => Books Valid past owned raw untraced env)
      (fun _ env => Books Valid past owned raw untraced env) := by
  refine Meets.bind (Owned.meets_handle ho) fun h => Meets.assume fun hx => ?_
  refine Meets.bind (meets_report rfl) fun _ => ?_
  refine Meets.bind (meets_inquiry hc (.command (.step (some h))) trivial
    (Call.backed_one rfl hx) (fun _ => rfl) fun _ => rfl) fun status => Meets.assume fun _ => ?_
  exact (meets_checkStatus hc fun _ _ hb => hb).forget.mono (fun _ hb => hb) (fun _ _ hb => hb.2)
    fun _ _ hb => hb

theorem meets_clearGradients {o : Optimizer α} (ho : o.owned.Listed .optimizer owned) :
    Meets (Books Valid past owned raw untraced) (o.clearGradients libs.journaled)
      (fun _ env => Books Valid past owned raw untraced env)
      (fun _ env => Books Valid past owned raw untraced env) := by
  refine Meets.bind (Owned.meets_handle ho) fun h => Meets.assume fun hx => ?_
  refine Meets.bind (meets_inquiry hc (.command (.clearGradients (some h))) trivial
    (Call.backed_one rfl hx) (fun _ => rfl) fun _ => rfl) fun status => Meets.assume fun _ => ?_
  exact (meets_checkStatus hc fun _ _ hb => hb).forget.mono (fun _ hb => hb) (fun _ _ hb => hb.2)
    fun _ _ hb => hb

variable [Scalar α] {library : LibraryId} {params : List Tensor}
  (ht : ∀ t ∈ params, t.owned.Listed .tensor owned)
include ht

omit hc [Scalar α] in
/-- An optimizer is made over handles that are held. -/
theorem backed_handles {handles : List Handle}
    (hp : someParameterHandles library params = .ok handles) {c : Creation α Handle}
    (ha : c.arguments = handles.map fun h => (.tensor, some h)) :
    (Call.create c true).Backed library (owned + raw) := by
  intro a hm
  have hm : a ∈ c.arguments := hm
  rw [ha, List.mem_map] at hm
  obtain ⟨h, hh, rfl⟩ := hm
  refine ⟨h, rfl, Multiset.mem_add.2 (.inl ?_)⟩
  exact mem_parameterHandles ht (parameterHandles_of_some hp) h hh

theorem meets_adam {rates : AdamRates α} :
    Meets (Books Valid past owned raw untraced) (adam libs.journaled library params rates)
      (fun o env => o.owned.kind = .optimizer ∧
        Books Valid past (o.owned.holdings + owned) raw untraced env)
      (fun _ env => Books Valid past owned raw untraced env) := by
  refine Meets.bind meets_check fun _ => Meets.assume fun _ => ?_
  refine Meets.bind meets_check fun handles => Meets.assume fun hp => ?_
  exact meets_create hc rfl trivial (backed_handles ht hp (by simp [Creation.arguments]))

theorem meets_sgd {rates : SgdRates α} :
    Meets (Books Valid past owned raw untraced) (sgd libs.journaled library params rates)
      (fun o env => o.owned.kind = .optimizer ∧
        Books Valid past (o.owned.holdings + owned) raw untraced env)
      (fun _ env => Books Valid past owned raw untraced env) := by
  refine Meets.bind meets_check fun _ => Meets.assume fun _ => ?_
  refine Meets.bind meets_check fun handles => Meets.assume fun hp => ?_
  exact meets_create hc rfl trivial (backed_handles ht hp (by simp [Creation.arguments]))

end Optimizer

end DiffTensor.Host
