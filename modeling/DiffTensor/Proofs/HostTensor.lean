import DiffTensor.Host.Operation
import DiffTensor.Proofs.Books

/-!
# What operations on tensors do to the books

Whether an operation succeeds or fails, afterwards the books hold the wrappers that were there
before, and the new wrapper if there is one: nothing is left raw, and nothing is given back that
is still owned. An operation on a wrapper that has been released makes no calls.
-/

namespace DiffTensor

variable {α V β : Type} {libs : Libraries α V} {Valid : V → Multiset Holding → Prop}
  {past : List Event} {owned raw untraced : Multiset Holding}

namespace Host.Owned

/-- What a wrapper holds. -/
def holdings (o : Owned) : Multiset Holding :=
  match o.held with
  | some h => {⟨o.library, o.kind, h⟩}
  | none => 0

/-- The wrapper is of this kind, and what it holds, if anything, is listed. -/
structure Listed (kind : ResourceKind) (owned : Multiset Holding) (o : Owned) : Prop where
  kind_eq : o.kind = kind
  mem : ∀ h, o.held = some h → ⟨o.library, kind, h⟩ ∈ owned

theorem Listed.mono {kind : ResourceKind} {owned owned' : Multiset Holding} {o : Owned}
    (h : o.Listed kind owned) (hle : owned ≤ owned') : o.Listed kind owned' :=
  ⟨h.kind_eq, fun k hk => Multiset.mem_of_le hle (h.mem k hk)⟩

theorem listed_of_le {kind : ResourceKind} {owned : Multiset Holding} {o : Owned}
    (hk : o.kind = kind) (hle : o.holdings ≤ owned) : o.Listed kind owned := by
  refine ⟨hk, fun h hh => Multiset.mem_of_le hle ?_⟩
  simp [holdings, hh, hk]

theorem handle_eq_ok {o : Owned} {h : Handle} : o.handle = .ok h ↔ o.held = some h := by
  unfold handle
  split <;> simp_all

/-- The handle of a listed wrapper is there, or the operation is refused. -/
theorem meets_handle {kind : ResourceKind} {o : Owned} (ho : o.Listed kind owned) :
    Meets (Books Valid past owned raw untraced) (Action.check o.handle)
      (fun h env => ⟨o.library, kind, h⟩ ∈ owned + raw ∧
        Books Valid past owned raw untraced env)
      (fun _ (env : Env (Journal α V)) => Books Valid past owned raw untraced env) := by
  refine Action.meets_check (fun h hh env hb => ⟨?_, hb⟩) (fun _ _ hb => hb)
  exact Multiset.mem_add.2 (.inl (ho.mem h (handle_eq_ok.1 hh)))

end Host.Owned

/-- The operation was refused, and did not crash. -/
def HostFailure.IsRefusal (e : HostFailure) : Prop := ∃ cause, e = .refused cause

/-- A check changes nothing. -/
theorem meets_check {e : Except HostError β} :
    Meets (Books Valid past owned raw untraced) (Action.check e)
      (fun x env => e = .ok x ∧ Books Valid past owned raw untraced env)
      (fun _ (env : Env (Journal α V)) => Books Valid past owned raw untraced env) :=
  Action.meets_check (fun _ hx _ hb => ⟨hx, hb⟩) fun _ _ hb => hb

theorem Action.check_ok {W : Type} (x : β) : (Action.check (.ok x) : Action W β) = pure x := rfl

theorem meets_reserve {length : Nat} {R : HostFailure → Prop}
    (hR : Extent.allocationLimit ≤ length → R (.crashed .capacity)) :
    Meets (Books Valid past owned raw untraced) (Action.reserve length)
      (fun _ (env : Env (Journal α V)) => Books Valid past owned raw untraced env)
      (fun e env => R e ∧ Books Valid past owned raw untraced env) := by
  unfold Action.reserve
  split_ifs with h
  · exact .pure fun _ hb => hb
  · exact .throw fun _ hb => ⟨hR (Nat.not_lt.1 h), hb⟩

section Calls

variable (hc : Custody libs Valid)
include hc

/-- A call that neither hands out nor gives back leaves the books as they are. -/
theorem meets_inquiry {library : LibraryId} (c : Call α) (hr : c.Representable)
    (hb : c.Backed library (owned + raw)) (hg : ∀ reply, Exchange.gained ⟨library, c, reply⟩ = 0)
    (hn : ∀ reply, Exchange.returned ⟨library, c, reply⟩ = 0)
    {E : HostFailure → Env (Journal α V) → Prop} :
    Meets (Books Valid past owned raw untraced) (Action.call (libs.journaled library) c)
      (fun reply env => c.Honest reply ∧ Books Valid past owned raw untraced env) E := by
  refine (meets_call hc c hr hb hn).mono (fun _ h => h) (fun reply env h => ?_) (fun _ _ h => h)
  rw [hg, zero_add] at h
  exact h

omit hc in
theorem errorText_eq {W : Type} (library : Library α W) :
    Action.errorText library = (do
      let full ← Action.call library (.lastError none)
      if full.length = 0 then return ""
      else
        let copied ← Action.call library
          (.lastError (some (List.replicate (full.length + 1) 0)))
        return Text.Utf8.decode (copied.buffer.take (min copied.length full.length))) := by
  simp only [Action.errorText, Library.errorText, liftM_bind]
  refine congrArg _ (funext fun full => ?_)
  split_ifs
  · rfl
  · rw [liftM_bind]
    rfl

theorem meets_errorText {library : LibraryId} {E : HostFailure → Env (Journal α V) → Prop} :
    Meets (Books Valid past owned raw untraced) (Action.errorText (libs.journaled library))
      (fun _ => Books Valid past owned raw untraced) E := by
  have hb : ∀ buffer, (Call.lastError buffer : Call α).Backed library (owned + raw) :=
    fun _ a ha => absurd ha List.not_mem_nil
  rw [errorText_eq]
  refine Meets.bind (meets_inquiry hc (.lastError none) trivial (hb _) (fun _ => rfl) fun _ => rfl)
    fun full => ?_
  refine Meets.assume fun _ => ?_
  split
  · exact .pure fun _ h => h
  · refine Meets.bind (meets_inquiry hc (.lastError (some _)) trivial (hb _) (fun _ => rfl)
      fun _ => rfl) fun _ => ?_
    exact .pure fun _ h => h.2

/-- A failed call is refused in the end. -/
theorem meets_statusError {library : LibraryId} {site : CallSite} {status : Status}
    {Q : β → Env (Journal α V) → Prop} :
    Meets (Books Valid past owned raw untraced)
      (Action.statusError (libs.journaled library) site status) Q
      (fun e env => e.IsRefusal ∧ Books Valid past owned raw untraced env) := by
  refine (meets_errorText hc).bind fun text => ?_
  split_ifs <;> exact .throw fun _ h => ⟨⟨_, rfl⟩, h⟩

theorem meets_checkStatus {library : LibraryId} {site : CallSite} {status : Status}
    {P : Env (Journal α V) → Prop}
    (hP : status ≠ .success → ∀ env, P env → Books Valid past owned raw untraced env) :
    Meets P (Action.checkStatus (libs.journaled library) site status)
      (fun _ env => status = .success ∧ P env)
      (fun e env => e.IsRefusal ∧ Books Valid past owned raw untraced env) := by
  unfold Action.checkStatus
  split_ifs with hs
  · exact .pure fun _ h => ⟨hs, h⟩
  · exact (meets_statusError hc).mono (hP hs) (fun _ _ h => h) fun _ _ h => h

/-- An object that is made is raw at first. -/
theorem meets_create {library : LibraryId} {site : CallSite} (c : Creation α Handle)
    (hr : (Call.create c true).Representable)
    (hb : (Call.create c true).Backed library (owned + raw)) :
    Meets (Books Valid past owned raw untraced)
      (Action.create (libs.journaled library) site c)
      (fun h env => Books Valid past owned (⟨library, c.kind, h⟩ ::ₘ raw) untraced env)
      (fun e env => e.IsRefusal ∧ Books Valid past owned raw untraced env) := by
  refine Meets.bind (meets_call hc (.create c true) hr hb fun _ => rfl) fun made => ?_
  refine Meets.assume fun hh => ?_
  cases hm : made.handle with
  | none =>
    have hg : Exchange.gained ⟨library, .create c true, made⟩ = 0 := by
      simp [Exchange.gained, Call.handedOut, hm]
    rw [hg, zero_add]
    refine Meets.bind (meets_checkStatus hc fun _ _ h => h) fun _ => ?_
    exact .throw fun _ h => ⟨⟨_, rfl⟩, h.2⟩
  | some h =>
    have hs : made.status = some .success := (hh (by simp [hm])).2
    have hg : Exchange.gained ⟨library, .create c true, made⟩ = {⟨library, c.kind, h⟩} := by
      simp [Exchange.gained, Call.handedOut, hm]
    rw [hg, Multiset.singleton_add]
    refine Meets.bind (meets_checkStatus hc fun hn => absurd (by rw [hs]; rfl) hn) fun _ => ?_
    exact .pure fun _ h => h.2

end Calls

namespace Host.Owned

variable (hc : Custody libs Valid)
include hc

/-- Giving a handle back succeeds once. -/
theorem meets_release (o : Owned) :
    Meets (Books Valid past (o.holdings + owned) raw untraced) (o.release libs.journaled)
      (fun o' env => o' = { o with held := none } ∧ Books Valid past owned raw untraced env)
      (fun _ env => o.held = none ∧
        Books Valid past (o.holdings + owned) raw untraced env) := by
  rcases hh : o.held with _ | h
  · have he : o.handle = .error (.released o.kind) := by simp [handle, hh]
    unfold release
    rw [he]
    exact .throw fun _ hb => ⟨rfl, hb⟩
  · have he : o.handle = .ok h := handle_eq_ok.2 hh
    have hx : o.holdings = {⟨o.library, o.kind, h⟩} := by simp [holdings, hh]
    unfold release
    rw [he, hx, Multiset.singleton_add, Action.check_ok, pure_bind]
    refine Meets.bind (meets_reportLeaving (x := ⟨o.library, o.kind, h⟩) (.inl rfl)) fun _ => ?_
    refine Meets.bind (DiffTensor.meets_release hc) fun _ => ?_
    exact .pure fun _ hb => ⟨rfl, hb⟩

/-- A wrapper that goes away leaves nothing behind, and this always succeeds. -/
theorem meets_discard (o : Owned) {E : HostFailure → Env (Journal α V) → Prop} :
    Meets (Books Valid past (o.holdings + owned) raw untraced) (o.discard libs.journaled)
      (fun _ => Books Valid past owned raw untraced) E := by
  unfold discard holdings
  cases o.held with
  | none => exact .pure fun _ hb => by simpa using hb
  | some h =>
    rw [Multiset.singleton_add]
    refine Meets.bind (meets_reportLeaving (x := ⟨o.library, o.kind, h⟩) (.inr rfl)) fun _ => ?_
    exact DiffTensor.meets_release hc

/-- If something fails on behalf of a wrapper, the wrapper goes away with its handle. -/
theorem meets_whileHolding {o : Owned} (hh : o.held ≠ none) {action : Action (Journal α V) β}
    {Q : β → Env (Journal α V) → Prop} {R : HostFailure → Prop}
    (ha : Meets (Books Valid past (o.holdings + owned) raw untraced) action Q
      fun e env => R e ∧ Books Valid past (o.holdings + owned) raw untraced env) :
    Meets (Books Valid past (o.holdings + owned) raw untraced)
      (o.whileHolding libs.journaled action) Q
      (fun e env => R e ∧ Books Valid past owned raw untraced env) := by
  unfold whileHolding
  refine Meets.bind (Action.meets_attempt ha) fun result => ?_
  rcases result with (cause | cause) | x
  · refine Meets.assume fun hR => ?_
    refine Meets.bind ((meets_release hc o).mono (fun _ h => h) (fun _ _ h => h)
      fun _ _ h => absurd h.1 hh) fun _ => ?_
    exact .throw fun _ h => ⟨hR, h.2⟩
  · refine Meets.assume fun hR => ?_
    refine Meets.bind (meets_discard hc o) fun _ => ?_
    exact .throw fun _ h => ⟨hR, h⟩
  · exact .pure fun _ h => h

end Host.Owned

theorem Call.backed_one {library : LibraryId} {kind : ResourceKind} {h : Handle} {c : Call α}
    {held : Multiset Holding} (ha : c.arguments = [(kind, some h)])
    (hx : ⟨library, kind, h⟩ ∈ held) : c.Backed library held := by
  intro a hm
  rw [ha] at hm
  obtain rfl := List.mem_singleton.1 hm
  exact ⟨h, rfl, hx⟩

theorem Call.backed_two {library : LibraryId} {kind kind' : ResourceKind} {h h' : Handle}
    {c : Call α} {held : Multiset Holding}
    (ha : c.arguments = [(kind, some h), (kind', some h')]) (hx : ⟨library, kind, h⟩ ∈ held)
    (hx' : ⟨library, kind', h'⟩ ∈ held) : c.Backed library held := by
  intro a hm
  rw [ha, List.mem_cons, List.mem_singleton] at hm
  rcases hm with rfl | rfl
  · exact ⟨h, rfl, hx⟩
  · exact ⟨h', rfl, hx'⟩

namespace Host.Tensor

variable (hc : Custody libs Valid)
include hc

/-! ## Wrapping handles -/

/-- Asking for a shape does not crash. -/
theorem meets_queryShape {library : LibraryId} {h : Handle}
    (hx : ⟨library, .tensor, h⟩ ∈ owned + raw) :
    Meets (Books Valid past owned raw untraced) (queryShape (libs.journaled library) h)
      (fun _ env => Books Valid past owned raw untraced env)
      (fun e env => e.IsRefusal ∧ Books Valid past owned raw untraced env) := by
  refine Meets.bind (meets_inquiry hc (.query (.rank (some h))) trivial (Call.backed_one rfl hx)
    (fun _ => rfl) fun _ => rfl) fun rank => Meets.assume fun hrank => ?_
  refine Meets.bind (meets_reserve fun hn => absurd hrank (Nat.not_lt.2 hn)) fun _ => ?_
  refine Meets.bind (meets_inquiry hc (.shape (some h) _) trivial (Call.backed_one rfl hx)
    (fun _ => rfl) fun _ => rfl) fun dims => Meets.assume fun _ => ?_
  refine Meets.bind (meets_checkStatus hc fun _ _ hb => hb) fun _ => ?_
  exact .pure fun _ hb => hb.2

/-- A raw handle is wrapped, or given back with a report. -/
theorem meets_wrap {library : LibraryId} {h : Handle} :
    Meets (Books Valid past owned (⟨library, .tensor, h⟩ ::ₘ raw) untraced)
      (wrap libs.journaled library h)
      (fun t env => t.owned = ⟨.tensor, library, some h⟩ ∧
        Books Valid past (⟨library, .tensor, h⟩ ::ₘ owned) raw untraced env)
      (fun e env => e.IsRefusal ∧ Books Valid past owned raw untraced env) := by
  have hx : ⟨library, .tensor, h⟩ ∈ ⟨library, .tensor, h⟩ ::ₘ owned + raw :=
    Multiset.mem_add.2 (.inl (Multiset.mem_cons_self _ _))
  refine Meets.bind meets_acquire fun o => Meets.assume fun ho => ?_
  have hh : o.held ≠ none := by simp [ho]
  have hs : ⟨library, .tensor, h⟩ ::ₘ owned = o.holdings + owned := by
    rw [ho]
    exact (Multiset.singleton_add _ _).symm
  rw [hs] at hx ⊢
  refine Meets.bind (Owned.meets_whileHolding hc hh (meets_queryShape hc hx)) fun shape => ?_
  refine Meets.bind (meets_inquiry hc (.query (.tracked (some h))) trivial (Call.backed_one rfl hx)
    (fun _ => rfl) fun _ => rfl) fun flag => ?_
  exact .pure fun _ hb => ⟨ho, hb.2⟩

/-- A tensor that is made is wrapped, unless the operation fails. -/
theorem meets_create {library : LibraryId} {site : CallSite} {c : Creation α Handle}
    (hk : c.kind = .tensor) (hr : (Call.create c true).Representable)
    (hb : (Call.create c true).Backed library (owned + raw)) :
    Meets (Books Valid past owned raw untraced) (create libs.journaled library site c)
      (fun t env => t.owned.kind = .tensor ∧
        Books Valid past (t.owned.holdings + owned) raw untraced env)
      (fun _ env => Books Valid past owned raw untraced env) := by
  refine Meets.bind (DiffTensor.meets_create hc c hr hb).forget fun h => ?_
  rw [hk]
  refine (meets_wrap hc).mono (fun _ h => h) (fun t env ht => ?_) fun _ _ h => h.2
  rw [ht.1]
  exact ⟨rfl, by simpa [Owned.holdings] using ht.2⟩

/-! ## New tensors -/

omit hc in
theorem words_passed {dims : List Int} (h : Words (some dims)) : Words (passed dims) := by
  unfold passed
  split
  · rintro l ⟨⟩
  · exact h

theorem meets_filled {library : LibraryId} {filling : Filling} {dims : List Int}
    (hd : Words (some dims)) :
    Meets (Books Valid past owned raw untraced) (filled libs.journaled library filling dims)
      (fun t env => t.owned.kind = .tensor ∧
        Books Valid past (t.owned.holdings + owned) raw untraced env)
      (fun _ env => Books Valid past owned raw untraced env) := by
  refine Meets.bind meets_check fun _ => Meets.assume fun _ => ?_
  exact meets_create hc rfl (words_passed hd) fun a ha => absurd ha List.not_mem_nil

omit hc in
theorem words_of_shapeOfValues {count : Nat} (hn : count < Extent.allocationLimit)
    {dims : Option (List Int)} (hd : Words dims) {shape : List Int}
    (h : shapeOfValues count dims = .ok shape) : Words (some shape) := by
  cases dims with
  | none =>
    cases h
    rintro l ⟨⟩
    refine ⟨(by decide : 1 < Extent.allocationLimit), fun d hd => ?_⟩
    obtain rfl := List.mem_singleton.1 hd
    unfold Extent.allocationLimit at hn
    omega
  | some dims =>
    have hs : shape = dims := by
      simp only [shapeOfValues] at h
      rcases hneg : Dims.nonNegative dims with cause | u
      · rw [hneg] at h
        split_ifs at h <;> cases h
      · rw [hneg] at h
        split_ifs at h
        · cases h
          rfl
        · cases h
    exact hs ▸ hd

theorem meets_ofValues {library : LibraryId} {values : List α} {dims : Option (List Int)}
    (hv : values.length < Extent.allocationLimit) (hd : Words dims) :
    Meets (Books Valid past owned raw untraced) (ofValues libs.journaled library values dims)
      (fun t env => t.owned.kind = .tensor ∧
        Books Valid past (t.owned.holdings + owned) raw untraced env)
      (fun _ env => Books Valid past owned raw untraced env) := by
  refine Meets.bind meets_check fun shape => Meets.assume fun hs => ?_
  refine meets_create hc rfl ⟨words_passed (words_of_shapeOfValues hv hd hs), fun l hl => ?_⟩
    fun a ha => absurd ha List.not_mem_nil
  split_ifs at hl
  cases hl
  exact hv

/-! ## Operations on tensors that are there -/

theorem meets_copyData [Zero α] {library : LibraryId} {h : Handle}
    (hx : ⟨library, .tensor, h⟩ ∈ owned + raw) :
    Meets (Books Valid past owned raw untraced) (copyData (libs.journaled library) h)
      (fun _ env => Books Valid past owned raw untraced env)
      (fun _ env => Books Valid past owned raw untraced env) := by
  refine Meets.bind (meets_inquiry hc (.query (.size (some h))) trivial (Call.backed_one rfl hx)
    (fun _ => rfl) fun _ => rfl) fun size => Meets.assume fun _ => ?_
  refine Meets.bind (meets_reserve (R := fun _ => True) fun _ => trivial).forget fun _ => ?_
  refine Meets.bind (meets_inquiry hc (.copyData (some h) true size) trivial
    (Call.backed_one rfl hx) (fun _ => rfl) fun _ => rfl) fun copy => Meets.assume fun _ => ?_
  refine Meets.bind (meets_checkStatus hc fun _ _ hb => hb).forget fun _ => ?_
  exact .pure fun _ hb => hb.2

variable {t : Tensor} (ht : t.owned.Listed .tensor owned)
include ht

theorem meets_values [Zero α] :
    Meets (Books Valid past owned raw untraced) (t.values libs.journaled)
      (fun _ env => Books Valid past owned raw untraced env)
      (fun _ env => Books Valid past owned raw untraced env) :=
  Meets.bind (Owned.meets_handle ht) fun _ => Meets.assume fun hx => meets_copyData hc hx

theorem meets_item [Zero α] :
    Meets (Books Valid past owned raw untraced) (t.item libs.journaled)
      (fun _ env => Books Valid past owned raw untraced env)
      (fun _ env => Books Valid past owned raw untraced env) := by
  refine Meets.bind (Owned.meets_handle ht) fun h => Meets.assume fun hx => ?_
  split_ifs
  · exact Meets.bind (R := fun _ _ => False) (.throw fun _ hb => hb) fun _ _ h => h.elim
  · refine Meets.bind (meets_copyData hc hx) fun values => ?_
    cases values with
    | nil => exact .throw fun _ hb => hb
    | cons x _ => exact .pure fun _ hb => hb

theorem meets_setTracked {flag : Bool} :
    Meets (Books Valid past owned raw untraced) (t.setTracked libs.journaled flag)
      (fun t' env => t'.owned = t.owned ∧ Books Valid past owned raw untraced env)
      (fun _ env => Books Valid past owned raw untraced env) := by
  refine Meets.bind (Owned.meets_handle ht) fun h => Meets.assume fun hx => ?_
  refine Meets.bind (meets_inquiry hc (.command (.setTracked (some h) flag)) trivial
    (Call.backed_one rfl hx) (fun _ => rfl) fun _ => rfl) fun status => Meets.assume fun _ => ?_
  refine Meets.bind (meets_checkStatus hc fun _ _ hb => hb).forget fun _ => ?_
  exact .pure fun _ hb => ⟨rfl, hb.2⟩

theorem meets_backward :
    Meets (Books Valid past owned raw untraced) (t.backward libs.journaled)
      (fun _ env => Books Valid past owned raw untraced env)
      (fun _ env => Books Valid past owned raw untraced env) := by
  refine Meets.bind (Owned.meets_handle ht) fun h => Meets.assume fun hx => ?_
  refine Meets.bind (meets_report rfl) fun _ => ?_
  refine Meets.bind (meets_inquiry hc (.command (.backward (some h))) trivial
    (Call.backed_one rfl hx) (fun _ => rfl) fun _ => rfl) fun status => Meets.assume fun _ => ?_
  exact (meets_checkStatus hc fun _ _ hb => hb).forget.mono (fun _ hb => hb) (fun _ _ hb => hb.2)
    fun _ _ hb => hb

theorem meets_gradient :
    Meets (Books Valid past owned raw untraced) (t.gradient libs.journaled)
      (fun g env => (∀ t', g = some t' → t'.owned.kind = .tensor) ∧
        Books Valid past ((g.elim 0 fun t' => t'.owned.holdings) + owned) raw untraced env)
      (fun _ env => Books Valid past owned raw untraced env) := by
  refine Meets.bind (Owned.meets_handle ht) fun h => Meets.assume fun hx => ?_
  refine Meets.bind (meets_call hc (.gradient (some h)) trivial (Call.backed_one rfl hx)
    fun _ => rfl) fun found => Meets.assume fun _ => ?_
  cases found with
  | none =>
    refine .pure fun _ hb => ⟨nofun, ?_⟩
    simpa [Exchange.gained, Call.handedOut] using hb
  | some k =>
    have hg : Exchange.gained ⟨t.library, (.gradient (some h) : Call α), some k⟩ =
        {⟨t.library, .tensor, k⟩} := rfl
    rw [hg, Multiset.singleton_add]
    refine Meets.bind (meets_wrap hc).forget fun g => ?_
    refine .pure fun _ hb => ⟨?_, ?_⟩
    · rintro t' ⟨⟩
      rw [hb.1]
    · show Books Valid past (g.owned.holdings + owned) raw untraced _
      rw [hb.1]
      simpa [Owned.holdings] using hb.2

theorem meets_unary {op : UnaryOp} :
    Meets (Books Valid past owned raw untraced) (unary libs.journaled op t)
      (fun y env => y.owned.kind = .tensor ∧
        Books Valid past (y.owned.holdings + owned) raw untraced env)
      (fun _ env => Books Valid past owned raw untraced env) := by
  refine Meets.bind (Owned.meets_handle ht) fun h => Meets.assume fun hx => ?_
  refine Meets.bind meets_check fun _ => Meets.assume fun _ => ?_
  exact meets_create hc rfl trivial (Call.backed_one rfl hx)

omit hc ht in
theorem library_eq_of_sameLibrary {operation : String} {a b : Owned} {u : Unit}
    (h : sameLibrary operation a b = .ok u) : a.library = b.library := by
  unfold sameLibrary at h
  split_ifs at h with hl
  exact hl

theorem meets_binary {op : BinaryOp} {t' : Tensor} (ht' : t'.owned.Listed .tensor owned) :
    Meets (Books Valid past owned raw untraced) (binary libs.journaled op t t')
      (fun y env => y.owned.kind = .tensor ∧
        Books Valid past (y.owned.holdings + owned) raw untraced env)
      (fun _ env => Books Valid past owned raw untraced env) := by
  refine Meets.bind (Owned.meets_handle ht) fun h => Meets.assume fun hx => ?_
  refine Meets.bind (Owned.meets_handle ht') fun h' => Meets.assume fun hx' => ?_
  refine Meets.bind meets_check fun _ => Meets.assume fun _ => ?_
  refine Meets.bind meets_check fun _ => Meets.assume fun hl => ?_
  rw [← library_eq_of_sameLibrary hl] at hx'
  exact meets_create hc rfl trivial (Call.backed_two rfl hx hx')

end Host.Tensor

end DiffTensor
