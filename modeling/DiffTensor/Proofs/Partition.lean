import DiffTensor.Proofs.Alike
import DiffTensor.Proofs.Singles
import DiffTensor.Proofs.StoreFrame
import DiffTensor.Random.Double
import DiffTensor.Scalar.Double

/-!
# Sharing parameters out

The same parameters may be shared out among optimizers in several ways. Two runs of the library
that differ only in the optimizers that they step (`Engine.Rerouted`), where these are the same ones
taken apart (`Engine.Paired`), have the same graph at all times: the steps of several optimizers, one
after the other, do what each of them would do first, whatever the order (`Engine.Sound.step_batch`).
-/

namespace DiffTensor

variable {α : Type}

namespace Engine

variable {H : List Handle} {e e' : Engine α}

/-! ## Parameters stay apart -/

section Frames

open Store (Frame)

variable [Scalar α] [Sampler α]

theorem build_frame {c : Creation α Handle} {new : Object α × Store α × Stream}
    (hb : e.build c = .ok new) : Frame {} e.store new.2.1 := by
  cases built hb with
  | filled _ _ | fromData _ _ _ => exact .push _ rfl
  | binary _ _ hr => exact .binary hr
  | unary _ hr => exact .unary hr
  | newLinear hl => exact .newLinear hl
  | applyLinear _ _ hr => exact .applyLinear hr
  | adam _ _ | sgd _ _ => exact .refl _

omit [Sampler α] in
theorem Sound.run_frame (hS : e.Sound) (c : Command Handle) :
    ∃ scope, Frame scope e.store (e.run c).2.1.store := by
  have hr := e.ran c
  generalize e.run c = out at hr ⊢
  cases hr with
  | refused _ => exact ⟨{}, .refl _⟩
  | setTracked _ hs => exact ⟨{ flagged := fun _ => True }, .setTracked trivial hs⟩
  | @backward _ root _ _ _ hb =>
    have hf := hS.graph.backward_frame root
    rw [hb] at hf
    exact ⟨_, hf⟩
  | @step _ _ state _ _ _ _ hs =>
    have hf := (state.step_frame e.store).1
    rw [hs] at hf
    exact ⟨_, hf⟩
  | @clearGradients _ _ state _ => exact ⟨_, state.clearGradients_frame e.store⟩

/-- Whatever a call changes in the graph, it stays within some scope. -/
theorem Sound.answer_frame (hS : e.Sound) (c : Call α) :
    ∃ scope, Frame scope e.store (e.answer c).2.1.store := by
  obtain ⟨e', he', heq⟩ := e.effect c
  rw [store_of_hushed heq]
  cases he' with
  | idle | seed value | gradient _ _ => exact ⟨{}, .refl _⟩
  | release kind handle => cases handle <;> exact ⟨{}, .refl _⟩
  | create hb => exact ⟨_, build_frame hb⟩
  | command body => exact hS.run_frame body
  | @parameters _ _ _ l _ =>
    rw [store_handOutNodes]
    exact ⟨{}, .refl _⟩

end Frames

/-! ## Steps of several optimizers -/

/-- The parameters exist, are listed once, and none is the gradient of another one. -/
structure Separate (params : List NodeId) (e : Engine α) : Prop where
  nodup : params.Nodup
  existing : ∀ n ∈ params, n < e.store.nodes.size
  apart : e.store.Apart params

/-- The optimizer behind a handle, taken apart. -/
def parts (e : Engine α) (h : Handle) : List (Optimizer α) :=
  match e.object? h with
  | some (.optimizer opt) => opt.singles
  | _ => []

/-- One step of each optimizer. -/
def steps (P : List Handle) : List (Call α) := P.map fun h => .command (.step (some h))

theorem parts_of_object? {h : Handle} {opt : Optimizer α}
    (ho : e.object? h = some (.optimizer opt)) : e.parts h = opt.singles := by
  rw [parts, ho]

theorem parts_congr {h : Handle} (ho : e'.object? h = e.object? h) : e'.parts h = e.parts h := by
  rw [parts, ho, parts]

theorem Separate.sublist {params params' : List NodeId} (h : Separate params e)
    (hs : params'.Sublist params) : Separate params' e :=
  ⟨h.nodup.sublist hs, fun n hn => h.existing n (hs.subset hn),
    fun p hp q hq => h.apart p (hs.subset hp) q (hs.subset hq)⟩

theorem Separate.perm {params params' : List NodeId} (h : Separate params e)
    (hp : params.Perm params') : Separate params' e :=
  ⟨hp.nodup_iff.1 h.nodup, fun n hn => h.existing n (hp.mem_iff.2 hn),
    fun p hp' q hq => h.apart p (hp.mem_iff.2 hp') q (hp.mem_iff.2 hq)⟩

variable [Scalar α] [Sampler α]

/-- Calls do not make a gradient of a node that is there already. -/
theorem Separate.answer {params : List NodeId} (h : Separate params e) (hS : e.Sound) (c : Call α) :
    Separate params (e.answer c).2.1 := by
  obtain ⟨scope, hF⟩ := hS.answer_frame c
  refine ⟨h.nodup, fun n hn => Nat.lt_of_lt_of_le (h.existing n hn) hF.size_le,
    fun p hp q hq hne hg => ?_⟩
  rcases hF.fresh p q hg with hold | hle
  · exact h.apart p hp q hq hne hold
  · exact Nat.not_le.2 (h.existing q hq) hle

theorem Separate.after {params : List NodeId} (h : Separate params e) (hS : e.Sound)
    {calls : List (Call α)} (hc : ∀ c ∈ calls, c.Representable) :
    Separate params (e.after calls) :=
  (invariant_after (I := fun e => e.Sound ∧ Separate params e)
    (fun hc h => ⟨h.1.answer hc, h.2.answer h.1 _⟩) ⟨hS, h⟩ hc).2

theorem after_append (first rest : List (Call α)) (e : Engine α) :
    e.after (first ++ rest) = (e.after first).after rest := List.foldl_append

omit [Scalar α] [Sampler α] in
theorem representable_steps (P : List Handle) :
    ∀ c ∈ (steps P : List (Call α)), c.Representable := by
  intro c hc
  obtain ⟨h, -, rfl⟩ := List.mem_map.1 hc
  trivial

theorem object?_after_steps {h : Handle} {P : List Handle} (hh : h < e.objects.size) (hP : h ∉ P) :
    (e.after (steps P)).object? h = e.object? h := by
  induction P generalizing e with
  | nil => rfl
  | cons k rest ih =>
    obtain ⟨hk, hrest⟩ := not_or.1 (List.mem_cons.not.1 hP)
    have hc : Call.Spares h (.command (.step (some k)) : Call α) := by
      refine ⟨?_, nofun⟩
      rintro ⟨⟩
      exact hk rfl
    exact (ih (Nat.lt_of_lt_of_le hh (size_le_answer e _)) hrest).trans (object?_answer hh hc)

/-- A step of one optimizer leaves all else alike. -/
theorem alikeBut_step (hopt : ∀ k ∈ H, ∃ o, e.object? k = some (.optimizer o)) {h : Handle}
    (hh : h ∈ H) : AlikeBut H e (e.answer (.command (.step (some h)))).2.1 := by
  obtain ⟨opt, ho⟩ := hopt h hh
  have hset := alike_setOptimizer hopt hh ho (opt.step_frame e.store).2
  exact (hset.setStore (opt.step e.store).2.2).of_hushed (answer_step ho).2

/-- The optimizers take their steps one after the other as they would all at once. -/
theorem Sound.step_batch (hS : e.Sound) (hopt : ∀ k ∈ H, ∃ o, e.object? k = some (.optimizer o))
    {P : List Handle} (hP : ∀ h ∈ P, h ∈ H) (hd : P.Nodup)
    (hsep : Separate ((P.flatMap e.parts).flatMap Optimizer.parameters) e) :
    AlikeBut H e (e.after (steps P)) ∧
      P.flatMap (e.after (steps P)).parts =
        (P.flatMap e.parts).map (fun o => (o.step e.store).2.1) ∧
      Stepped (P.flatMap e.parts) e.store (e.after (steps P)).store := by
  induction P generalizing e with
  | nil =>
    refine ⟨⟨rfl, rfl, fun _ _ => rfl, fun k hk => ?_⟩, rfl, rfl, nofun, fun _ _ => rfl⟩
    obtain ⟨o, ho⟩ := hopt k hk
    exact ⟨o, o, ho, ho, rfl⟩
  | cons h rest ih =>
    obtain ⟨hh, hP⟩ := List.forall_mem_cons.1 hP
    obtain ⟨hfirst, hd⟩ := List.nodup_cons.1 hd
    obtain ⟨opt, ho⟩ := hopt h hh
    have hA := alikeBut_step hopt hh
    have hlt : h < e.objects.size := lt_size_of_object? ho
    have hall : (h :: rest).flatMap e.parts = opt.singles ++ rest.flatMap e.parts := by
      rw [List.flatMap_cons, parts_of_object? ho]
    rw [hall] at hsep ⊢
    have hsplit := hsep
    rw [List.flatMap_append, opt.parameters_singles] at hsplit
    have hown : Separate opt.parameters e := hsplit.sublist (List.sublist_append_left ..)
    obtain ⟨hsingles, hstepped⟩ := opt.step_apart hS.graph (hS.objects h _ ho) hown.nodup hown.apart
    rw [← store_answer_step ho] at hstepped
    have hafter : e.after (steps (h :: rest)) =
        (e.answer (.command (.step (some h)))).2.1.after (steps rest) := rfl
    have hself := object?_answer_step ho
    -- The step of the first one leaves the others as they are.
    have hothers : rest.flatMap (e.answer (.command (.step (some h)))).2.1.parts =
        rest.flatMap e.parts := by
      refine List.flatMap_congr fun k hk => ?_
      obtain ⟨o, ho⟩ := hopt k (hP k hk)
      refine parts_congr (object?_answer (lt_size_of_object? ho) ⟨?_, nofun⟩)
      rintro ⟨⟩
      exact hfirst hk
    have hsep' := (hsplit.sublist (List.sublist_append_right ..)).answer hS
      (.command (.step (some h)))
    have hS' := hS.answer (show (Call.command (.step (some h)) : Call α).Representable from trivial)
    rw [hafter]
    generalize (e.answer (.command (.step (some h)))).2.1 = e₁ at *
    have hopt' : ∀ k ∈ H, ∃ o, e₁.object? k = some (.optimizer o) := by
      intro k hk
      obtain ⟨-, o, -, ho, -⟩ := hA.optimizers k hk
      exact ⟨o, ho⟩
    obtain ⟨hA', hkept, hstepped'⟩ := ih hS' hopt' hP hd (hothers ▸ hsep')
    rw [hothers] at hkept hstepped'
    have hone : ∀ o ∈ rest.flatMap e.parts, ∃ n, o.parameters = [n] := by
      intro o ho
      obtain ⟨k, hk, ho⟩ := List.mem_flatMap.1 ho
      obtain ⟨opt, hok⟩ := hopt k (hP k hk)
      rw [parts_of_object? hok] at ho
      obtain ⟨n, hn, -⟩ := Optimizer.exists_of_mem_singles ho
      exact ⟨n, hn⟩
    obtain ⟨hS₂, hsame⟩ := hstepped.append hstepped' hone hsep.nodup hsep.existing hsep.apart
    refine ⟨hA.trans hA', ?_, hS₂⟩
    have hlast := (object?_after_steps (lt_size_of_object? hself) hfirst).trans hself
    rw [List.flatMap_cons, parts_of_object? hlast, hsingles, hkept, List.map_append]
    exact congrArg _ (List.map_congr_left hsame)

/-! ## New optimizers -/

section HoldsNew

variable {h : Handle} {settings : Settings α} {params : List NodeId}

/-- A new optimizer stays one until it takes a step or is taken back. -/
theorem HoldsNew.answer (h' : e.HoldsNew h settings params) (hS : e.Sound) {c : Call α}
    (hc : c.Spares h) : (e.answer c).2.1.HoldsNew h settings params := by
  obtain ⟨opt, ho, hnew⟩ := h'
  obtain ⟨scope, hF⟩ := hS.answer_frame c
  refine ⟨opt, (object?_answer (lt_size_of_object? ho) hc).trans ho, ?_⟩
  rw [Optimizer.new_congr fun n hn => hF.shape_eq n ?_]
  · exact hnew
  · rw [← Optimizer.parameters_new hnew] at hn
    exact Optimizer.lt_size_of_fits (hS.objects h _ ho) hn

omit [Sampler α] in
theorem HoldsNew.parts_map (h' : e.HoldsNew h settings params) :
    (e.parts h).map Except.ok = params.map fun n => Optimizer.new e.store [n] settings := by
  obtain ⟨opt, ho, hnew⟩ := h'
  rw [parts_of_object? ho]
  exact Optimizer.singles_new hnew

omit [Sampler α] in
theorem HoldsNew.parameters_parts (h' : e.HoldsNew h settings params) :
    (e.parts h).flatMap Optimizer.parameters = params := by
  obtain ⟨opt, ho, hnew⟩ := h'
  rw [parts_of_object? ho, opt.parameters_singles, Optimizer.parameters_new hnew]

end HoldsNew

/-! ## Two runs -/

/-- The runs differ only in the optimizers that they step: where each of `A` takes a step in the
first run, each of `B` does so in the second one, in whatever order. -/
inductive Rerouted (A B : List Handle) : List (Call α) → List (Call α) → Prop
  | nil : Rerouted A B [] []
  | call {c : Call α} {cs cs' : List (Call α)} (hc : ∀ k ∈ A ++ B, c.Spares k)
      (h : Rerouted A B cs cs') : Rerouted A B (c :: cs) (c :: cs')
  | step {P Q : List Handle} {cs cs' : List (Call α)} (hP : P.Perm A) (hQ : Q.Perm B)
      (h : Rerouted A B cs cs') : Rerouted A B (steps P ++ cs) (steps Q ++ cs')

omit [Scalar α] [Sampler α] in
theorem Rerouted.representable {A B : List Handle} {cs cs' : List (Call α)}
    (hr : Rerouted A B cs cs') (hc : ∀ c ∈ cs, c.Representable) : ∀ c ∈ cs', c.Representable := by
  induction hr with
  | nil => exact hc
  | call _ _ ih =>
    obtain ⟨hc, hrest⟩ := List.forall_mem_cons.1 hc
    exact List.forall_mem_cons.2 ⟨hc, ih hrest⟩
  | step _ _ _ ih =>
    exact List.forall_mem_append.2
      ⟨representable_steps _, ih (List.forall_mem_append.1 hc).2⟩

/-- In the two libraries the optimizers of `A` and those of `B` are the same ones, taken apart. -/
structure Paired (A B : List Handle) (e e' : Engine α) : Prop where
  sound : e.Sound
  sound' : e'.Sound
  alike : Alike (A ++ B) e e'
  parts_perm : (A.flatMap e.parts).Perm (B.flatMap e'.parts)
  separate : Separate ((A.flatMap e.parts).flatMap Optimizer.parameters) e

namespace Paired

variable {A B : List Handle}

omit [Scalar α] [Sampler α] in
theorem separate' (h : Paired A B e e') :
    Separate ((B.flatMap e'.parts).flatMap Optimizer.parameters) e' := by
  have hperm := h.parts_perm.flatMap_right Optimizer.parameters
  have hstore := h.alike.store_eq
  obtain ⟨hnodup, hexisting, hapart⟩ := h.separate.perm hperm
  exact ⟨hnodup, hstore ▸ hexisting, hstore ▸ hapart⟩

theorem call (h : Paired A B e e') {c : Call α} (hc : ∀ k ∈ A ++ B, c.Spares k)
    (hr : c.Representable) : Paired A B (e.answer c).2.1 (e'.answer c).2.1 := by
  have hA : A.flatMap (e.answer c).2.1.parts = A.flatMap e.parts := by
    refine List.flatMap_congr fun k hk => parts_congr ?_
    have hk := List.mem_append_left B hk
    obtain ⟨o, -, ho, -⟩ := h.alike.optimizers k hk
    exact object?_answer (lt_size_of_object? ho) (hc k hk)
  have hB : B.flatMap (e'.answer c).2.1.parts = B.flatMap e'.parts := by
    refine List.flatMap_congr fun k hk => parts_congr ?_
    have hk := List.mem_append_right A hk
    obtain ⟨-, o, -, ho, -⟩ := h.alike.optimizers k hk
    exact object?_answer (lt_size_of_object? ho) (hc k hk)
  refine ⟨h.sound.answer hr, h.sound'.answer hr, h.alike.answer hc, ?_, ?_⟩
  · rw [hA, hB]
    exact h.parts_perm
  · rw [hA]
    exact h.separate.answer h.sound c

theorem step (h : Paired A B e e') (hA : A.Nodup) (hB : B.Nodup) {P Q : List Handle}
    (hP : P.Perm A) (hQ : Q.Perm B) : Paired A B (e.after (steps P)) (e'.after (steps Q)) := by
  have hopt : ∀ k ∈ A ++ B, ∃ o, e.object? k = some (.optimizer o) := by
    intro k hk
    obtain ⟨o, -, ho, -⟩ := h.alike.optimizers k hk
    exact ⟨o, ho⟩
  have hopt' : ∀ k ∈ A ++ B, ∃ o, e'.object? k = some (.optimizer o) := by
    intro k hk
    obtain ⟨-, o, -, ho, -⟩ := h.alike.optimizers k hk
    exact ⟨o, ho⟩
  have hPA := hP.flatMap_right e.parts
  have hQB := hQ.flatMap_right e'.parts
  have hsep := h.separate.perm (hPA.symm.flatMap_right Optimizer.parameters)
  have hsep' := h.separate'.perm (hQB.symm.flatMap_right Optimizer.parameters)
  obtain ⟨halike, hkept, hstepped⟩ := h.sound.step_batch hopt
    (fun k hk => List.mem_append_left B (hP.mem_iff.1 hk)) (hP.nodup_iff.2 hA) hsep
  obtain ⟨halike', hkept', hstepped'⟩ := h.sound'.step_batch hopt'
    (fun k hk => List.mem_append_right A (hQ.mem_iff.1 hk)) (hQ.nodup_iff.2 hB) hsep'
  have hparts := (hPA.trans h.parts_perm).trans hQB.symm
  rw [h.alike.store_eq] at hkept' hstepped'
  have hboth := (halike.symm.trans h.alike.toAlikeBut).trans halike'
  have hSP := h.sound.after (representable_steps P)
  have hafter := hsep.after h.sound (representable_steps P)
  refine ⟨hSP, h.sound'.after (representable_steps Q),
    ⟨hboth, hstepped'.unique hstepped hparts.symm⟩, ?_, ?_⟩
  · refine ((hP.flatMap_right _).symm.trans ?_).trans (hQ.flatMap_right _)
    rw [hkept, hkept']
    exact hparts.map _
  · refine hafter.perm ?_
    refine .trans ?_ ((hP.flatMap_right (e.after (steps P)).parts).flatMap_right _)
    rw [hkept, List.flatMap_map]
    exact .of_eq (List.flatMap_congr fun o _ => (o.step_frame e.store).2.symm)

/-- So they are in the end of such runs. -/
theorem after (h : Paired A B e e') (hA : A.Nodup) (hB : B.Nodup) {cs cs' : List (Call α)}
    (hr : Rerouted A B cs cs') (hc : ∀ c ∈ cs, c.Representable) :
    Paired A B (e.after cs) (e'.after cs') := by
  induction hr generalizing e e' with
  | nil => exact h
  | call hspares _ ih =>
    obtain ⟨hc, hrest⟩ := List.forall_mem_cons.1 hc
    exact ih (h.call hspares hc) hrest
  | step hP hQ _ ih =>
    rw [after_append, after_append]
    exact ih (h.step hA hB hP hQ) fun c hcs => hc c (List.mem_append_right _ hcs)

/-- The step of an optimizer over one parameter does to that one what the step of the optimizer over
all does. -/
theorem node_step {h k : Handle} (h' : Paired [h] B e e') (hk : k ∈ B) {o : Optimizer α}
    {n : NodeId} (ho : e'.object? k = some (.optimizer o)) (hn : o.parameters = [n]) :
    (e'.answer (.command (.step (some k)))).2.1.store.node n =
      (e.answer (.command (.step (some h)))).2.1.store.node n := by
  obtain ⟨opt, -, hopt, -⟩ :=
    h'.alike.optimizers h (List.mem_append_left B (List.mem_singleton_self h))
  have hsep := h'.separate
  have hmem : o ∈ B.flatMap e'.parts := by
    refine List.mem_flatMap.2 ⟨k, hk, ?_⟩
    rw [parts_of_object? ho, Optimizer.singles_of_parameters hn]
    exact List.mem_singleton_self o
  have hmem := h'.parts_perm.mem_iff.2 hmem
  rw [List.flatMap_singleton, parts_of_object? hopt] at hsep hmem
  rw [opt.parameters_singles] at hsep
  have hstepped := (opt.step_apart h'.sound.graph (h'.sound.objects h _ hopt) hsep.nodup
    hsep.apart).2
  rw [store_answer_step ho, store_answer_step hopt, h'.alike.store_eq,
    hstepped.stepped o hmem n (hn ▸ List.mem_singleton_self n)]

end Paired

section Partition

variable {A B : List Handle} {P Q : List (List NodeId)} {settings : Settings α}

omit [Sampler α] in
theorem exists_holdsNew (hA : List.Forall₂ (fun h params => e.HoldsNew h settings params) A P)
    {h : Handle} (hh : h ∈ A) : ∃ params, e.HoldsNew h settings params := by
  induction hA with
  | nil => cases hh
  | cons hnew _ ih =>
    rcases List.mem_cons.1 hh with rfl | hh
    · exact ⟨_, hnew⟩
    · exact ih hh

omit [Sampler α] in
theorem parts_of_holdsNew (hA : List.Forall₂ (fun h params => e.HoldsNew h settings params) A P) :
    (A.flatMap e.parts).map Except.ok =
        P.flatten.map (fun n => Optimizer.new e.store [n] settings) ∧
      (A.flatMap e.parts).flatMap Optimizer.parameters = P.flatten := by
  induction hA with
  | nil => exact ⟨rfl, rfl⟩
  | cons hnew _ ih =>
    rw [List.flatMap_cons, List.flatten_cons, List.map_append, List.map_append, List.flatMap_append,
      ih.1, ih.2, hnew.parts_map, hnew.parameters_parts]
    exact ⟨rfl, rfl⟩

omit [Sampler α] in
theorem nodup_of_holdsNew (hA : List.Forall₂ (fun h params => e.HoldsNew h settings params) A P)
    (hd : P.flatten.Nodup) : A.Nodup := by
  induction hA with
  | nil => exact .nil
  | @cons h params A P hnew hrest ih =>
    rw [List.flatten_cons, List.nodup_append] at hd
    refine List.nodup_cons.2 ⟨fun hmem => ?_, ih hd.2.1⟩
    obtain ⟨opt, -, ho⟩ := id hnew
    obtain ⟨n, hn⟩ := List.exists_mem_of_ne_nil _ (Optimizer.ne_nil_of_new ho)
    refine hd.2.2 n hn n ?_ rfl
    rw [← (parts_of_holdsNew hrest).2, List.flatMap_assoc]
    rw [← hnew.parameters_parts] at hn
    exact List.mem_flatMap.2 ⟨h, hmem, hn⟩

omit [Sampler α] in
/-- Two ways to share the same parameters out among new optimizers. -/
theorem Sound.paired (hS : e.Sound)
    (hA : List.Forall₂ (fun h params => e.HoldsNew h settings params) A P)
    (hB : List.Forall₂ (fun h params => e.HoldsNew h settings params) B Q)
    (hp : P.flatten.Perm Q.flatten) (hd : P.flatten.Nodup) (ha : e.store.Apart P.flatten) :
    Paired A B e e := by
  obtain ⟨hpartsA, hparamsA⟩ := parts_of_holdsNew hA
  obtain ⟨hpartsB, hparamsB⟩ := parts_of_holdsNew hB
  refine ⟨hS, hS, ⟨⟨rfl, rfl, fun _ _ => rfl, fun k hk => ?_⟩, rfl⟩, ?_, ?_⟩
  · rw [List.mem_append] at hk
    obtain ⟨params, opt, ho, -⟩ := hk.elim (exists_holdsNew hA) (exists_holdsNew hB)
    exact ⟨opt, opt, ho, ho, rfl⟩
  · have hok : Function.Injective (Except.ok : Optimizer α → Outcome (Optimizer α)) :=
      fun _ _ => Except.ok.inj
    rw [← List.map_perm_map_iff hok, hpartsA, hpartsB]
    exact hp.map _
  · rw [hparamsA]
    refine ⟨hd, fun n hn => ?_, ha⟩
    rw [← hparamsA, List.flatMap_assoc] at hn
    obtain ⟨k, hk, hn⟩ := List.mem_flatMap.1 hn
    obtain ⟨params, opt, ho, -⟩ := exists_holdsNew hA hk
    rw [parts_of_object? ho, opt.parameters_singles] at hn
    exact Optimizer.lt_size_of_fits (hS.objects k _ ho) hn

/-- An optimizer is as good as one optimizer for each of its parameters, and the order of the
parameters does not matter. -/
theorem Reachable.agree_with_singles (he : e.Reachable) {h : Handle} {params : List NodeId}
    (hd : params.Nodup) (ha : e.store.Apart params) (hall : e.HoldsNew h settings params) :
    (∀ singles, List.Forall₂ (fun k n => e.HoldsNew k settings [n]) singles params →
      ∀ cs cs', Rerouted [h] singles cs cs' → (∀ c ∈ cs, c.Representable) →
        (e.after cs').store = (e.after cs).store ∧
        ∀ k n, (k, n) ∈ singles.zip params →
          ((e.after cs').answer (.command (.step (some k)))).2.1.store.node n =
            ((e.after cs).answer (.command (.step (some h)))).2.1.store.node n) ∧
    ∀ params' h', params'.Perm params → e.HoldsNew h' settings params' →
      ∀ cs cs', Rerouted [h] [h'] cs cs' → (∀ c ∈ cs, c.Representable) →
        (e.after cs').store = (e.after cs).store := by
  have hone : List.Forall₂ (fun h params => e.HoldsNew h settings params) [h] [params] :=
    .cons hall .nil
  have hflat : [params].flatten = params := List.flatten_singleton
  rw [← hflat] at hd ha
  refine ⟨fun singles hsingles cs cs' hr hc => ?_, fun params' h' hp hall' cs cs' hr hc => ?_⟩
  · have heach : List.Forall₂ (fun h params => e.HoldsNew h settings params) singles
        (params.map fun n => [n]) := List.forall₂_map_right_iff.2 hsingles
    have hflat' : (params.map fun n => [n]).flatten = params := by
      rw [← List.flatMap_def, List.flatMap_singleton']
    have hp : [params].flatten.Perm (params.map fun n => [n]).flatten :=
      .of_eq (hflat.trans hflat'.symm)
    have hlast := (he.sound.paired hone heach hp hd ha).after (nodup_of_holdsNew hone hd)
      (nodup_of_holdsNew heach (hp.nodup_iff.1 hd)) hr hc
    refine ⟨hlast.alike.store_eq, fun k n hkn => ?_⟩
    obtain ⟨o₀, ho₀, hnew⟩ := List.forall₂_zip hsingles hkn
    have hk : k ∈ singles := (List.of_mem_zip hkn).1
    obtain ⟨-, o, -, ho, -⟩ := hlast.alike.optimizers k (List.mem_append_right _ hk)
    have hn : o.parameters = [n] := he.sound.optimizer_after
      (fun _ opt s _ _ hn _ => (opt.step_frame s).2.trans hn) ho₀ (Optimizer.parameters_new hnew)
      (hr.representable hc) ho
    exact hlast.node_step hk ho hn
  · have hone' : List.Forall₂ (fun h params => e.HoldsNew h settings params) [h'] [params'] :=
      .cons hall' .nil
    have hp' : [params].flatten.Perm [params'].flatten := by
      rw [List.flatten_singleton, List.flatten_singleton]
      exact hp.symm
    exact ((he.sound.paired hone hone' hp' hd ha).after (nodup_of_holdsNew hone hd)
      (nodup_of_holdsNew hone' (hp'.nodup_iff.1 hd)) hr hc).alike.store_eq

end Partition

/-- Two parameters, of which one has a gradient. -/
theorem agree_with_singles_of_two :
    let settings : Settings Float := .adam ⟨0.1, 0.9, 0.999, 1e-8, 0.5⟩
    let e : Engine Float := (ofSeed 7).after
      [.create (.fromData (some [1]) 1 (some [1]) 1) true, .command (.setTracked (some 0) true),
        .create (.fromData (some [2]) 1 (some [1]) 1) true]
    let e₁ := (e.answer (.create (settings.creation (some [some 0, some 1]) 2) true)).2.1
    let e₂ := (e₁.answer (.create (settings.creation (some [some 0]) 1) true)).2.1
    let start := (e₂.answer (.create (settings.creation (some [some 1]) 1) true)).2.1
    let backward : Call Float := .command (.backward (some 0))
    start.HoldsNew 2 settings [0, 1] ∧ start.HoldsNew 3 settings [0] ∧
      start.HoldsNew 4 settings [1] ∧
      (start.after ([backward] ++ steps [4, 3] ++ steps [3, 4])).store =
        (start.after ([backward] ++ steps [2] ++ steps [2])).store := by
  intro settings e e₁ e₂ start backward
  have h : e.Reachable := (Reachable.start 7).after (by decide)
  have h₁ : e₁.Reachable := h.call trivial
  have h₂ : e₂.Reachable := h₁.call trivial
  have h₃ : start.Reachable := h₂.call trivial
  have hall₁ : e₁.HoldsNew 2 settings [0, 1] := holdsNew_created rfl (by decide +kernel)
  have hall₂ : e₂.HoldsNew 2 settings [0, 1] := hall₁.answer h₁.sound ⟨nofun, nofun⟩
  have hall : start.HoldsNew 2 settings [0, 1] := hall₂.answer h₂.sound ⟨nofun, nofun⟩
  have hfirst₂ : e₂.HoldsNew 3 settings [0] := holdsNew_created rfl (by decide +kernel)
  have hfirst : start.HoldsNew 3 settings [0] := hfirst₂.answer h₂.sound ⟨nofun, nofun⟩
  have hsecond : start.HoldsNew 4 settings [1] := holdsNew_created rfl (by decide +kernel)
  have hr : Rerouted [2] [3, 4] ([backward] ++ steps [2] ++ steps [2])
      ([backward] ++ steps [4, 3] ++ steps [3, 4]) :=
    .call (by simp [backward, Call.Spares])
      (.step (.refl _) (.swap ..) (.step (.refl _) (.refl _) .nil))
  have hapart : start.store.Apart [0, 1] := by
    have : ∀ p ∈ [0, 1], ∀ q ∈ [0, 1], p ≠ q → start.store.gradient p ≠ some q := by
      decide +kernel
    exact this
  refine ⟨hall, hfirst, hsecond, ?_⟩
  exact ((h₃.agree_with_singles (by decide) hapart hall).1 [3, 4]
    (.cons hfirst (.cons hsecond .nil)) _ _ hr (by simp [backward, steps, Call.Representable])).1

end Engine

end DiffTensor
