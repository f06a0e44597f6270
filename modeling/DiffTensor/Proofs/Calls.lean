import Mathlib.Tactic.SplitIfs
import DiffTensor.Library.Reference

/-!
# What calls do to the engine

A command is refused, or does its one thing to what its handle leads to (`Engine.Ran`). A call that
makes an object computes it and hands it out (`Engine.Built`, `make_eq`). The last error aside, a call
does little else: it reseeds the library, takes an object back or hands out further ones
(`Engine.Effect`). What every call keeps is proved by cases on these, without opening the calls.

No call but the one that reads it depends on the last error (`answer_hushed`), so an engine can be
compared `hushed`, with its last error forgotten.
-/

namespace DiffTensor

variable {α : Type}

/-- The status that reports a failure. -/
def Failure.status : Failure → Status
  | .refused cause => cause.status
  | .crashed _ => .internal

theorem Failure.status_ne_success (cause : Failure) : cause.status ≠ .success := by
  cases cause with
  | refused cause =>
    show cause.kind.status ≠ _
    cases cause.kind <;> decide
  | crashed cause => exact (by decide : Status.internal ≠ Status.success)

namespace Engine

/-- The engine, with its last error forgotten. -/
def hushed (e : Engine α) : Engine α := { e with lastError := "" }

@[simp] theorem hushed_hushed (e : Engine α) : e.hushed.hushed = e.hushed := rfl

@[simp] theorem object?_hushed (e : Engine α) : e.hushed.object? = e.object? := rfl

/-! ## What is behind a handle -/

theorem object?_handOut (e : Engine α) (o : Object α) (h : Handle) :
    (e.handOut o).2.object? h = if h = e.objects.size then some o else e.object? h := by
  simp only [handOut, object?, Array.getD_eq_getD_getElem?, Array.getElem?_push]
  split <;> simp

theorem object?_setIfInBounds (e : Engine α) (k : Handle) (o : Option (Object α)) (h : Handle) :
    ({ e with objects := e.objects.setIfInBounds k o } : Engine α).object? h =
      if h = k ∧ k < e.objects.size then o else e.object? h := by
  simp only [object?, Array.getD_eq_getD_getElem?, Array.getElem?_setIfInBounds]
  grind

theorem tensor_of_object? {e : Engine α} {h : Handle} {n : NodeId}
    (ho : e.object? h = some (.tensor n)) : e.tensor (some h) = .ok n := by
  simp only [tensor, ho]

theorem tensor_eq_ok {e : Engine α} {handle : Option Handle} {n : NodeId}
    (hn : e.tensor handle = .ok n) : ∃ h, handle = some h ∧ e.object? h = some (.tensor n) := by
  unfold tensor at hn
  split at hn
  · cases hn
  · split at hn
    · rename_i h _ m ho
      cases hn
      exact ⟨h, rfl, ho⟩
    · cases hn

theorem layer_of_object? {e : Engine α} {h : Handle} {l : Linear}
    (ho : e.object? h = some (.layer l)) : e.layer (some h) = .ok l := by
  simp only [layer, ho]

theorem layer_eq_ok {e : Engine α} {handle : Option Handle} {l : Linear}
    (hl : e.layer handle = .ok l) : ∃ h, handle = some h ∧ e.object? h = some (.layer l) := by
  unfold layer at hl
  split at hl
  · cases hl
  · split at hl
    · rename_i h _ m ho
      cases hl
      exact ⟨h, rfl, ho⟩
    · cases hl

theorem optimizer_of_object? {e : Engine α} {h : Handle} {state : Optimizer α}
    (ho : e.object? h = some (.optimizer state)) : e.optimizer (some h) = .ok (h, state) := by
  simp only [optimizer, ho]

theorem optimizer_eq_ok {e : Engine α} {handle : Option Handle} {h : Handle}
    {state : Optimizer α} (ho : e.optimizer handle = .ok (h, state)) : handle = some h := by
  unfold optimizer at ho
  split at ho
  · cases ho
  · split at ho
    · cases ho
      rfl
    · cases ho

theorem object?_of_optimizer {e : Engine α} {handle : Option Handle} {k : Handle} {state : Optimizer α}
    (hs : e.optimizer handle = .ok (k, state)) : e.object? k = some (.optimizer state) := by
  unfold Engine.optimizer at hs
  split at hs
  · cases hs
  · split at hs
    · rename_i ho
      cases hs
      exact ho
    · cases hs

theorem object?_handOut_new (e : Engine α) (o : Object α) :
    (e.handOut o).2.object? e.objects.size = some o := by
  rw [object?_handOut, if_pos rfl]

/-- A layer's parameters are handed out under the next two handles. -/
theorem object?_handOutParameters (e : Engine α) (l : Linear) (h : Handle) :
    (e.handOutNodes l.parameters).2.object? h =
      if h = e.objects.size + 1 then some (.tensor l.bias)
      else if h = e.objects.size then some (.tensor l.weight)
      else e.object? h := by
  have hsize : (e.handOut (.tensor l.weight)).2.objects.size = e.objects.size + 1 :=
    Array.size_push _
  rw [← hsize, ← object?_handOut e, ← object?_handOut (e.handOut (.tensor l.weight)).2]
  rfl

theorem exportParameters_of_object? {e : Engine α} {h : Handle} {l : Linear}
    (ho : e.object? h = some (.layer l)) : e.exportParameters (some h) true 2 =
      .ok ([e.objects.size, e.objects.size + 1], (e.handOutNodes l.parameters).2) := by
  have hsize : (e.objects.push (some (.tensor l.weight))).size = e.objects.size + 1 :=
    Array.size_push _
  simp only [exportParameters, layer_of_object? ho]
  show Except.ok (_, _) = _
  simp [Linear.parameters, handOutNodes, handOut, hsize]

theorem exportGradient_of_object? {e : Engine α} {h : Handle} {n : NodeId}
    (ho : e.object? h = some (.tensor n)) : e.exportGradient (some h) =
      .ok (match e.store.gradient n with
        | none => (none, e)
        | some g => (some e.objects.size, (e.handOut (.tensor g)).2)) := by
  simp only [exportGradient, tensor_of_object? ho, Outcome.ok_bind]
  cases e.store.gradient n <;> rfl

theorem exportParameters_eq_ok {e : Engine α} {layer : Option Handle} {hasBuffer : Bool}
    {length : Nat} {new : List Handle × Engine α}
    (h : e.exportParameters layer hasBuffer length = .ok new) :
    ∃ l, e.layer layer = .ok l ∧ length = l.parameters.length ∧
      new = e.handOutNodes l.parameters := by
  obtain ⟨l, hl, h⟩ := Outcome.bind_eq_ok_iff.1 h
  split at h
  · cases h
  · rename_i hlength
    split at h
    · cases h
    · cases h
      exact ⟨l, hl, Decidable.not_not.1 hlength, rfl⟩

theorem exportGradient_eq_ok {e : Engine α} {tensor : Option Handle}
    {new : Option Handle × Engine α} (h : e.exportGradient tensor = .ok new) :
    new = (none, e) ∨ ∃ n g, e.tensor tensor = .ok n ∧ e.store.gradient n = some g ∧
      new = (some e.objects.size, (e.handOut (.tensor g)).2) := by
  obtain ⟨n, hn, h⟩ := Outcome.bind_eq_ok_iff.1 h
  split at h
  · cases h
    exact .inl rfl
  · rename_i g hg
    cases h
    exact .inr ⟨n, g, hn, hg, rfl⟩

/-! ## Commands -/

section Commands

variable [Scalar α]

/-- Why a command is refused: its handle leads to nothing, or the graph does not let it be done. -/
inductive Refuses (e : Engine α) : Command Handle → Failure → Prop where
  | setTracked {tensor : Option Handle} {flag : Bool} {cause : Failure} :
    (do e.store.setTracked (← e.tensor tensor) flag : Outcome (Store α)) = .error cause →
      Refuses e (.setTracked tensor flag) cause
  | backward {tensor : Option Handle} {cause : Failure} :
    e.tensor tensor = .error cause → Refuses e (.backward tensor) cause
  | step {optimizer : Option Handle} {cause : Failure} :
    e.optimizer optimizer = .error cause → Refuses e (.step optimizer) cause
  | clearGradients {optimizer : Option Handle} {cause : Failure} :
    e.optimizer optimizer = .error cause → Refuses e (.clearGradients optimizer) cause

/-- What a command does: nothing if it is refused, and else what the graph makes of it. -/
inductive Ran (e : Engine α) : Command Handle → Outcome Unit × Engine α × List Event → Prop where
  | refused {c : Command Handle} {cause : Failure} : Refuses e c cause → Ran e c (.error cause, e, [])
  | setTracked {tensor : Option Handle} {flag : Bool} {n : NodeId} {store : Store α} :
    e.tensor tensor = .ok n → e.store.setTracked n flag = .ok store →
      Ran e (.setTracked tensor flag) (.ok (), { e with store }, [])
  | backward {tensor : Option Handle} {root : NodeId} {result : Outcome Unit} {store : Store α} :
    e.tensor tensor = .ok root → e.store.backward root = (result, store) →
      Ran e (.backward tensor) (result, { e with store }, e.store.backwardEvents root)
  | step {optimizer : Option Handle} {h : Handle} {state state' : Optimizer α}
      {result : Outcome Unit} {store : Store α} :
    e.optimizer optimizer = .ok (h, state) → state.step e.store = (result, state', store) →
      Ran e (.step optimizer) (result, { e with store }.setOptimizer h state', [])
  | clearGradients {optimizer : Option Handle} {h : Handle} {state : Optimizer α} :
    e.optimizer optimizer = .ok (h, state) →
      Ran e (.clearGradients optimizer)
        (.ok (), { e with store := state.clearGradients e.store }, [])

variable {e : Engine α} {c : Command Handle} {out : Outcome Unit × Engine α × List Event}

theorem ran (e : Engine α) (c : Command Handle) : e.Ran c (e.run c) := by
  cases c with
  | setTracked tensor flag =>
    cases hs : (do (e.store.setTracked (← e.tensor tensor) flag) : Outcome (Store α)) with
    | error cause =>
      simp only [run, hs]
      exact .refused (.setTracked hs)
    | ok store =>
      obtain ⟨n, hn, hset⟩ := Outcome.bind_eq_ok_iff.1 hs
      simp only [run, hs]
      exact .setTracked hn hset
  | backward tensor =>
    cases ht : e.tensor tensor with
    | error cause =>
      simp only [run, ht]
      exact .refused (.backward ht)
    | ok root =>
      simp only [run, ht]
      exact .backward ht rfl
  | step optimizer =>
    cases ho : e.optimizer optimizer with
    | error cause =>
      simp only [run, ho]
      exact .refused (.step ho)
    | ok found =>
      simp only [run, ho]
      exact .step ho rfl
  | clearGradients optimizer =>
    cases ho : e.optimizer optimizer with
    | error cause =>
      simp only [run, ho]
      exact .refused (.clearGradients ho)
    | ok found =>
      simp only [run, ho]
      exact .clearGradients ho

/-- Nothing else is done. -/
theorem Ran.run_eq (h : e.Ran c out) : e.run c = out := by
  cases h with
  | refused hr => cases hr with | setTracked hs | backward hs | step hs | clearGradients hs =>
    simp only [run, hs]
  | setTracked hn hs => simp only [run, hn, Outcome.ok_bind, hs]
  | backward ht hb => simp only [run, ht, hb]
  | step ho hs => simp only [run, ho, hs]
  | clearGradients ho => simp only [run, ho]

/-- A command does not depend on the last error. -/
theorem Ran.hushed (h : e.Ran c out) : e.hushed.Ran c (out.1, out.2.1.hushed, out.2.2) := by
  cases h with
  | refused hr =>
    refine .refused ?_
    cases hr with
    | setTracked hs => exact .setTracked hs
    | backward ht => exact .backward ht
    | step ho => exact .step ho
    | clearGradients ho => exact .clearGradients ho
  | setTracked hn hs => exact .setTracked hn hs
  | backward ht hb => exact .backward ht hb
  | step ho hs => exact .step ho hs
  | clearGradients ho => exact .clearGradients ho

theorem run_hushed (e : Engine α) (c : Command Handle) :
    e.hushed.run c = ((e.run c).1, (e.run c).2.1.hushed, (e.run c).2.2) :=
  (e.ran c).hushed.run_eq

end Commands

/-! ## Calls that make an object -/

section Create

variable [Scalar α] [Sampler α]

/-- What a call that makes an object computes: the object, and the graph and the stream with it. -/
def build (e : Engine α) : Creation α Handle → Outcome (Object α × Store α × Stream)
  | .filled filling dims count => do
    let shape ← readShape dims count
    let (value, stream) ← filledBuffer filling shape e.stream
    let (n, store) := e.store.leaf value
    return (.tensor n, store, stream)
  | .fromData data length dims count => do
    let shape ← readShape dims count
    let values ← readData data length
    let (n, store) := e.store.leaf (← Buffer.fill values.toArray shape)
    return (.tensor n, store, e.stream)
  | .binary op a b => do
    let a ← e.tensor a
    let b ← e.tensor b
    let (n, store) ← e.store.binary op a b
    return (.tensor n, store, e.stream)
  | .unary op a => do
    let a ← e.tensor a
    let (n, store) ← e.store.unary op a
    return (.tensor n, store, e.stream)
  | .newLinear inputs outputs => do
    let (layer, store, stream) ← e.store.newLinear e.stream inputs outputs
    return (.layer layer, store, stream)
  | .applyLinear layer x => do
    let layer ← e.layer layer
    let x ← e.tensor x
    let (n, store) ← e.store.applyLinear layer x
    return (.tensor n, store, e.stream)
  | .adam handles length rates => do
    let state ← Adam.new e.store (← e.readParameters handles length) rates
    return (.optimizer (.adam state), e.store, e.stream)
  | .sgd handles length rates => do
    let state ← Sgd.new (← e.readParameters handles length) rates
    return (.optimizer (.sgd state), e.store, e.stream)

omit [Scalar α] [Sampler α] in
/-- The engine after the object has been handed out. -/
def made (e : Engine α) (new : Object α × Store α × Stream) : Engine α :=
  ({ e with store := new.2.1, stream := new.2.2 }.handOut new.1).2

/-- Whatever is made is handed out under the next handle. -/
theorem make_eq (e : Engine α) (c : Creation α Handle) :
    e.make c = (fun new => (e.objects.size, e.made new)) <$> e.build c := by
  cases c <;> simp only [make, build, map_bind, map_pure] <;> rfl

/-- What is made: a leaf, the result of an operation, a layer or an optimizer. -/
inductive Built (e : Engine α) : Creation α Handle → Object α × Store α × Stream → Prop where
  | filled {filling : Filling} {dims : Option (List Int)} {count : Nat} {shape : List Nat}
      {v : Buffer α} {stream : Stream} :
    readShape dims count = .ok shape → filledBuffer filling shape e.stream = .ok (v, stream) →
      Built e (.filled filling dims count) (.tensor (e.store.leaf v).1, (e.store.leaf v).2, stream)
  | fromData {data : Option (List α)} {length : Nat} {dims : Option (List Int)} {count : Nat}
      {shape : List Nat} {values : List α} {v : Buffer α} :
    readShape dims count = .ok shape → readData data length = .ok values →
    Buffer.fill values.toArray shape = .ok v →
      Built e (.fromData data length dims count)
        (.tensor (e.store.leaf v).1, (e.store.leaf v).2, e.stream)
  | binary {op : BinaryOp} {a b : Option Handle} {n m : NodeId} {made : NodeId × Store α} :
    e.tensor a = .ok n → e.tensor b = .ok m → e.store.binary op n m = .ok made →
      Built e (.binary op a b) (.tensor made.1, made.2, e.stream)
  | unary {op : UnaryOp} {a : Option Handle} {n : NodeId} {made : NodeId × Store α} :
    e.tensor a = .ok n → e.store.unary op n = .ok made →
      Built e (.unary op a) (.tensor made.1, made.2, e.stream)
  | newLinear {inputs outputs : Nat} {l : Linear} {store : Store α} {stream : Stream} :
    e.store.newLinear e.stream inputs outputs = .ok (l, store, stream) →
      Built e (.newLinear inputs outputs) (.layer l, store, stream)
  | applyLinear {layer x : Option Handle} {l : Linear} {n : NodeId} {made : NodeId × Store α} :
    e.layer layer = .ok l → e.tensor x = .ok n → e.store.applyLinear l n = .ok made →
      Built e (.applyLinear layer x) (.tensor made.1, made.2, e.stream)
  | adam {handles : Option (List (Option Handle))} {length : Nat} {rates : AdamRates α}
      {params : List NodeId} {state : Adam α} :
    e.readParameters handles length = .ok params → Adam.new e.store params rates = .ok state →
      Built e (.adam handles length rates) (.optimizer (.adam state), e.store, e.stream)
  | sgd {handles : Option (List (Option Handle))} {length : Nat} {rates : SgdRates α}
      {params : List NodeId} {state : Sgd α} :
    e.readParameters handles length = .ok params → Sgd.new params rates = .ok state →
      Built e (.sgd handles length rates) (.optimizer (.sgd state), e.store, e.stream)

theorem built {e : Engine α} {c : Creation α Handle} {new : Object α × Store α × Stream}
    (h : e.build c = .ok new) : e.Built c new := by
  cases c with
  | filled filling dims count =>
    simp only [build, Outcome.bind_eq_ok_iff, Outcome.pure_eq, Except.ok.injEq] at h
    obtain ⟨shape, hs, ⟨v, stream⟩, hv, rfl⟩ := h
    exact .filled hs hv
  | fromData data length dims count =>
    simp only [build, Outcome.bind_eq_ok_iff, Outcome.pure_eq, Except.ok.injEq] at h
    obtain ⟨shape, hs, values, hd, v, hv, rfl⟩ := h
    exact .fromData hs hd hv
  | binary op a b =>
    simp only [build, Outcome.bind_eq_ok_iff, Outcome.pure_eq, Except.ok.injEq] at h
    obtain ⟨n, hn, m, hm, made, hr, rfl⟩ := h
    exact .binary hn hm hr
  | unary op a =>
    simp only [build, Outcome.bind_eq_ok_iff, Outcome.pure_eq, Except.ok.injEq] at h
    obtain ⟨n, hn, made, hr, rfl⟩ := h
    exact .unary hn hr
  | newLinear inputs outputs =>
    simp only [build, Outcome.bind_eq_ok_iff, Outcome.pure_eq, Except.ok.injEq] at h
    obtain ⟨⟨l, store, stream⟩, hl, rfl⟩ := h
    exact .newLinear hl
  | applyLinear layer x =>
    simp only [build, Outcome.bind_eq_ok_iff, Outcome.pure_eq, Except.ok.injEq] at h
    obtain ⟨l, hl, n, hn, made, hr, rfl⟩ := h
    exact .applyLinear hl hn hr
  | adam handles length rates =>
    simp only [build, Outcome.bind_eq_ok_iff, Outcome.pure_eq, Except.ok.injEq] at h
    obtain ⟨params, hp, state, hs, rfl⟩ := h
    exact .adam hp hs
  | sgd handles length rates =>
    simp only [build, Outcome.bind_eq_ok_iff, Outcome.pure_eq, Except.ok.injEq] at h
    obtain ⟨params, hp, state, hs, rfl⟩ := h
    exact .sgd hp hs

theorem build_hushed (e : Engine α) (c : Creation α Handle) : e.hushed.build c = e.build c := by
  cases c <;> rfl

/-- The object is of the kind that the call is for. -/
theorem kind_of_build {e : Engine α} {c : Creation α Handle}
    {new : Object α × Store α × Stream} (h : e.build c = .ok new) : new.1.kind = c.kind := by
  cases built h <;> rfl

omit [Scalar α] [Sampler α] in
theorem object?_made (e : Engine α) (new : Object α × Store α × Stream) (h : Handle) :
    (e.made new).object? h = if h = e.objects.size then some new.1 else e.object? h :=
  object?_handOut { e with store := new.2.1, stream := new.2.2 } new.1 h

omit [Scalar α] [Sampler α] in
theorem object?_made_new (e : Engine α) (new : Object α × Store α × Stream) :
    (e.made new).object? e.objects.size = some new.1 := by
  rw [object?_made, if_pos rfl]

end Create

/-! ## Settled calls -/

/-- The status is that of the failure. -/
theorem settle_fst {β : Type} (result : Outcome β) (e : Engine α) :
    (settle result e).1 = result.mapError Failure.status := by
  rcases result with (cause | cause) | x <;> rfl

theorem hushed_settle {β : Type} (result : Outcome β) (e : Engine α) :
    (settle result e).2.1.hushed = e.hushed := by
  rcases result with (cause | cause) | x <;> rfl

theorem attempt_fst {β : Type} (e : Engine α) (result : Outcome (β × Engine α)) :
    (e.attempt result).1 = (result.map Prod.fst).mapError Failure.status := by
  rcases result with (cause | cause) | ⟨x, e'⟩ <;> rfl

theorem hushed_attempt {β : Type} (e : Engine α) (result : Outcome (β × Engine α)) :
    (e.attempt result).2.1.hushed = (result.toOption.elim e Prod.snd).hushed := by
  rcases result with (cause | cause) | ⟨x, e'⟩ <;> rfl

/-! ## All calls -/

section Answers

variable [Scalar α]

omit [Scalar α] in
theorem handOutNodes_hushed : ∀ (nodes : List NodeId) (e : Engine α),
    e.hushed.handOutNodes nodes = ((e.handOutNodes nodes).1, (e.handOutNodes nodes).2.hushed)
  | [], _ => rfl
  | n :: rest, e => by
    have ih := handOutNodes_hushed rest (e.handOut (.tensor n)).2
    exact congrArg (fun out => (e.objects.size :: out.1, out.2)) ih

variable [Sampler α]

/-- The answer to a call that makes an object. -/
theorem answer_create (e : Engine α) (c : Creation α Handle) :
    (e.answer (.create c true)).1 = (match e.build c with
      | .ok _ => ⟨some .success, some e.objects.size⟩
      | .error cause => ⟨some cause.status, none⟩) ∧
    (e.answer (.create c true)).2.1.hushed = ((e.build c).toOption.elim e e.made).hushed := by
  simp only [answer, answerCreation, make_eq]
  rcases e.build c with (cause | cause) | new <;> exact ⟨rfl, rfl⟩

theorem status_answer_create_iff (e : Engine α) (c : Creation α Handle) :
    (e.answer (.create c true)).1.status = some .success ↔ ∃ new, e.build c = .ok new := by
  rw [(e.answer_create c).1]
  cases e.build c with
  | ok new => exact iff_of_true rfl ⟨new, rfl⟩
  | error cause =>
    exact iff_of_false (fun h => cause.status_ne_success (Option.some.inj h)) nofun

/-- The answer to a command. -/
theorem answer_command (e : Engine α) (c : Command Handle) :
    (e.answer (.command c)).1 = statusOf ((e.run c).1.mapError Failure.status) ∧
      (e.answer (.command c)).2.1.hushed = (e.run c).2.1.hushed := by
  simp only [answer, answerCommand, settle_fst, hushed_settle]
  exact ⟨trivial, trivial⟩

/-- The answer to a query. -/
theorem answer_query (e : Engine α) (q : Query Handle) :
    (e.answer (.query q)).1 = (e.look q).toOption.getD 0 ∧
      (e.answer (.query q)).2.1.hushed = e.hushed := by
  simp only [answer, answerQuery, settle_fst, hushed_settle]
  cases e.look q <;> constructor <;> trivial

/-- What a call does, the last error aside: nothing if it only looks, or if it fails before it has
made anything. -/
inductive Effect (e : Engine α) : Call α → Engine α → Prop where
  | idle {c : Call α} : Effect e c e
  | seed (value : UInt64) : Effect e (.seed value) { e with stream := .ofSeed value }
  | release (kind : ResourceKind) (handle : Option Handle) :
    Effect e (.release kind handle) (e.release handle)
  | create {c : Creation α Handle} {new : Object α × Store α × Stream} :
    e.build c = .ok new → Effect e (.create c true) (e.made new)
  | command (c : Command Handle) : Effect e (.command c) (e.run c).2.1
  | parameters {layer : Option Handle} {hasBuffer : Bool} {length : Nat} {l : Linear} :
    e.layer layer = .ok l →
      Effect e (.parameters layer hasBuffer length) (e.handOutNodes l.parameters).2
  | gradient {tensor : Option Handle} {n g : NodeId} :
    e.tensor tensor = .ok n → e.store.gradient n = some g →
      Effect e (.gradient tensor) (e.handOut (.tensor g)).2

theorem effect (e : Engine α) (c : Call α) :
    ∃ e', e.Effect c e' ∧ (e.answer c).2.1.hushed = e'.hushed := by
  cases c with
  | seed value => exact ⟨_, .seed value, rfl⟩
  | lastError buffer => exact ⟨_, .idle, rfl⟩
  | release kind handle => exact ⟨_, .release kind handle, rfl⟩
  | create body hasStatus =>
    cases hasStatus with
    | false => exact ⟨_, .idle, rfl⟩
    | true =>
      have he := (e.answer_create body).2
      cases hb : e.build body with
      | error cause => exact ⟨_, .idle, he.trans (by rw [hb]; rfl)⟩
      | ok new => exact ⟨_, .create hb, he.trans (by rw [hb]; rfl)⟩
  | command body => exact ⟨_, .command body, (e.answer_command body).2⟩
  | query body => exact ⟨_, .idle, (e.answer_query body).2⟩
  | shape tensor hasBuffer => exact ⟨_, .idle, hushed_settle ..⟩
  | copyData tensor hasBuffer length => exact ⟨_, .idle, hushed_settle ..⟩
  | parameters layer hasBuffer length =>
    have he := e.hushed_attempt (e.exportParameters layer hasBuffer length)
    cases hx : e.exportParameters layer hasBuffer length with
    | error cause => exact ⟨_, .idle, he.trans (by rw [hx]; rfl)⟩
    | ok new =>
      obtain ⟨l, hl, -, hnew⟩ := exportParameters_eq_ok hx
      exact ⟨_, .parameters hl, he.trans (by rw [hx, hnew]; rfl)⟩
  | gradient tensor =>
    have he := e.hushed_attempt (e.exportGradient tensor)
    cases hx : e.exportGradient tensor with
    | error cause => exact ⟨_, .idle, he.trans (by rw [hx]; rfl)⟩
    | ok new =>
      rcases exportGradient_eq_ok hx with rfl | ⟨n, g, hn, hg, rfl⟩
      · exact ⟨_, .idle, he.trans (by rw [hx]; rfl)⟩
      · exact ⟨_, .gradient hn hg, he.trans (by rw [hx]; rfl)⟩

/-- No call but the one that reads it depends on the last error. -/
theorem answer_hushed (e : Engine α) {c : Call α} (hc : ∀ buffer, c ≠ .lastError buffer) :
    (e.hushed.answer c).1 = (e.answer c).1 ∧
      (e.hushed.answer c).2.1.hushed = (e.answer c).2.1.hushed := by
  cases c with
  | seed value => exact ⟨rfl, rfl⟩
  | lastError buffer => exact absurd rfl (hc buffer)
  | release kind handle => cases handle <;> exact ⟨rfl, rfl⟩
  | create body hasStatus =>
    cases hasStatus with
    | false => exact ⟨rfl, rfl⟩
    | true =>
      obtain ⟨hr, he⟩ := e.answer_create body
      obtain ⟨hr', he'⟩ := e.hushed.answer_create body
      rw [hr, he, hr', he', build_hushed]
      cases e.build body <;> constructor <;> rfl
  | command body =>
    obtain ⟨hr, he⟩ := e.answer_command body
    obtain ⟨hr', he'⟩ := e.hushed.answer_command body
    rw [hr, he, hr', he', run_hushed]
    exact ⟨rfl, rfl⟩
  | query body =>
    have hl : e.hushed.look body = e.look body := by cases body <;> rfl
    obtain ⟨hr, he⟩ := e.answer_query body
    obtain ⟨hr', he'⟩ := e.hushed.answer_query body
    rw [hr, he, hr', he', hl]
    exact ⟨rfl, rfl⟩
  | shape tensor hasBuffer =>
    have hl : e.hushed.readDims tensor hasBuffer = e.readDims tensor hasBuffer := rfl
    constructor <;> simp only [answer, settle_fst, hushed_settle, hl, hushed_hushed]
  | copyData tensor hasBuffer length =>
    have hl : e.hushed.readValues tensor hasBuffer length =
        e.readValues tensor hasBuffer length := rfl
    constructor <;> simp only [answer, settle_fst, hushed_settle, hl, hushed_hushed]
  | parameters layer hasBuffer length =>
    have hl : e.hushed.exportParameters layer hasBuffer length =
        (fun out => (out.1, out.2.hushed)) <$> e.exportParameters layer hasBuffer length := by
      simp only [exportParameters, map_bind, handOutNodes_hushed]
      refine congrArg _ (funext fun l => ?_)
      split_ifs <;> rfl
    simp only [answer, attempt_fst, hushed_attempt, hl]
    rcases e.exportParameters layer hasBuffer length with (cause | cause) | out <;> exact ⟨rfl, rfl⟩
  | gradient tensor =>
    have hl : e.hushed.exportGradient tensor =
        (fun out => (out.1, out.2.hushed)) <$> e.exportGradient tensor := by
      simp only [exportGradient, map_bind]
      refine congrArg _ (funext fun n => ?_)
      have hs : e.hushed.store = e.store := rfl
      cases h : e.store.gradient n <;> simp only [hs, h] <;> rfl
    simp only [answer, attempt_fst, hushed_attempt, hl]
    rcases e.exportGradient tensor with (cause | cause) | out <;> exact ⟨rfl, rfl⟩

end Answers

end Engine

end DiffTensor
