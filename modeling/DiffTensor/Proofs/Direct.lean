import DiffTensor.Library.Engine
import DiffTensor.Proofs.Refusal
import DiffTensor.Session.Direct

/-!
# Steps without the host

What a step comes to on nodes, layers and optimizers, once its slots have been looked up: a step
that makes a node does one computation on the graph and the stream (`Builds`), and the others come
to what the graph's own operations come to.
-/

namespace DiffTensor

/-- Puts things into slots, in order. -/
def Slots.insertAll {β : Type} (slots : Slots β) : List (String × β) → Slots β
  | [] => slots
  | (name, x) :: rest => (slots.insert name x).insertAll rest

namespace Direct

open GraphSession (State Running Answer)
open HostSession (Step)

variable {α β : Type} {g : State α} {a b name : String} {n m : NodeId}

/-! ## Slots -/

theorem slot_bind {γ : Type} {slots : State α → Slots γ} {x : γ} (h : (slots g).find? name = some x)
    (f : γ → Running α β) : (GraphSession.filledSlot slots name >>= f) g = f x g := by
  have hs : (GraphSession.filledSlot slots name : Running α γ) g = (.ok x, g) := by
    simp only [GraphSession.filledSlot, h]
  exact bind_of_ok hs f

theorem slot_empty {γ : Type} {slots : State α → Slots γ} (h : (slots g).find? name = none)
    (f : γ → Running α β) :
    (GraphSession.filledSlot slots name >>= f) g = (.error .emptySlot, g) := by
  have hs : (GraphSession.filledSlot slots name : Running α γ) g = (.error .emptySlot, g) := by
    simp only [GraphSession.filledSlot, h]
  exact bind_of_error hs f

theorem nodeAt_bind (h : g.nodes.find? name = some n) (f : NodeId → Running α β) :
    (GraphSession.nodeAt name >>= f) g = f n g := slot_bind h f

theorem layerAt_bind {l : Linear} (h : g.layers.find? name = some l) (f : Linear → Running α β) :
    (GraphSession.layerAt name >>= f) g = f l g := slot_bind h f

theorem optimizerAt_bind {o : Optimizer α} (h : g.optimizers.find? name = some o)
    (f : Optimizer α → Running α β) : (GraphSession.optimizerAt name >>= f) g = f o g :=
  slot_bind h f

theorem nodeAt_empty (h : g.nodes.find? name = none) (f : NodeId → Running α β) :
    (GraphSession.nodeAt name >>= f) g = (.error .emptySlot, g) := slot_empty h f

theorem nodesAt_empty : ∀ {names : List String}, (∃ name ∈ names, g.nodes.find? name = none) →
    ∀ f : List NodeId → Running α β,
      (names.mapM GraphSession.nodeAt >>= f) g = (.error .emptySlot, g)
  | [], h, _ => by simp at h
  | name :: names, h, f => by
    rw [List.mapM_cons, bind_assoc]
    cases hn : g.nodes.find? name with
    | none => exact nodeAt_empty hn _
    | some n =>
      rw [nodeAt_bind hn, bind_assoc]
      refine nodesAt_empty ?_ _
      obtain ⟨other, hm, ho⟩ := h
      rcases List.mem_cons.1 hm with rfl | hm
      · rw [hn] at ho
        cases ho
      · exact ⟨other, hm, ho⟩

theorem nodesAt_bind : ∀ {names : List String} {nodes : List NodeId},
    names.mapM g.nodes.find? = some nodes → ∀ f : List NodeId → Running α β,
      (names.mapM GraphSession.nodeAt >>= f) g = f nodes g
  | [], _, h, f => by cases h; rfl
  | name :: names, nodes, h, f => by
    rw [List.mapM_cons] at h
    obtain ⟨n, hn, h⟩ := Option.bind_eq_some_iff.1 h
    obtain ⟨rest, hrest, h⟩ := Option.bind_eq_some_iff.1 h
    cases h
    rw [List.mapM_cons, bind_assoc, nodeAt_bind hn, bind_assoc, nodesAt_bind hrest, pure_bind]

/-- The step has found what it needs, and has not failed. -/
def Succeeded (a : Answer α) : Prop := (∀ cause, a ≠ .failed cause) ∧ a ≠ .emptySlot

theorem Succeeded.of {a : Answer α}
    (h : match a with | .failed _ | .emptySlot => False | _ => True) : Succeeded a := by
  constructor
  · rintro cause rfl
    exact h
  · rintro rfl
    exact h

/-! ## Steps that make a node -/

variable [Scalar α] [Sampler α]

/-- The step does a computation on the graph and the stream, and keeps the node that it makes. -/
def Builds (step : Step α) (out : String) (g : State α)
    (outcome : Outcome (NodeId × Store α × Stream)) : Prop :=
  match outcome with
  | .ok (n, store, stream) => ∃ a, answer step g =
      (a, { g with store, stream, nodes := g.nodes.insert out n }) ∧ Succeeded a
  | .error cause => answer step g = (.failed cause, g)

/-- A part of a step that keeps the node that it makes. -/
theorem builds_of_run {step : Step α} {out : String}
    {outcome : Outcome (NodeId × Store α × Stream)}
    (h : run step g = match outcome with
      | .ok (n, store, stream) => (.ok (.node (GraphSession.view store n)),
          { g with store, stream, nodes := g.nodes.insert out n })
      | .error cause => (.error (.failed cause), g)) : Builds step out g outcome := by
  unfold Builds answer
  rw [h]
  rcases outcome with cause | ⟨n, store, stream⟩
  · rfl
  · exact ⟨_, rfl, nofun, nofun⟩

theorem builds_binary {op : BinaryOp} {out : String} (ha : g.nodes.find? a = some n)
    (hb : g.nodes.find? b = some m) : Builds (.binary op a b out) out g
      ((fun made => (made.1, made.2, g.stream)) <$> g.store.binary op n m) := by
  refine builds_of_run ?_
  show GraphSession.run (.binary op a b out) g = _
  rw [GraphSession.run, nodeAt_bind ha, nodeAt_bind hb]
  show (GraphSession.perform (g.store.binary op n m) >>= GraphSession.keep out) g = _
  cases g.store.binary op n m <;> rfl

theorem builds_unary {op : UnaryOp} {out : String} (ha : g.nodes.find? a = some n) :
    Builds (.unary op a out) out g
      ((fun made => (made.1, made.2, g.stream)) <$> g.store.unary op n) := by
  refine builds_of_run ?_
  show GraphSession.run (.unary op a out) g = _
  rw [GraphSession.run, nodeAt_bind ha]
  show (GraphSession.perform (g.store.unary op n) >>= GraphSession.keep out) g = _
  cases g.store.unary op n <;> rfl

theorem builds_forward {layer : String} {l : Linear} {out : String}
    (hl : g.layers.find? layer = some l) (ha : g.nodes.find? a = some n) :
    Builds (.forward layer a out) out g
      ((fun made => (made.1, made.2, g.stream)) <$> g.store.applyLinear l n) := by
  refine builds_of_run ?_
  show GraphSession.run (.forward layer a out) g = _
  rw [GraphSession.run, layerAt_bind hl, nodeAt_bind ha]
  show (GraphSession.perform (g.store.applyLinear l n) >>= GraphSession.keep out) g = _
  cases g.store.applyLinear l n <;> rfl

theorem builds_ofValues {library : LibraryId} {values : List α} {dims : Option (List Int)}
    {out : String} : Builds (.ofValues library values dims out) out g
      ((fun value => ((g.store.leaf value).1, (g.store.leaf value).2, g.stream)) <$>
        Buffer.fill values.toArray ((dims.getD [(values.length : Int)]).map Int.toNat)) := by
  refine builds_of_run ?_
  show (GraphSession.perform (Buffer.fill values.toArray
    ((dims.getD [(values.length : Int)]).map Int.toNat)) >>= fun value => do
      GraphSession.keep out ((← get).store.leaf value) : Running α (Answer α)) g = _
  cases Buffer.fill values.toArray ((dims.getD [(values.length : Int)]).map Int.toNat) <;> rfl

theorem builds_filled {library : LibraryId} {filling : Filling} {dims : List Int} {out : String} :
    Builds (.filled library filling dims out) out g
      ((fun made => ((g.store.leaf made.1).1, (g.store.leaf made.1).2, made.2)) <$>
        Engine.filledBuffer filling (dims.map Int.toNat) g.stream) := by
  refine builds_of_run ?_
  show filled filling _ out g = _
  cases filling with
  | zeros =>
    show (do GraphSession.keep out ((← get).store.leaf (← GraphSession.perform
      (Buffer.zeros (dims.map Int.toNat)))) : Running α (Answer α)) g = _
    unfold Engine.filledBuffer
    cases Buffer.zeros (α := α) (dims.map Int.toNat) <;> rfl
  | ones =>
    show (do GraphSession.keep out ((← get).store.leaf (← GraphSession.perform
      (Buffer.full (dims.map Int.toNat) 1))) : Running α (Answer α)) g = _
    unfold Engine.filledBuffer
    cases Buffer.full (dims.map Int.toNat) (1 : α) <;> rfl
  | normal =>
    show (GraphSession.perform (Sampler.normals (dims.map Int.toNat) g.stream) >>= fun made => do
      modify fun g => { g with stream := made.2 }
      GraphSession.keep out ((← get).store.leaf made.1) : Running α (Answer α)) g = _
    unfold Engine.filledBuffer
    cases Sampler.normals (α := α) (dims.map Int.toNat) g.stream <;> rfl

/-! ## Other steps -/

/-- The answer that a step has come to, in either way. -/
def finish : Except (Answer α) (Answer α) × State α → Answer α × State α
  | (.ok a, g) => (a, g)
  | (.error a, g) => (a, g)

theorem answer_linear {library : LibraryId} {inputs outputs : Nat} {out : String} :
    answer (.linear library inputs outputs out) g =
      match g.store.newLinear g.stream inputs outputs with
      | .ok (layer, store, stream) =>
        (.done, { g with store, stream, layers := g.layers.insert out layer })
      | .error cause => (.failed cause, g) := by
  show finish ((GraphSession.perform (g.store.newLinear g.stream inputs outputs) >>= fun made => do
      set { g with store := made.2.1, stream := made.2.2, layers := g.layers.insert out made.1 }
      return .done : Running α (Answer α)) g) = _
  cases g.store.newLinear g.stream inputs outputs <;> rfl

theorem answer_adam {library : LibraryId} {params : List String} {nodes : List NodeId}
    {rates : AdamRates α} {out : String} (hp : params.mapM g.nodes.find? = some nodes) :
    answer (.adam library params rates out) g = match Adam.new g.store nodes rates with
      | .ok state => (.optimizer (Optimizer.adam state).parameters.length,
          { g with optimizers := g.optimizers.insert out (.adam state) })
      | .error cause => (.failed cause, g) := by
  show finish (GraphSession.run (.adam params rates out) g) = _
  rw [GraphSession.run, nodesAt_bind hp]
  show finish ((GraphSession.perform (Adam.new g.store nodes rates) >>= fun state =>
      GraphSession.keepOptimizer out (.adam state) : Running α (Answer α)) g) = _
  cases Adam.new g.store nodes rates <;> rfl

theorem answer_sgd {library : LibraryId} {params : List String} {nodes : List NodeId}
    {rates : SgdRates α} {out : String} (hp : params.mapM g.nodes.find? = some nodes) :
    answer (.sgd library params rates out) g = match Sgd.new nodes rates with
      | .ok state => (.optimizer (Optimizer.sgd state).parameters.length,
          { g with optimizers := g.optimizers.insert out (.sgd state) })
      | .error cause => (.failed cause, g) := by
  show finish (GraphSession.run (.sgd params rates out) g) = _
  rw [GraphSession.run, nodesAt_bind hp]
  cases Sgd.new nodes rates <;> rfl

theorem answer_setTracked {flag : Bool} (ha : g.nodes.find? a = some n) :
    answer (.setTracked a flag) g = match g.store.setTracked n flag with
      | .ok store => (.done, { g with store })
      | .error cause => (.failed cause, g) := by
  show finish (GraphSession.run (.setTracked a flag) g) = _
  rw [GraphSession.run, nodeAt_bind ha]
  show finish ((GraphSession.perform (g.store.setTracked n flag) >>= fun store => do
      GraphSession.setStore store
      return .done : Running α (Answer α)) g) = _
  cases g.store.setTracked n flag <;> rfl

/-- What a computation without a result of its own is answered with. -/
def ending : Outcome Unit → Answer α
  | .ok _ => .done
  | .error cause => .failed cause

theorem answer_backward (ha : g.nodes.find? a = some n) :
    answer (.backward a) g = (ending (g.store.backward n).1,
      { g with store := (g.store.backward n).2, log := g.log ++ g.store.backwardEvents n }) := by
  show finish (GraphSession.run (.backward a) g) = _
  rw [GraphSession.run, nodeAt_bind ha]
  show finish ((GraphSession.perform (g.store.backward n).1 >>= fun _ => pure .done :
      Running α (Answer α)) _) = _
  cases (g.store.backward n).1 <;> rfl

theorem answer_gradient {out : String} (ha : g.nodes.find? a = some n) :
    answer (.gradient a out) g = match g.store.gradient n with
      | none => (.gradient none, g)
      | some k => (.gradient (some (GraphSession.view g.store k)),
          { g with nodes := g.nodes.insert out k }) := by
  show finish (GraphSession.run (.gradient a out) g) = _
  rw [GraphSession.run, nodeAt_bind ha]
  show finish ((match g.store.gradient n with
    | none => pure (.gradient none)
    | some k => do
      GraphSession.setNode out k
      return .gradient (some (GraphSession.view g.store k)) : Running α (Answer α)) g) = _
  cases g.store.gradient n <;> rfl

omit [Scalar α] [Sampler α] in
theorem setNodes_eq : ∀ (items : List (String × NodeId)) (g : State α),
    GraphSession.setNodes items g = (.ok (), { g with nodes := g.nodes.insertAll items })
  | [], _ => rfl
  | (name, n) :: items, g => setNodes_eq items { g with nodes := g.nodes.insert name n }

theorem answer_parameters {layer : String} {l : Linear} {outs : List String}
    (hl : g.layers.find? layer = some l) : ∃ a, answer (.parameters layer outs) g =
      (a, { g with nodes := g.nodes.insertAll (outs.zip l.parameters) }) ∧ Succeeded a := by
  refine ⟨.parameters (l.parameters.map fun n => (g.store.shape n, g.store.tracked n)), ?_,
    nofun, nofun⟩
  show finish (GraphSession.run (.parameters layer outs) g) = _
  rw [GraphSession.run, layerAt_bind hl]
  show finish ((GraphSession.setNodes (outs.zip l.parameters) >>= fun _ => pure _ :
    Running α (Answer α)) g) = _
  rw [bind_of_ok (setNodes_eq _ g)]
  rfl

theorem answer_step {optimizer : String} {o : Optimizer α}
    (ho : g.optimizers.find? optimizer = some o) :
    answer (.step optimizer) g = (ending (o.step g.store).1,
      { g with store := (o.step g.store).2.2,
               optimizers := g.optimizers.insert optimizer (o.step g.store).2.1 }) := by
  show finish (GraphSession.run (.step optimizer) g) = _
  rw [GraphSession.run, optimizerAt_bind ho]
  show finish ((GraphSession.perform (o.step g.store).1 >>= fun _ => pure .done :
      Running α (Answer α)) _) = _
  cases (o.step g.store).1 <;> rfl

theorem answer_clearGradients {optimizer : String} {o : Optimizer α}
    (ho : g.optimizers.find? optimizer = some o) :
    answer (.clearGradients optimizer) g =
      (.done, { g with store := o.clearGradients g.store }) := by
  show finish (GraphSession.run (.clearGradients optimizer) g) = _
  rw [GraphSession.run, optimizerAt_bind ho]
  rfl

theorem answer_info (hn : g.nodes.find? name = some n) :
    ∃ b, answer (.info name) g = (b, g) ∧ Succeeded b :=
  ⟨_, congrArg finish (nodeAt_bind hn _), nofun, nofun⟩

/-- Steps that have nothing to do but to look into a slot. -/
def Looks : Step α → Prop
  | .values _ | .item _ | .info _ | .debug _ | .layerInfo _ | .optimizerInfo _ | .inject _
  | .census => True
  | _ => False

/-- Looking does not fail, and changes nothing. -/
theorem answer_looking {step : Step α} (h : Looks step) :
    ∃ b, answer step g = (b, g) ∧ ∀ cause, b ≠ .failed cause := by
  have hslot {γ : Type} {s : State α → Slots γ} {name : String} {f : γ → Answer α}
      (hf : ∀ x cause, f x ≠ .failed cause) :
      ∃ b, finish ((GraphSession.filledSlot s name >>= fun x => pure (f x)) g) = (b, g) ∧
        ∀ cause, b ≠ .failed cause := by
    cases hn : (s g).find? name with
    | none =>
      rw [slot_empty hn]
      exact ⟨_, rfl, nofun⟩
    | some x =>
      rw [slot_bind hn]
      exact ⟨_, rfl, hf x⟩
  have hnode (name : String) :
      ∃ b, answer (.info name) g = (b, g) ∧ ∀ cause, b ≠ .failed cause := by
    cases hn : g.nodes.find? name with
    | none => exact ⟨_, congrArg finish (nodeAt_empty hn _), nofun⟩
    | some n => exact ⟨_, congrArg finish (nodeAt_bind hn _), nofun⟩
  cases step with
  | values name | item name | info name | debug name => exact hnode name
  | layerInfo name => exact hslot (s := State.layers) (f := fun _ => .done) fun _ => nofun
  | optimizerInfo name =>
    exact hslot (s := State.optimizers) (f := .optimizerState) fun _ => nofun
  | inject fault | census => exact ⟨_, rfl, nofun⟩
  | _ => exact h.elim

/-- A step that needs what is in an empty slot does nothing. -/
theorem answer_emptySlot {step : Step α} (hk : ∀ kind name, step ≠ .destroy kind name)
    (h : ∃ p ∈ step.operands, (g.items p.1).find? p.2 = none) :
    answer step g = (.emptySlot, g) := by
  obtain ⟨p, hm, hn⟩ := h
  have hslot {γ : Type} {s : State α → Slots γ} {name : String} {f : γ → Running α (Answer α)}
      (hn : (s g).find? name = none) :
      finish ((GraphSession.filledSlot s name >>= f) g) = (.emptySlot, g) := by
    rw [slot_empty hn]
    rfl
  have hnodes {params : List String} {f : List NodeId → Running α (Answer α)}
      (hm : p ∈ params.map fun name => (ResourceKind.tensor, name)) :
      finish ((params.mapM GraphSession.nodeAt >>= f) g) = (.emptySlot, g) := by
    obtain ⟨name, hname, rfl⟩ := List.mem_map.1 hm
    rw [nodesAt_empty ⟨name, hname, hn⟩]
    rfl
  cases step with
  | binary op a b out =>
    cases ha : g.nodes.find? a with
    | none => exact hslot (s := State.nodes) ha
    | some n =>
      obtain rfl : p = (.tensor, b) := by
        rcases List.mem_cons.1 hm with rfl | hm
        · rw [show (g.items .tensor).find? a = some n from ha] at hn
          cases hn
        · exact List.mem_singleton.1 hm
      exact (congrArg finish (nodeAt_bind ha _)).trans (hslot (s := State.nodes) hn)
  | unary op a out | values a | item a | setTracked a flag | backward a | gradient a out =>
    obtain rfl := List.mem_singleton.1 hm
    exact hslot (s := State.nodes) hn
  | forward layer a out =>
    cases hl : g.layers.find? layer with
    | none => exact hslot (s := State.layers) hl
    | some l =>
      obtain rfl : p = (.tensor, a) := by
        rcases List.mem_cons.1 hm with rfl | hm
        · rw [show (g.items .layer).find? layer = some l from hl] at hn
          cases hn
        · exact List.mem_singleton.1 hm
      exact (congrArg finish (layerAt_bind hl _)).trans (hslot (s := State.nodes) hn)
  | parameters layer outs =>
    obtain rfl := List.mem_singleton.1 hm
    exact hslot (s := State.layers) hn
  | adam library params rates out | sgd library params rates out => exact hnodes hm
  | step optimizer | clearGradients optimizer =>
    obtain rfl := List.mem_singleton.1 hm
    exact hslot (s := State.optimizers) hn
  | destroy kind name => exact absurd rfl (hk kind name)
  | _ => exact absurd hm List.not_mem_nil

end Direct

end DiffTensor
