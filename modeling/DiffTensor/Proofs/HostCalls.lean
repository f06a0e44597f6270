import DiffTensor.Proofs.HostLayer
import DiffTensor.Proofs.Serving

/-!
# What operations of the host ask for

An operation that makes an object checks its operands, and then makes one call. The checks and
the call they lead to are a computation of their own (`binaryCall` and its like): the operation is
refused if it fails, without a trace, and otherwise comes to what the call comes to.
-/

namespace DiffTensor

open Host (Owned)

variable {α : Type}

/-! ## Calls that operations lead to -/

namespace Host.Tensor

def filledCall (filling : Filling) (dims : List Int) : Except HostError (Creation α Handle) := do
  Dims.checked dims
  return .filled filling (passed dims) dims.length

def ofValuesCall (values : List α) (dims : Option (List Int)) :
    Except HostError (Creation α Handle) := do
  let shape ← shapeOfValues values.length dims
  return .fromData (if values.isEmpty then none else some values) values.length (passed shape)
    shape.length

def binaryCall (op : BinaryOp) (a b : Tensor) : Except HostError (Creation α Handle) := do
  let left ← a.owned.handle
  let right ← b.owned.handle
  let _ ← op.resultShape a.shape b.shape
  sameLibrary op.hostName a.owned b.owned
  return .binary op (some left) (some right)

def unaryCall (op : UnaryOp) (a : Tensor) : Except HostError (Creation α Handle) := do
  let h ← a.owned.handle
  let _ ← op.resultShape a.shape
  return .unary op (some h)

section

variable {V : Type} (libs : Libraries α V) (library : LibraryId)

theorem filled_eq (filling : Filling) (dims : List Int) :
    filled libs library filling dims = Action.check (filledCall filling dims) >>=
      create libs library { operation := fillingName filling, left := dims } := by
  unfold filled filledCall
  cases Dims.checked dims <;> rfl

theorem ofValues_eq (values : List α) (dims : Option (List Int)) :
    ofValues libs library values dims = Action.check (ofValuesCall values dims) >>=
      create libs library { operation := "from_array",
                            left := (shapeOfValues values.length dims).toOption.getD [] } := by
  unfold ofValues ofValuesCall
  cases shapeOfValues values.length dims <;> rfl

omit library

theorem binary_eq (op : BinaryOp) (a b : Tensor) :
    binary libs op a b = Action.check (binaryCall op a b) >>=
      create libs a.library { operation := op.hostName, left := a.shape, right := b.shape } := by
  unfold binary binaryCall
  cases a.owned.handle with
  | error => rfl
  | ok left =>
    cases b.owned.handle with
    | error => rfl
    | ok right =>
      cases op.resultShape a.shape b.shape with
      | error => rfl
      | ok dims => cases sameLibrary op.hostName a.owned b.owned <;> rfl

theorem unary_eq (op : UnaryOp) (a : Tensor) :
    unary libs op a = Action.check (unaryCall op a) >>=
      create libs a.library { operation := op.hostName, left := a.shape } := by
  unfold unary unaryCall
  cases a.owned.handle with
  | error => rfl
  | ok h => cases op.resultShape a.shape <;> rfl

end

end Host.Tensor

namespace Host.Layer

def createCall (inputs outputs : Nat) : Except HostError (Creation α Handle) := do
  checkFeatures inputs outputs
  return .newLinear inputs outputs

def forwardCall (l : Layer) (x : Tensor) : Except HostError (Creation α Handle) := do
  let layer ← l.owned.handle
  let input ← x.owned.handle
  sameLibrary "linear" l.owned x.owned
  l.checkInput x.shape
  return .applyLinear (some layer) (some input)

theorem forward_eq {V : Type} (libs : Libraries α V) (l : Layer) (x : Tensor) :
    l.forward libs x = Action.check (forwardCall l x) >>=
      Tensor.create libs l.library
        { operation := "linear", left := x.shape, right := l.weightShape } := by
  unfold forward forwardCall
  cases l.owned.handle with
  | error => rfl
  | ok layer =>
    cases x.owned.handle with
    | error => rfl
    | ok input =>
      cases sameLibrary "linear" l.owned x.owned with
      | error => rfl
      | ok _ => cases l.checkInput x.shape <;> rfl

theorem create_eq {V : Type} (libs : Libraries α V) (library : LibraryId) (inputs outputs : Nat) :
    create libs library inputs outputs = Action.check (createCall inputs outputs) >>= fun c => do
      let h ← Action.create (libs library) { operation := "linear" } c
      return { owned := ← Owned.acquire .layer library h, inputs, outputs } := by
  unfold create createCall
  cases checkFeatures inputs outputs <;> rfl

end Host.Layer

namespace Host.Optimizer

variable [Scalar α]

def adamCall (library : LibraryId) (params : List Tensor) (rates : AdamRates α) :
    Except HostError (Creation α Handle) := do
  rates.check
  let handles ← someParameterHandles library params
  return .adam (some (handles.map some)) handles.length rates

def sgdCall (library : LibraryId) (params : List Tensor) (rates : SgdRates α) :
    Except HostError (Creation α Handle) := do
  rates.check
  let handles ← someParameterHandles library params
  return .sgd (some (handles.map some)) handles.length rates

variable {V : Type} (libs : Libraries α V) (library : LibraryId) (params : List Tensor)

theorem adam_eq (rates : AdamRates α) :
    adam libs library params rates = Action.check (adamCall library params rates) >>=
      create libs library .adam rates.rate
        ((someParameterHandles library params).toOption.getD []) := by
  unfold adam adamCall
  cases rates.check with
  | error => rfl
  | ok _ => cases someParameterHandles library params <;> rfl

theorem sgd_eq (rates : SgdRates α) :
    sgd libs library params rates = Action.check (sgdCall library params rates) >>=
      create libs library .sgd rates.rate
        ((someParameterHandles library params).toOption.getD []) := by
  unfold sgd sgdCall
  cases rates.check with
  | error => rfl
  | ok _ => cases someParameterHandles library params <;> rfl

end Host.Optimizer

/-- A check that goes on has found what it goes on with. -/
theorem HostError.bind_eq_ok_iff {β γ : Type} {x : Except HostError β} {f : β → Except HostError γ}
    {y : γ} : x >>= f = .ok y ↔ ∃ b, x = .ok b ∧ f b = .ok y := by
  cases x with
  | error cause => exact ⟨nofun, nofun⟩
  | ok b => exact ⟨fun h => ⟨b, rfl, h⟩, fun ⟨_, hb, h⟩ => Except.ok.inj hb ▸ h⟩

/-- The call makes a tensor, of arguments that lie in memory. -/
def Creation.MakesTensor (c : Creation α Handle) : Prop :=
  (Call.create c true).Representable ∧ c.kind = .tensor

section

variable {c : Creation α Handle}

theorem Host.Tensor.makesTensor_filled {filling : Filling} {dims : List Int}
    (hd : Words (some dims)) (hc : filledCall filling dims = .ok c) : c.MakesTensor := by
  obtain ⟨_, -, hc⟩ := HostError.bind_eq_ok_iff.1 hc
  cases hc
  exact ⟨words_passed hd, rfl⟩

theorem Host.Tensor.makesTensor_ofValues {values : List α} {dims : Option (List Int)}
    (hv : values.length < Extent.allocationLimit) (hd : Words dims)
    (hc : ofValuesCall values dims = .ok c) : c.MakesTensor := by
  obtain ⟨shape, hshape, hc⟩ := HostError.bind_eq_ok_iff.1 hc
  cases hc
  refine ⟨⟨words_passed (words_of_shapeOfValues hv hd hshape), fun l hl => ?_⟩, rfl⟩
  split at hl
  · cases hl
  · cases hl
    exact hv

theorem Host.Tensor.makesTensor_binary {op : BinaryOp} {a b : Tensor}
    (hc : binaryCall op a b = .ok c) : c.MakesTensor := by
  simp only [binaryCall, HostError.bind_eq_ok_iff] at hc
  obtain ⟨_, -, _, -, _, -, _, -, hc⟩ := hc
  cases hc
  exact ⟨trivial, rfl⟩

theorem Host.Tensor.makesTensor_unary {op : UnaryOp} {a : Tensor} (hc : unaryCall op a = .ok c) :
    c.MakesTensor := by
  simp only [unaryCall, HostError.bind_eq_ok_iff] at hc
  obtain ⟨_, -, _, -, hc⟩ := hc
  cases hc
  exact ⟨trivial, rfl⟩

theorem Host.Layer.makesTensor_forward {l : Layer} {x : Tensor} (hc : forwardCall l x = .ok c) :
    c.MakesTensor := by
  simp only [forwardCall, HostError.bind_eq_ok_iff] at hc
  obtain ⟨_, -, _, -, _, -, _, -, hc⟩ := hc
  cases hc
  exact ⟨trivial, rfl⟩

end

/-! ## What they come to -/

namespace Serving

variable {V β : Type} [Scalar α] [Sampler α] {libs : Libraries α V} {engine : V → Engine α}
  {calm asked : V → Prop} {e : Engine α} {library : LibraryId} {env : Env V}

/-- The operation was refused without a trace, or its call has failed and changed nothing. -/
def Balked (engine : V → Engine α) (asked : V → Prop) (e : Engine α) (env : Env V)
    (call : Except HostError (Creation α Handle)) (cause : HostFailure) (env' : Env V) : Prop :=
  (∃ reason, call = .error reason ∧ cause = .refused reason ∧ env' = env) ∨
    ∃ c, call = .ok c ∧ (∃ f, e.build c = .error f) ∧ At engine asked e env'

/-- The call has made a node, and its handle is wrapped. -/
def Made (engine : V → Engine α) (asked : V → Prop) (e : Engine α) (library : LibraryId)
    (call : Except HostError (Creation α Handle)) (t : Host.Tensor) (env : Env V) : Prop :=
  ∃ c n new, call = .ok c ∧ e.build c = .ok (.tensor n, new) ∧
    t = .wrapping library e.objects.size new.1 n ∧ At engine asked (e.made (.tensor n, new)) env

variable (hS : Serving libs engine calm asked) (hA : At engine calm e env)
include hA

omit hS in
/-- An operation that first finds out which call to make fails where there is none. -/
theorem meets_checked {call : Except HostError (Creation α Handle)}
    {f : Creation α Handle → Action V β} {Q : β → Env V → Prop}
    (hf : ∀ c, call = .ok c → Meets (At engine calm e) (f c) Q
      fun _ env' => (∃ cause, e.build c = .error cause) ∧ At engine asked e env') :
    Meets (· = env) (Action.check call >>= f) Q (Balked engine asked e env call) :=
  meets_local (fun c hc => .start hA ((hf c hc).imp (fun _ _ h => h)
    fun _ _ h => .inr ⟨c, hc, h⟩)) fun cause hc => .inl ⟨cause, hc, rfl, rfl⟩

include hS

/-- An operation that makes a tensor comes to what its call comes to. -/
theorem meets_making (hs : e.Sound) {call : Except HostError (Creation α Handle)}
    {site : CallSite} (hc : ∀ c, call = .ok c → c.MakesTensor) :
    Meets (· = env) (Action.check call >>= Host.Tensor.create libs library site)
      (Made engine asked e library call) (Balked engine asked e env call) := by
  refine meets_checked hA fun c hcall => ?_
  refine (hS.meets_newTensor hs (hc c hcall).1 (hc c hcall).2).imp_result ?_
  rintro _ _ ⟨n, new, hb, ht, hA'⟩
  exact ⟨c, n, new, hcall, hb, ht, hA'⟩

theorem meets_filled (hs : e.Sound) {filling : Filling} {dims : List Int} (hd : Words (some dims)) :
    Meets (· = env) (Host.Tensor.filled libs library filling dims)
      (Made engine asked e library (Host.Tensor.filledCall filling dims))
      (Balked engine asked e env (Host.Tensor.filledCall filling dims)) := by
  rw [Host.Tensor.filled_eq]
  exact hS.meets_making hA hs fun c hc => Host.Tensor.makesTensor_filled hd hc

theorem meets_ofValues (hs : e.Sound) {values : List α} {dims : Option (List Int)}
    (hv : values.length < Extent.allocationLimit) (hd : Words dims) :
    Meets (· = env) (Host.Tensor.ofValues libs library values dims)
      (Made engine asked e library (Host.Tensor.ofValuesCall values dims))
      (Balked engine asked e env (Host.Tensor.ofValuesCall values dims)) := by
  rw [Host.Tensor.ofValues_eq]
  exact hS.meets_making hA hs fun c hc => Host.Tensor.makesTensor_ofValues hv hd hc

theorem meets_binary (hs : e.Sound) {op : BinaryOp} {a b : Host.Tensor} :
    Meets (· = env) (Host.Tensor.binary libs op a b)
      (Made engine asked e a.library (Host.Tensor.binaryCall op a b))
      (Balked engine asked e env (Host.Tensor.binaryCall op a b)) := by
  rw [Host.Tensor.binary_eq]
  exact hS.meets_making hA hs fun c hc => Host.Tensor.makesTensor_binary hc

theorem meets_unary (hs : e.Sound) {op : UnaryOp} {a : Host.Tensor} :
    Meets (· = env) (Host.Tensor.unary libs op a)
      (Made engine asked e a.library (Host.Tensor.unaryCall op a))
      (Balked engine asked e env (Host.Tensor.unaryCall op a)) := by
  rw [Host.Tensor.unary_eq]
  exact hS.meets_making hA hs fun c hc => Host.Tensor.makesTensor_unary hc

theorem meets_forward (hs : e.Sound) {l : Host.Layer} {x : Host.Tensor} :
    Meets (· = env) (l.forward libs x)
      (Made engine asked e l.library (Host.Layer.forwardCall l x))
      (Balked engine asked e env (Host.Layer.forwardCall l x)) := by
  rw [Host.Layer.forward_eq]
  exact hS.meets_making hA hs fun c hc => Host.Layer.makesTensor_forward hc

/-- A layer is wrapped with the sizes that it was asked for. -/
theorem meets_layer {inputs outputs : Nat} :
    Meets (· = env) (Host.Layer.create libs library inputs outputs)
      (fun l env' => ∃ layer store stream,
        Host.Layer.createCall (α := α) inputs outputs = .ok (.newLinear inputs outputs) ∧
        e.store.newLinear e.stream inputs outputs = .ok (layer, store, stream) ∧
        l = ⟨⟨.layer, library, some e.objects.size⟩, inputs, outputs⟩ ∧
        At engine asked (e.made (.layer layer, store, stream)) env')
      (Balked engine asked e env (Host.Layer.createCall inputs outputs)) := by
  rw [Host.Layer.create_eq]
  refine meets_checked hA fun c hc => ?_
  have hcall := hc
  obtain ⟨_, -, hc⟩ := HostError.bind_eq_ok_iff.1 hc
  cases hc
  refine .bind (hS.meets_create _) fun h => .exists_left fun new => .assume fun hb => .assume ?_
  rintro rfl
  obtain ⟨⟨layer, store, stream⟩, hl, hnew⟩ := Outcome.bind_eq_ok_iff.1 hb
  cases hnew
  exact fun env' hA' => ⟨layer, store, stream, hcall, hl, rfl, hA'⟩

omit hA in
/-- An optimizer is wrapped with the number of its parameters. -/
theorem meets_optimizer {kind : OptimizerKind} {rate : α} {handles : List Handle}
    (c : Creation α Handle) :
    Meets (At engine calm e) (Host.Optimizer.create libs library kind rate handles c)
      (fun o env' => ∃ new, e.build c = .ok new ∧
        o = ⟨⟨.optimizer, library, some e.objects.size⟩, kind, rate, handles.length⟩ ∧
        At engine asked (e.made new) env')
      fun _ env' => (∃ cause, e.build c = .error cause) ∧ At engine asked e env' := by
  refine .bind (hS.meets_create c) fun h => .exists_left fun new => .assume fun hb => .assume ?_
  rintro rfl
  exact fun env' hA' => ⟨new, hb, rfl, hA'⟩

theorem meets_adam {params : List Host.Tensor} {rates : AdamRates α} :
    Meets (· = env) (Host.Optimizer.adam libs library params rates)
      (fun o env' => ∃ handles new,
        Host.Optimizer.someParameterHandles library params = .ok handles ∧
        e.build (.adam (some (handles.map some)) handles.length rates) = .ok new ∧
        o = ⟨⟨.optimizer, library, some e.objects.size⟩, .adam, rates.rate, handles.length⟩ ∧
        At engine asked (e.made new) env')
      (Balked engine asked e env (Host.Optimizer.adamCall library params rates)) := by
  rw [Host.Optimizer.adam_eq]
  refine meets_checked hA fun c hc => ?_
  simp only [Host.Optimizer.adamCall, HostError.bind_eq_ok_iff] at hc
  obtain ⟨_, -, handles, hh, hc⟩ := hc
  cases hc
  rw [hh]
  exact (hS.meets_optimizer _).imp_result fun _ _ ⟨new, h⟩ => ⟨handles, new, rfl, h⟩

theorem meets_sgd {params : List Host.Tensor} {rates : SgdRates α} :
    Meets (· = env) (Host.Optimizer.sgd libs library params rates)
      (fun o env' => ∃ handles new,
        Host.Optimizer.someParameterHandles library params = .ok handles ∧
        e.build (.sgd (some (handles.map some)) handles.length rates) = .ok new ∧
        o = ⟨⟨.optimizer, library, some e.objects.size⟩, .sgd, rates.rate, handles.length⟩ ∧
        At engine asked (e.made new) env')
      (Balked engine asked e env (Host.Optimizer.sgdCall library params rates)) := by
  rw [Host.Optimizer.sgd_eq]
  refine meets_checked hA fun c hc => ?_
  simp only [Host.Optimizer.sgdCall, HostError.bind_eq_ok_iff] at hc
  obtain ⟨_, -, handles, hh, hc⟩ := hc
  cases hc
  rw [hh]
  exact (hS.meets_optimizer _).imp_result fun _ _ ⟨new, h⟩ => ⟨handles, new, rfl, h⟩

end Serving

end DiffTensor
