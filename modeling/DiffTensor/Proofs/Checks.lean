import DiffTensor.Proofs.Linear
import DiffTensor.Proofs.Passing

/-!
# The checks of the host and those of the library

Each rule on dimensions is checked twice: on the host, on the integers that wrappers keep, and in
the library, on the shapes of nodes. Both refuse the same operands, for reasons of the same kind
(`Outcome.Heeds`). What the host lets pass the library does not refuse: it succeeds, with the shape
that the host has worked out, or it breaks off because there is no room for the result.
-/

namespace DiffTensor

variable {α β γ : Type}

/-- The kind of refusals of the library that goes with a refusal of the host, if there is one. -/
def HostError.kind? : HostError → Option ErrorKind
  | configuration _ => some .invalidArgument
  | shapeMismatch .. => some .shapeMismatch
  | unsupportedRank .. => some .unsupportedRank
  | released _ | autograd _ | library .. => none

/-- The computation was not refused, but has broken off. -/
def Failure.Crashed : Failure → Prop
  | refused _ => False
  | crashed _ => True

namespace Outcome

/-- The computation goes by a check. Where the check refuses, it is refused for a reason of the same
kind; otherwise its result, if it does not break off, has the shape that the check has found. -/
def Heeds (x : Outcome β) (check : Except HostError (List Int)) (shape : β → List Nat) : Prop :=
  match check with
  | .error cause => ∃ reason, x = refuse reason ∧ cause.kind? = some reason.kind
  | .ok dims => x.Yields Failure.Crashed fun b => (shape b).map Int.ofNat = dims

variable {x : Outcome β} {check : Except HostError (List Int)} {shape : β → List Nat}

/-- A result may be kept in something else of its shape. -/
theorem Heeds.bind_pure (h : x.Heeds check shape) {f : β → γ} {shape' : γ → List Nat}
    (hf : ∀ b, shape' (f b) = shape b) : (x >>= fun b => pure (f b)).Heeds check shape' := by
  cases check with
  | error cause =>
    obtain ⟨reason, rfl, hk⟩ := h
    exact ⟨reason, rfl, hk⟩
  | ok dims => exact Yields.bind h fun b hb => yields_ok ((congrArg _ (hf b)).trans hb)

theorem yields_crash (cause : Crash) {P : β → Prop} :
    (crash cause : Outcome β).Yields Failure.Crashed P := .inr ⟨_, rfl, trivial⟩

end Outcome

/-! ## Broadcasting -/

namespace Shape

theorem joinDim_ofNat (a b : Nat) :
    joinDim (Int.ofNat a) (Int.ofNat b) = (joinDim a b).map Int.ofNat := by
  have h1 (n : Nat) : Int.ofNat n = 1 ↔ n = 1 := Int.ofNat_inj
  simp only [joinDim, Int.ofNat.injEq, h1]
  split_ifs <;> rfl

theorem joinReversed_ofNat : ∀ as bs : List Nat,
    joinReversed (as.map Int.ofNat) (bs.map Int.ofNat) =
      (joinReversed as bs).map (List.map Int.ofNat)
  | [], _ => rfl
  | _ :: _, [] => rfl
  | a :: as, b :: bs => by
    simp only [List.map_cons, joinReversed, joinDim_ofNat, joinReversed_ofNat as bs]
    cases joinDim a b <;> cases joinReversed as bs <;> rfl

/-- Dimensions are joined as integers as they are as natural numbers. -/
theorem join_ofNat (a b : List Nat) :
    join (a.map Int.ofNat) (b.map Int.ofNat) = (join a b).map (List.map Int.ofNat) := by
  rw [join, ← List.map_reverse, ← List.map_reverse, joinReversed_ofNat, join]
  cases joinReversed a.reverse b.reverse with
  | none => rfl
  | some dims => exact congrArg some (List.map_reverse ..).symm

end Shape

namespace Buffer

theorem heeds_combine [Scalar α] {a b : Buffer α} (ha : a.Sound) (hb : b.Sound)
    (operation name : String) (f : α → α → α) :
    (a.combine name b f).Heeds
      (Dims.join operation (a.shape.map Int.ofNat) (b.shape.map Int.ofNat)) shape := by
  rw [Dims.join, Shape.join_ofNat]
  cases hj : Shape.join a.shape b.shape with
  | none => exact ⟨.notBroadcastable name a.shape b.shape, by simp only [combine, hj], rfl⟩
  | some t =>
    show (a.combine name b f).Yields _ _
    by_cases h : Addressable a.shape b.shape t
    · obtain ⟨c, hc, hT⟩ := combine_eq ha.full hb.full hj h name f
      exact hc ▸ Outcome.yields_ok (congrArg _ hT.shape_eq)
    · rcases combine_crash hj h name f with hc | ⟨-, hc⟩ <;> rw [hc]
      · exact Outcome.yields_crash _
      · exact Outcome.yields_crash _

/-! ## Matrices -/

variable [Scalar α]

theorem heeds_product (a b : Buffer α) :
    (a.product b).Heeds (Dims.product (a.shape.map Int.ofNat) (b.shape.map Int.ofNat)) shape := by
  obtain ⟨sa, da⟩ := a
  obtain ⟨sb, db⟩ := b
  rcases sa with _ | ⟨rows, _ | ⟨inner, _ | ⟨_, _⟩⟩⟩ <;>
    rcases sb with _ | ⟨inner', _ | ⟨cols, _ | ⟨_, _⟩⟩⟩ <;> try exact ⟨_, rfl, rfl⟩
  -- Both are matrices.
  simp only [product, productBy, Dims.product, List.map_cons, List.map_nil, Int.ofNat.injEq, ne_eq,
    ite_not]
  by_cases hi : inner = inner'
  · simp only [if_pos hi]
    show Outcome.Yields _ _ _
    split_ifs
    · exact Outcome.yields_crash _
    · exact Outcome.yields_crash _
    · exact Outcome.yields_ok rfl
    · exact Outcome.yields_ok rfl
  · simp only [if_neg hi]
    exact ⟨_, rfl, rfl⟩

theorem heeds_transpose (b : Buffer α) :
    b.transpose.Heeds (Dims.transposed (b.shape.map Int.ofNat)) shape := by
  obtain ⟨shape, data⟩ := b
  rcases shape with _ | ⟨rows, _ | ⟨cols, _ | ⟨_, _⟩⟩⟩
  · exact Outcome.yields_ok rfl
  · exact Outcome.yields_ok rfl
  · exact Outcome.yields_ok rfl
  · exact ⟨_, rfl, rfl⟩

end Buffer

/-! ## Operations on nodes -/

/-- The shape of a node that has just been made. -/
def Store.shapeMade (made : NodeId × Store α) : List Nat := made.2.shape made.1

theorem Store.shape_record {s : Store α} {v : Buffer α} {rule : Rule α} {inputs : List NodeId} :
    shapeMade (s.record v rule inputs) = v.shape := by
  unfold record leaf
  split <;> exact shape_push_self

section

variable [Scalar α]

theorem BinaryOp.heeds_value (op : BinaryOp) {x y : Buffer α} (hx : x.Sound) (hy : y.Sound) :
    (op.value x y).Heeds (op.resultShape (x.shape.map Int.ofNat) (y.shape.map Int.ofNat))
      Buffer.shape := by
  cases op with
  | matmul => exact x.heeds_product y
  | _ => exact Buffer.heeds_combine hx hy ..

theorem UnaryOp.heeds_value (op : UnaryOp) (x : Buffer α) :
    (op.value x).Heeds (op.resultShape (x.shape.map Int.ofNat)) Buffer.shape := by
  cases op with
  | transpose => exact x.heeds_transpose
  | _ => exact Outcome.yields_ok rfl

/-- The shape of what a layer makes of an input of this shape, if it takes it: the last dimension
becomes the number of outputs. -/
def Host.Layer.resultShape (l : Host.Layer) (dims : List Int) : Except HostError (List Int) := do
  l.checkInput dims
  return dims.dropLast ++ [(l.outputs : Int)]

omit [Scalar α] in
/-- Of one or two dimensions the last has to be the number of inputs. -/
theorem Host.Layer.checkInput_ofNat (l : Host.Layer) {dims : List Nat} {n : Nat}
    (hd : dims.length = 1 ∨ dims.length = 2) (hn : dims.getLast? = some n) :
    l.checkInput (dims.map Int.ofNat) = if n = l.inputs then .ok ()
      else .error (.shapeMismatch "linear" (dims.map Int.ofNat) l.weightShape) := by
  have hrank : ¬((dims.map Int.ofNat).length ≠ 1 ∧ (dims.map Int.ofNat).length ≠ 2) := by
    rw [List.length_map]
    omega
  have hlast : some (Int.ofNat n) = some (l.inputs : Int) ↔ n = l.inputs :=
    Option.some_inj.trans Int.ofNat_inj
  rw [checkInput, if_neg hrank, List.getLast?_map, hn, Option.map_some]
  simp only [hlast]

namespace Linear

/-- A layer is applied to rows of its size unless there is no room for the result. -/
theorem value_yields {ins outs rows : Nat} {x weight : Buffer α} {output : List Nat}
    (hx : x.Sound) (hW : weight.Sound) (hw : weight.shape = [outs, ins])
    (hrow : RowWise ins outs rows x.shape output) (bias : Buffer α) :
    (value ins outs x weight bias).Yields Failure.Crashed fun out => out.2.shape = output := by
  have hrows := (hrow.proper_rows hx.proper).words rows (by simp)
  by_cases hroom : rows * outs < Extent.allocationLimit
  · have ho := Extent.proper_two hrows (hW.proper.words outs (by simp [hw])) hroom
    obtain ⟨matrix, out, hv, -, hT⟩ := value_eq hx hw hrow ho bias
    rw [hv]
    exact Outcome.yields_ok hT.shape_eq
  · obtain ⟨m, hm, hmT⟩ := Buffer.reshape_eq hx.full (hrow.proper_rows hx.proper)
      (by simp [hrow.prod_shape])
    obtain ⟨t, ht, htT⟩ := Buffer.transpose_eq hw
    obtain ⟨cause, hp⟩ : ∃ cause, m.product t = crash cause :=
      ⟨_, Buffer.productBy_crash Buffer.Kernel.plain hmT.shape_eq htT.shape_eq hroom⟩
    simp only [value, (rows_eq hrow).1, hm, ht, hp, Outcome.ok_bind, Outcome.crash_bind]
    exact Outcome.yields_crash _

omit [Scalar α] in
/-- The host and the library take the same inputs. -/
theorem rows_or_refused (l : Host.Layer) (dims : List Nat) :
    (∃ rows output, RowWise l.inputs l.outputs rows dims output ∧
      l.resultShape (dims.map Int.ofNat) = .ok (output.map Int.ofNat)) ∨
    ∃ cause reason, l.resultShape (dims.map Int.ofNat) = .error cause ∧
      rows l.inputs dims = refuse reason ∧ cause.kind? = some reason.kind := by
  unfold Host.Layer.resultShape
  match dims with
  | [] => exact .inr ⟨_, _, rfl, rfl, rfl⟩
  | [n] =>
    rw [l.checkInput_ofNat (n := n) (.inl rfl) rfl]
    by_cases hn : n = l.inputs
    · rw [if_pos hn]
      exact .inl ⟨1, [l.outputs], .inl ⟨hn ▸ rfl, rfl, rfl⟩, rfl⟩
    · rw [if_neg hn]
      exact .inr ⟨_, _, rfl, if_neg hn, rfl⟩
  | [r, n] =>
    rw [l.checkInput_ofNat (n := n) (.inr rfl) rfl]
    by_cases hn : n = l.inputs
    · rw [if_pos hn]
      exact .inl ⟨r, [r, l.outputs], .inr ⟨hn ▸ rfl, rfl⟩, rfl⟩
    · rw [if_neg hn]
      exact .inr ⟨_, _, rfl, if_neg hn, rfl⟩
  | r :: s :: n :: rest =>
    have hrank : l.checkInput ((r :: s :: n :: rest).map Int.ofNat) =
        .error (.unsupportedRank "linear" ((r :: s :: n :: rest).map Int.ofNat).length) :=
      if_pos (by simp)
    rw [hrank]
    exact .inr ⟨_, _, rfl, rfl, rfl⟩

theorem heeds_value {l : Host.Layer} {layer : Linear} {x weight : Buffer α} (hx : x.Sound)
    (hW : weight.Sound) (hw : weight.shape = [layer.outputs, layer.inputs])
    (hi : l.inputs = layer.inputs) (ho : l.outputs = layer.outputs) (bias : Buffer α) :
    (value layer.inputs layer.outputs x weight bias).Heeds
      (l.resultShape (x.shape.map Int.ofNat)) fun out => out.2.shape := by
  rcases rows_or_refused l x.shape with ⟨rows, output, hrow, hc⟩ | ⟨cause, reason, hc, hr, hk⟩ <;>
    rw [hc]
  · rw [hi, ho] at hrow
    exact (value_yields hx hW hw hrow bias).mono (fun _ h => h) fun _ h => congrArg _ h
  · refine ⟨reason, ?_, hk⟩
    rw [value, ← hi, hr]
    rfl

end Linear

end

/-! ## New tensors -/

/-- Samples between bounds are never refused: if the bounds make no sense, the draw breaks off. -/
def Sampler.Unrefusing (α : Type) [Sampler α] : Prop :=
  ∀ (bound : α) (s : Stream), (Sampler.uniform bound s).Yields Failure.Crashed fun _ => True

theorem Sampler.unrefusing_double : Sampler.Unrefusing Float := by
  intro bound s
  show (Stream.uniformDouble bound s).Yields _ _
  simp only [Stream.uniformDouble]
  split_ifs
  · exact Outcome.yields_crash _
  · exact Outcome.yields_crash _
  · exact Outcome.yields_ok trivial

theorem Buffer.yields_full (shape : List Nat) (value : α) :
    (full shape value).Yields Failure.Crashed fun b => b.shape = shape := by
  unfold full
  split
  · exact Outcome.yields_ok rfl
  · exact Outcome.yields_crash _

namespace Sampler

variable {draw : Stream → Outcome (α × Stream)} {excuse : Failure → Prop}

theorem yields_drawOnto (hd : ∀ s, (draw s).Yields excuse fun _ => True) :
    ∀ (n : Nat) (samples : Array α) (s : Stream),
      (drawOnto draw n samples s).Yields excuse fun _ => True
  | 0, _, _ => Outcome.yields_ok trivial
  | n + 1, samples, s => by
    unfold drawOnto
    rcases hd s with ⟨made, hm, -⟩ | ⟨cause, hm, hc⟩ <;> rw [hm]
    · exact yields_drawOnto hd n _ _
    · exact .inr ⟨cause, rfl, hc⟩

/-- Where there is room, only a draw can fail. -/
theorem yields_fill_of_room (hd : ∀ s, (draw s).Yields excuse fun _ => True) {shape : List Nat}
    (hr : Extent.saturated shape < Extent.allocationLimit) (s : Stream) :
    (fill draw shape s).Yields excuse fun made => made.1.shape = shape := by
  unfold fill
  simp only [if_neg (Nat.not_le.2 hr)]
  rcases yields_drawOnto hd (Extent.saturated shape) #[] s with
    ⟨⟨data, s'⟩, hm, -⟩ | ⟨cause, hm, hc⟩
  · have hsize : data.size = Extent.saturated shape := (size_drawOnto _ hm).trans (Nat.zero_add _)
    simp only [hm, Outcome.ok_bind, Buffer.fill, if_pos hsize]
    exact Outcome.yields_ok rfl
  · simp only [hm]
    exact .inr ⟨cause, rfl, hc⟩

theorem yields_fill (hd : ∀ s, (draw s).Yields Failure.Crashed fun _ => True) (shape : List Nat)
    (s : Stream) : (fill draw shape s).Yields Failure.Crashed fun made => made.1.shape = shape := by
  by_cases hr : Extent.saturated shape < Extent.allocationLimit
  · exact yields_fill_of_room hd hr s
  · unfold fill
    rw [if_pos (Nat.not_lt.1 hr)]
    exact Outcome.yields_crash _

end Sampler

namespace Dims

theorem ofNat_toNat {dims : List Int} (h : checked dims = .ok ()) :
    (dims.map Int.toNat).map Int.ofNat = dims := by
  obtain ⟨⟨⟩, hn, -⟩ := HostError.bind_eq_ok_iff.1 h
  unfold nonNegative at hn
  split at hn
  · cases hn
  rename_i hf
  rw [List.map_map]
  refine (List.map_congr_left fun d hd => ?_).trans (List.map_id dims)
  have hneg := List.find?_eq_none.1 hf d hd
  exact Int.toNat_of_nonneg (by simpa using hneg)

end Dims

theorem Store.yields_newLinear [Scalar α] [Sampler α] (hu : Sampler.Unrefusing α) (s : Store α)
    (stream : Stream) {inputs outputs : Nat}
    (h : Host.Layer.checkFeatures inputs outputs = .ok ()) :
    (s.newLinear stream inputs outputs).Yields Failure.Crashed fun _ => True := by
  unfold Host.Layer.checkFeatures at h
  split_ifs at h with h0 hm
  have hw : ¬Extent.wordLimit ≤ inputs * outputs := by
    unfold Extent.wordLimit
    omega
  simp only [newLinear, if_neg h0, if_neg hw]
  refine Outcome.Yields.bind (Sampler.yields_fill (hu _) [outputs, inputs] stream) fun made _ => ?_
  refine Outcome.Yields.bind (Sampler.yields_fill (hu _) [outputs] made.2) fun made' _ => ?_
  exact Outcome.yields_ok trivial

namespace Engine

variable [Scalar α] [Sampler α] {e : Engine α} {h k : Handle} {n m : NodeId}

theorem yields_filledBuffer (filling : Filling) (shape : List Nat) (stream : Stream) :
    (filledBuffer (α := α) filling shape stream).Yields Failure.Crashed
      fun made => made.1.shape = shape := by
  cases filling with
  | zeros => exact (Buffer.yields_full shape 0).bind fun b hb => Outcome.yields_ok hb
  | ones => exact (Buffer.yields_full shape 1).bind fun b hb => Outcome.yields_ok hb
  | normal => exact Sampler.yields_fill (fun s => Outcome.yields_ok trivial) shape stream

/-! ## Calls -/

/-- The shape of a tensor that has been made. -/
def madeShape (new : Object α × Store α × Stream) : List Nat :=
  match new.1 with
  | .tensor n => Store.shapeMade (n, new.2.1)
  | _ => []

theorem heeds_binary (hS : e.Sound) (ha : e.object? h = some (.tensor n))
    (hb : e.object? k = some (.tensor m)) (op : BinaryOp) :
    (e.build (.binary op (some h) (some k))).Heeds
      (op.resultShape ((e.store.shape n).map Int.ofNat) ((e.store.shape m).map Int.ofNat))
      madeShape := by
  simp only [build, tensor_of_object? ha, tensor_of_object? hb, Outcome.ok_bind]
  have hmade : (e.store.binary op n m).Heeds _ Store.shapeMade :=
    (op.heeds_value (hS.graph.sound.values n) (hS.graph.sound.values m)).bind_pure
      fun _ => Store.shape_record
  exact hmade.bind_pure fun _ => rfl

theorem heeds_unary (ha : e.object? h = some (.tensor n)) (op : UnaryOp) :
    (e.build (.unary op (some h))).Heeds (op.resultShape ((e.store.shape n).map Int.ofNat))
      madeShape := by
  simp only [build, tensor_of_object? ha, Outcome.ok_bind]
  have hmade : (e.store.unary op n).Heeds _ Store.shapeMade :=
    (op.heeds_value (e.store.value n)).bind_pure fun _ => Store.shape_record
  exact hmade.bind_pure fun _ => rfl

theorem heeds_applyLinear (hS : e.Sound) {l : Host.Layer} {layer : Linear}
    (hl : e.object? h = some (.layer layer)) (ha : e.object? k = some (.tensor n))
    (hi : l.inputs = layer.inputs) (ho : l.outputs = layer.outputs) :
    (e.build (.applyLinear (some h) (some k))).Heeds
      (l.resultShape ((e.store.shape n).map Int.ofNat)) madeShape := by
  have hfits : layer.Fits e.store := hS.objects h _ hl
  simp only [build, layer_of_object? hl, tensor_of_object? ha, Outcome.ok_bind]
  have hvalue := Linear.heeds_value (hS.graph.sound.values n) (hS.graph.sound.values layer.weight)
    hfits.weight.2 hi ho (e.store.value layer.bias)
  have hmade : (e.store.applyLinear layer n).Heeds _ Store.shapeMade :=
    hvalue.bind_pure fun _ => Store.shape_record
  exact hmade.bind_pure fun _ => rfl

theorem heeds_filled (e : Engine α) (filling : Filling) (dims : List Int) :
    (e.build (.filled filling (Host.Tensor.passed dims) dims.length)).Heeds
      ((fun _ => dims) <$> Dims.checked dims) madeShape := by
  rcases readShape_passed dims with ⟨hc, hr⟩ | ⟨reason, cause, hc, hr, hk⟩ <;>
    simp only [hc, build, hr, Outcome.ok_bind, Outcome.refuse_bind]
  · refine Outcome.Yields.bind (yields_filledBuffer ..) fun made hm => Outcome.yields_ok ?_
    have hshape : madeShape (.tensor (e.store.leaf made.1).1, (e.store.leaf made.1).2, made.2) =
        made.1.shape := Store.shape_push_self
    rw [hshape, hm, Dims.ofNat_toNat hc]
  · exact ⟨cause, rfl, hk ▸ rfl⟩

/-- Values that the host takes are not refused. -/
theorem yields_ofValues (e : Engine α) {values : List α} {dims : Option (List Int)}
    {c : Creation α Handle} (hv : values.length < Extent.allocationLimit)
    (hc : Host.Tensor.ofValuesCall values dims = .ok c) :
    (e.build c).Yields Failure.Crashed fun _ => True := by
  obtain ⟨shape, hshape, hc⟩ := HostError.bind_eq_ok_iff.1 hc
  cases hc
  obtain ⟨-, hchecked, hcount⟩ := Host.Tensor.shapeOfValues_eq hv hshape
  rw [Dims.count_eq_checked] at hcount
  have hsize : values.toArray.size = Extent.saturated (shape.map Int.toNat) := by
    simp [Extent.saturated, hcount]
  simp only [build, readShape_of_checked hchecked, readData_passed, Outcome.ok_bind, Buffer.fill,
    if_pos hsize]
  exact Outcome.yields_ok trivial

/-- A layer that the host asks for is not refused. -/
theorem yields_newLinear (hu : Sampler.Unrefusing α) (e : Engine α) {inputs outputs : Nat}
    {c : Creation α Handle} (hc : Host.Layer.createCall inputs outputs = .ok c) :
    (e.build c).Yields Failure.Crashed fun _ => True := by
  obtain ⟨⟨⟩, hcheck, hc⟩ := HostError.bind_eq_ok_iff.1 hc
  cases hc
  exact (e.store.yields_newLinear hu e.stream hcheck).bind fun _ _ => Outcome.yields_ok trivial

end Engine

end DiffTensor
