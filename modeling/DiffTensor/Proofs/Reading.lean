import DiffTensor.Proofs.Linear
import DiffTensor.Proofs.Store

/-!
# Operations that ran

A `Reading` is an operation together with its operands and the values that they had when it ran.
All operations that are recorded, layers included, are runs of a reading: the result and the rule
are computed from these values (`kept`), and recorded (`Store.run`).

What an operation keeps always fits its operands and its result (`Reading.fits`), so recording
keeps the invariant of the graph.
-/

namespace DiffTensor

/-- An operation with its operands, and their values at the time it ran. -/
inductive Reading (α : Type) where
  | unary (op : UnaryOp) (a : NodeId) (x : Buffer α)
  | binary (op : BinaryOp) (a b : NodeId) (x y : Buffer α)
  | linear (layer : Linear) (a : NodeId) (x weight bias : Buffer α)

variable {α : Type}

namespace Reading

/-- The operands, each with the value that was read. -/
def operands : Reading α → List (NodeId × Buffer α)
  | unary _ a x => [(a, x)]
  | binary _ a b x y => [(a, x), (b, y)]
  | linear layer a x weight bias => [(a, x), (layer.weight, weight), (layer.bias, bias)]

/-- The values that were read can exist, and the parameters of a layer have their shapes. -/
structure Sound (r : Reading α) : Prop where
  values : ∀ q ∈ r.operands, q.2.Sound
  parameters : ∀ layer a x weight bias, r = linear layer a x weight bias →
    weight.shape = [layer.outputs, layer.inputs] ∧ bias.shape = [layer.outputs]

variable [Scalar α]

/-- The result, and the rule that is kept with it. -/
def kept : Reading α → Outcome (Buffer α × Rule α)
  | unary op _ x => do
    let y ← op.value x
    return (y, op.rule x y)
  | binary op _ _ x y => do return (← op.value x y, op.rule x y)
  | linear layer _ x weight bias => do
    let (matrix, y) ← Linear.value layer.inputs layer.outputs x weight bias
    return (y, .linear matrix weight x.shape)

theorem unary_fits {op : UnaryOp} {x y : Buffer α} (hx : x.Sound) (h : op.value x = .ok y) :
    y.Sound ∧ (op.rule x y).Fits [x.shape] y.shape := by
  cases op with
  | transpose =>
    rcases Buffer.transpose_inv h with ⟨hl, rfl⟩ | ⟨rows, cols, hs⟩
    · exact ⟨hx, Or.inl ⟨rfl, hl⟩⟩
    · obtain ⟨c, hc, hT⟩ := Buffer.transpose_eq hs
      obtain rfl : c = y := Except.ok.inj (hc.symm.trans h)
      have hp : Extent.Proper [rows, cols] := hs ▸ hx.proper
      exact ⟨hT.sound hp.swap, Or.inr ⟨rows, cols, by rw [hs], hT.shape_eq⟩⟩
  | relu =>
    obtain rfl := Except.ok.inj h
    exact ⟨(Buffer.tabulates_map hx.full _).sound hx.proper, rfl, rfl, hx⟩
  | sigmoid =>
    obtain rfl := Except.ok.inj h
    have hy := (Buffer.tabulates_map hx.full Scalar.logistic).sound hx.proper
    exact ⟨hy, rfl, rfl, hy⟩
  | sum =>
    obtain rfl := Except.ok.inj h
    exact ⟨⟨Extent.proper_nil, rfl⟩, rfl, rfl, hx.proper⟩
  | mean =>
    obtain rfl := Except.ok.inj h
    exact ⟨⟨Extent.proper_nil, rfl⟩, rfl, rfl, hx.proper⟩

theorem combine_sound {a b c : Buffer α} {name : String} {f : α → α → α} (ha : a.Sound)
    (hb : b.Sound) (h : a.combine name b f = .ok c) :
    c.Sound ∧ Shape.join a.shape b.shape = some c.shape := by
  obtain ⟨hj, hp, hc⟩ := Buffer.combine_inv ha hb h
  obtain ⟨c', hc', hT⟩ := Buffer.combine_eq ha.full hb.full hj (hc.addressable hp) name f
  obtain rfl : c' = c := Except.ok.inj (hc'.symm.trans h)
  exact ⟨hT.sound hp, hj⟩

theorem binary_fits {op : BinaryOp} {x y z : Buffer α} (hx : x.Sound) (hy : y.Sound)
    (h : op.value x y = .ok z) : z.Sound ∧ (op.rule x y).Fits [x.shape, y.shape] z.shape := by
  cases op with
  | add =>
    obtain ⟨hz, hj⟩ := combine_sound hx hy h
    exact ⟨hz, rfl, hj, hx.proper, hy.proper⟩
  | sub =>
    obtain ⟨hz, hj⟩ := combine_sound hx hy h
    exact ⟨hz, rfl, hj, hx.proper, hy.proper⟩
  | mul =>
    obtain ⟨hz, hj⟩ := combine_sound hx hy h
    exact ⟨hz, rfl, hj, hx, hy⟩
  | matmul =>
    obtain ⟨rows, inner, cols, hxs, hys, hroom⟩ := Buffer.product_inv h
    obtain ⟨c, hc, hT⟩ := Buffer.product_eq hxs hys hroom
    obtain rfl : c = z := Except.ok.inj (hc.symm.trans h)
    have hp : Extent.Proper [rows, cols] := Extent.proper_two
      (hx.proper.words rows (by simp [hxs])) (hy.proper.words cols (by simp [hys])) hroom
    exact ⟨hT.sound hp, rows, inner, cols, hxs, hys, by rw [hxs, hys], hT.shape_eq, hx, hy⟩

/-- The rule that an operation keeps fits its operands and its result. -/
theorem fits {r : Reading α} {y : Buffer α} {rule : Rule α} (hr : r.Sound)
    (h : r.kept = .ok (y, rule)) :
    y.Sound ∧ rule.Fits (r.operands.map (·.2.shape)) y.shape := by
  cases r with
  | unary op a x =>
    obtain ⟨y', hy, e⟩ := Outcome.bind_eq_ok_iff.1 h
    obtain ⟨rfl, rfl⟩ := Prod.mk.inj (Except.ok.inj e)
    exact unary_fits (hr.values (a, x) (by simp [operands])) hy
  | binary op a b x y =>
    obtain ⟨z, hz, e⟩ := Outcome.bind_eq_ok_iff.1 h
    obtain ⟨rfl, rfl⟩ := Prod.mk.inj (Except.ok.inj e)
    exact binary_fits (hr.values (a, x) (by simp [operands]))
      (hr.values (b, y) (by simp [operands])) hz
  | linear layer a x weight bias =>
    obtain ⟨⟨matrix, z⟩, hz, e⟩ := Outcome.bind_eq_ok_iff.1 h
    obtain ⟨rfl, rfl⟩ := Prod.mk.inj (Except.ok.inj e)
    have hx := hr.values (a, x) (by simp [operands])
    have hW := hr.values (layer.weight, weight) (by simp [operands])
    obtain ⟨hw, hb⟩ := hr.parameters layer a x weight bias rfl
    obtain ⟨rows, hrow, hp⟩ := Linear.value_inv hx hW hw hz
    obtain ⟨m, o, hmo, hmT, hoT⟩ := Linear.value_eq hx hw hrow hp bias
    obtain ⟨rfl, rfl⟩ := Prod.mk.inj (Except.ok.inj (hmo.symm.trans hz))
    exact ⟨hoT.sound (hrow.proper_results.2 hp), rows, layer.inputs, layer.outputs, hmT.shape_eq,
      hw, by simp [operands, hw, hb], hrow, hmT.sound (hrow.proper_rows hx.proper), hW,
      hx.proper⟩

end Reading

/-- The parameters of the layer are in the graph, and have the layer's shapes. -/
structure Linear.Fits (layer : Linear) (s : Store α) : Prop where
  weight : layer.weight < s.nodes.size ∧ s.shape layer.weight = [layer.outputs, layer.inputs]
  bias : layer.bias < s.nodes.size ∧ s.shape layer.bias = [layer.outputs]

namespace Store

variable [Scalar α] {s s' : Store α}

/-- Runs an operation on the values that it read, and records it. -/
def run (s : Store α) (r : Reading α) : Outcome (NodeId × Store α) := do
  let (y, rule) ← r.kept
  return s.record y rule (r.operands.map (·.1))

/-- What is read are the values that the operands have. -/
structure Reads (s : Store α) (r : Reading α) : Prop where
  existing : ∀ q ∈ r.operands, q.1 < s.nodes.size ∧ s.value q.1 = q.2
  parameters : ∀ layer a x weight bias, r = .linear layer a x weight bias →
    weight.shape = [layer.outputs, layer.inputs] ∧ bias.shape = [layer.outputs]

omit [Scalar α] in
theorem reads_unary (op : UnaryOp) {a : NodeId} (ha : a < s.nodes.size) :
    s.Reads (.unary op a (s.value a)) := by
  constructor
  · simpa [Reading.operands] using ha
  · intro _ _ _ _ _ e
    cases e

omit [Scalar α] in
theorem reads_binary (op : BinaryOp) {a b : NodeId} (ha : a < s.nodes.size)
    (hb : b < s.nodes.size) : s.Reads (.binary op a b (s.value a) (s.value b)) := by
  constructor
  · simpa [Reading.operands] using ⟨ha, hb⟩
  · intro _ _ _ _ _ e
    cases e

omit [Scalar α] in
theorem reads_linear {layer : Linear} (hl : layer.Fits s) {x : NodeId} (hx : x < s.nodes.size) :
    s.Reads (.linear layer x (s.value x) (s.value layer.weight) (s.value layer.bias)) := by
  constructor
  · simpa [Reading.operands] using ⟨hx, hl.weight.1, hl.bias.1⟩
  · intro _ _ _ _ _ e
    cases e
    exact ⟨hl.weight.2, hl.bias.2⟩

theorem unary_eq_run (s : Store α) (op : UnaryOp) (a : NodeId) :
    s.unary op a = s.run (.unary op a (s.value a)) := by
  cases h : op.value (s.value a) <;> simp [unary, run, Reading.kept, Reading.operands, h]

theorem binary_eq_run (s : Store α) (op : BinaryOp) (a b : NodeId) :
    s.binary op a b = s.run (.binary op a b (s.value a) (s.value b)) := by
  cases h : op.value (s.value a) (s.value b) <;>
    simp [binary, run, Reading.kept, Reading.operands, h]

theorem applyLinear_eq_run (s : Store α) (layer : Linear) (x : NodeId) :
    s.applyLinear layer x =
      s.run (.linear layer x (s.value x) (s.value layer.weight) (s.value layer.bias)) := by
  cases h : Linear.value layer.inputs layer.outputs (s.value x) (s.value layer.weight)
      (s.value layer.bias) <;>
    simp [applyLinear, run, Reading.kept, Reading.operands, h, shape]

omit [Scalar α] in
theorem Sound.reading {law : RuleLaw α} (h : s.Sound law) {r : Reading α} (hr : s.Reads r) :
    r.Sound :=
  ⟨fun q hq => (hr.existing q hq).2 ▸ h.values q.1, hr.parameters⟩

/-- Running an operation keeps the invariant. -/
theorem Sound.run (h : s.Sound Rule.Fits) {r : Reading α} (hr : s.Reads r) {n : NodeId}
    (hs : s.run r = .ok (n, s')) : s'.Sound Rule.Fits := by
  obtain ⟨⟨y, rule⟩, hk, e⟩ := Outcome.bind_eq_ok_iff.1 hs
  obtain rfl : (s.record y rule (r.operands.map (·.1))).2 = s' :=
    congrArg Prod.snd (Except.ok.inj e)
  obtain ⟨hy, hf⟩ := Reading.fits (h.reading hr) hk
  refine h.record hy (fun m hm => ?_) ?_
  · obtain ⟨q, hq, rfl⟩ := List.mem_map.1 hm
    exact (hr.existing q hq).1
  · have : r.operands.map (s.shape ∘ (·.1)) = r.operands.map (·.2.shape) :=
      List.map_congr_left fun q hq => congrArg Buffer.shape (hr.existing q hq).2
    rwa [List.map_map, this]

end Store

end DiffTensor
