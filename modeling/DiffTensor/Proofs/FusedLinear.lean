import DiffTensor.Proofs.Advance
import DiffTensor.Proofs.Exact
import DiffTensor.Proofs.Linear

/-!
# A layer and the operations that it stands for

A layer computes `x Wᵀ + b` in one operation with a gradient rule of its own. Written out, it is
three operations: a transposition, a matrix product and an addition under broadcasting
(`composeLinear`). Both give the same value, whatever the numbers are, and fail alike.

Backwards, what the layer sends to its operands is what a sweep over the three operations sends
to them. The only law of arithmetic in between is that the factors of a product may be swapped.
-/

namespace DiffTensor

variable {α : Type}

/-! ## Rows under broadcasting -/

namespace Layout

theorem onto_row (rows cols : Nat) : Onto [cols] [rows, cols] :=
  ⟨by simp, .cons (.inr rfl) .nil⟩

/-- Below a matrix, a row is read at the column. -/
theorem readAt_row {rows cols k : Nat} (hk : k < rows * cols) :
    readAt [cols] [rows, cols] k = k % cols := by
  have hcols : 0 < cols := Nat.pos_of_ne_zero fun h => by simp [h] at hk
  by_cases h : cols = 1 <;> simp [readAt, restrict, coordinates, flatten, h, Nat.mod_one]

theorem steady_row {cols : Nat} (h : Extent.Proper [cols]) : Steady [cols] := by
  refine (strides_cases [cols]).elim (·.1) fun hc => ?_
  have hw := h.words cols (by simp)
  simp [strides, hw, crash] at hc

theorem steady_matrix {rows cols : Nat} (h : Extent.Proper [rows, cols]) :
    Steady [rows, cols] := by
  refine (strides_cases [rows, cols]).elim (·.1) fun hc => ?_
  have hcols := h.words cols (by simp)
  have hroom : cols * rows < Extent.wordLimit := by
    have := h.room
    rw [List.prod_cons, List.prod_singleton, Nat.mul_comm] at this
    exact Nat.lt_trans this (by decide)
  simp [strides, hcols, hroom, crash] at hc

/-- The positions of a matrix in one column, from the first row to the last. -/
theorem filter_column {rows cols j : Nat} (hj : j < cols) :
    ((List.range (rows * cols)).filter fun k => k % cols = j) =
      (List.range rows).map fun i => i * cols + j := by
  induction rows with
  | zero => simp
  | succ rows ih =>
    have hrow : ((List.range cols).map (rows * cols + ·)).filter (fun k => k % cols = j) =
        [rows * cols + j] := by
      rw [List.filter_map]
      have : (List.range cols).filter ((fun k => decide (k % cols = j)) ∘ (rows * cols + ·)) =
          (List.range cols).filter (· = j) :=
        List.filter_congr fun l hl => by
          simp [Nat.mod_eq_of_lt (List.mem_range.1 hl)]
      rw [this]
      simp [List.filter_eq, List.count_eq_one_of_mem List.nodup_range (List.mem_range.2 hj)]
    rw [Nat.succ_mul, List.range_add, List.filter_append, ih, hrow, List.range_succ,
      List.map_append]
    rfl

end Layout

namespace Buffer

/-- The same elements, taken as another shape. -/
def inShape (b : Buffer α) (shape : List Nat) : Buffer α := ⟨shape, b.data⟩

theorem shaped_inShape {b : Buffer α} (hb : b.WellShaped) {shape : List Nat}
    (hp : b.shape.prod = shape.prod) : (b.inShape shape).Shaped shape := ⟨hb.trans hp, rfl⟩

theorem inShape_self {b : Buffer α} {shape : List Nat} (h : b.shape = shape) :
    b.inShape shape = b := by
  rw [← h]
  rfl

variable [Scalar α]

omit [Scalar α] in
theorem reshape_ok {b : Buffer α} (hb : b.WellShaped) {shape : List Nat} (h : Extent.Proper shape)
    (hp : shape.prod = b.shape.prod) : b.reshape shape = .ok (b.inShape shape) := by
  have hs : b.size = shape.prod := hb.trans hp.symm
  simp [reshape, inShape, h.saturated, hs]

theorem combine_row {m row : Buffer α} {rows cols : Nat} (hm : m.Shaped [rows, cols])
    (hr : row.Shaped [cols]) (hp : Extent.Proper [rows, cols]) (hc : Extent.Proper [cols])
    (name : String) : m.combine name row (· + ·) = .ok (m.addRow row cols) := by
  have hj : Shape.join m.shape row.shape = some [rows, cols] := by
    rw [hm.2, hr.2, Layout.join_absorb (Layout.onto_row rows cols)]
  have hsteady : Combinable m.shape row.shape := by
    rw [hm.2, hr.2]
    exact .inr ⟨Layout.steady_matrix hp, Layout.steady_row hc⟩
  obtain ⟨c, h, hT⟩ := combine_eq hm.1 hr.1 hj (hsteady.addressable hp) name (· + ·)
  have hA : (m.addRow row cols).Tabulates [rows, cols] _ := hm.2 ▸ tabulates_addRow hm.1 row cols
  rw [h]
  refine congrArg _ ((hT.congr fun k hk => ?_).unique hA)
  rw [hm.2, hr.2, Layout.readAt_self hk, Layout.readAt_row (by simpa using hk)]

theorem reduce_row {g : Buffer α} {rows cols : Nat} (hg : g.Shaped [rows, cols])
    (hp : Extent.Proper [rows, cols]) (hc : Extent.Proper [cols]) :
    g.reduce [cols] = .ok (g.columnSums rows cols) := by
  have ho : Layout.Onto [cols] g.shape := hg.2 ▸ Layout.onto_row rows cols
  have hne : g.shape ≠ [cols] := by simp [hg.2]
  have hA : Addable [cols] g.shape :=
    ⟨Layout.steady_row hc, hc.saturated_lt, hg.2 ▸ hp.saturated_lt⟩
  obtain ⟨c, h, hT⟩ := reduceByAdding_eq hg.1 ho hA
  rw [reduce_of_ne hne, h]
  refine congrArg _ ((hT.congr fun j hj => ?_).unique (tabulates_columnSums g rows cols))
  have hj : j < cols := by simpa using hj
  have hread : ((List.range (rows * cols)).filter fun k =>
      Layout.readAt [cols] [rows, cols] k = j) =
      (List.range rows).map fun i => i * cols + j := by
    rw [← Layout.filter_column hj]
    exact List.filter_congr fun k hk => by rw [Layout.readAt_row (List.mem_range.1 hk)]
  rw [readersOf, hg.2]
  simp only [List.prod_cons, List.prod_nil, Nat.mul_one]
  rw [hread, List.map_map, List.foldl_map]
  rfl

/-- Where factors may be swapped, `(aᵀ b)ᵀ` is `bᵀ a`. -/
theorem product_transpose (hmul : ∀ x y : α, x * y = y * x) {a b : Buffer α}
    {inner rows cols : Nat} (ha : a.shape = [inner, rows]) (hb : b.shape = [inner, cols])
    (hr : rows * cols < Extent.allocationLimit) :
    ∃ a' b' p q, a.transpose = .ok a' ∧ a'.product b = .ok p ∧ b.transpose = .ok b' ∧
      b'.product a = .ok q ∧ p.Shaped [rows, cols] ∧ q.Shaped [cols, rows] ∧
      p.transpose = .ok q := by
  obtain ⟨a', ha', hA⟩ := transpose_eq ha
  obtain ⟨b', hb', hB⟩ := transpose_eq hb
  obtain ⟨p, hp, hP⟩ := product_eq hA.shape_eq hb hr
  obtain ⟨q, hq, hQ⟩ := product_eq hB.shape_eq ha (Nat.mul_comm rows cols ▸ hr)
  obtain ⟨t, ht, hT⟩ := transpose_eq hP.shape_eq
  refine ⟨a', b', p, q, ha', hp, hb', hq, hP.shaped, hQ.shaped, ?_⟩
  rw [ht]
  refine congrArg _ (ext_matrix hT.full hQ.full hT.shape_eq hQ.shape_eq fun j hj i hi => ?_)
  rw [hT.entry_transpose hi hj, hP.entry_eq _ (by simpa using position_lt hi hj),
    hQ.entry_eq _ (by simpa using position_lt hj hi), position_div hj, position_mod hj,
    position_div hi, position_mod hi]
  unfold productEntry
  refine List.foldl_ext _ _ _ fun sum l hl => ?_
  have hl := List.mem_range.1 hl
  rw [hA.entry_transpose hl hi, hB.entry_transpose hl hj, hmul]

end Buffer

/-! ## The gradient rules -/

namespace Rule

variable [Scalar α]

/-- The rules of the three operations, one after the other: the addition sends the gradient on to
the product, the product sends one to the matrix and one to the transposed weight, and that one is
transposed again. What the layer's own rule sends is the same. -/
theorem linear_eq_chain (hmul : ∀ x y : α, x * y = y * x) {matrix weight g : Buffer α}
    {rows ins outs : Nat} {shape output : List Nat} (hm : matrix.shape = [rows, ins])
    (hw : weight.shape = [outs, ins]) (hM : matrix.Sound) (hW : weight.Sound)
    (hrow : RowWise ins outs rows shape output) (hs : Extent.Proper shape)
    (ho : Extent.Proper output) (hb : Extent.Proper [outs]) (hg : g.Shaped output) :
    ∃ transposed ofMatrix ofTransposed ofWeight ofBias,
      weight.transpose = .ok transposed ∧
      (Rule.add [rows, outs] [outs]).gradients (g.inShape [rows, outs]) =
        .ok [(g.inShape [rows, outs]), ofBias] ∧
      (Rule.matmul matrix transposed).gradients (g.inShape [rows, outs]) =
        .ok [ofMatrix, ofTransposed] ∧
      Rule.transpose.gradients ofTransposed = .ok [ofWeight] ∧
      (Rule.linear matrix weight shape).gradients g =
        .ok [ofMatrix.inShape shape, ofWeight, ofBias] ∧
      ofMatrix.Shaped [rows, ins] ∧ ofTransposed.Shaped [ins, outs] ∧
      ofWeight.Shaped [outs, ins] ∧ ofBias.Shaped [outs] := by
  have hp : Extent.Proper [rows, outs] := hrow.proper_results.1 ho
  have hri : rows * ins < Extent.allocationLimit := by simpa [hm] using hM.proper.room
  have hio : ins * outs < Extent.allocationLimit := by
    simpa [hw, Nat.mul_comm] using hW.proper.room
  have hG : (g.inShape [rows, outs]).Shaped [rows, outs] :=
    Buffer.shaped_inShape hg.1 (by simp [hg.2, hrow.prod_output])
  obtain ⟨t, ht, hT⟩ := Buffer.transpose_eq hw
  have htt := Buffer.transpose_transpose hW.full hw ht
  obtain ⟨x, hx, hX⟩ := Buffer.product_eq hG.2 hw hri
  obtain ⟨m', g', p, q, hm', hpr, hg', hq, hP, hQ, hpq⟩ :=
    Buffer.product_transpose hmul hm hG.2 hio
  have hsum := Buffer.reduce_row hG hp hb
  have hrows := Buffer.reshape_ok hg.1 hp (by simp [hg.2, hrow.prod_output])
  have hinput := Buffer.reshape_ok hX.full hs (by simp [hX.shape_eq, hrow.prod_shape])
  refine ⟨t, x, p, q, _, ht, ?_, ?_, ?_, ?_, hX.shaped, hP, hQ,
    (Buffer.tabulates_columnSums (g.inShape [rows, outs]) rows outs).shaped⟩
  · simp only [gradients, Buffer.reduce_self hG.2, hsum, Outcome.ok_bind]
    rfl
  · simp [gradients, htt, hx, hm', hpr]
  · simp [gradients, hpq]
  · simp [gradients, linearGradients, hm, hw, hrows, hx, hinput, hg', hq]

end Rule

/-! ## The value -/

namespace Linear

variable [Scalar α]

omit [Scalar α] in
theorem rows_refused {ins : Nat} {shape : List Nat} (h₁ : shape ≠ [ins])
    (h₂ : ∀ batch, shape ≠ [batch, ins]) : ∃ cause, Linear.rows ins shape = refuse cause := by
  match shape with
  | [] => exact ⟨_, rfl⟩
  | [n] => exact ⟨.layerInput ins [n], if_neg fun e : n = ins => h₁ (e ▸ rfl)⟩
  | [batch, n] => exact ⟨.layerInput ins [batch, n], if_neg fun e : n = ins => h₂ batch (e ▸ rfl)⟩
  | _ :: _ :: _ :: _ => exact ⟨_, rfl⟩

/-- A layer written out, on an input that is a matrix. -/
def composed (matrix weight bias : Buffer α) : Outcome (Buffer α) := do
  let product ← BinaryOp.matmul.value matrix (← UnaryOp.transpose.value weight)
  BinaryOp.add.value product bias

/-- A layer computes what it is written out as, or fails alike. -/
theorem value_eq_composed {x weight bias : Buffer α} {rows ins outs : Nat} {output : List Nat}
    (hx : x.Sound) (hW : weight.Sound) (hB : bias.Sound) (hw : weight.shape = [outs, ins])
    (hb : bias.shape = [outs]) (hrow : RowWise ins outs rows x.shape output) :
    value ins outs x weight bias =
      (composed (x.inShape [rows, ins]) weight bias).map fun y =>
        ((x.inShape [rows, ins]), y.inShape output) := by
  obtain ⟨hr, hout⟩ := rows_eq hrow
  have hrows := hrow.proper_rows hx.proper
  have hm := Buffer.reshape_ok hx.full hrows (by simp [hrow.prod_shape])
  obtain ⟨t, ht, hT⟩ := Buffer.transpose_eq hw
  simp only [value, composed, UnaryOp.value, BinaryOp.value, hr, hm, ht, Outcome.ok_bind, hout]
  cases hp : (x.inShape [rows, ins]).product t with
  | error e => rfl
  | ok p =>
    have hroom : rows * outs < Extent.allocationLimit := by
      obtain ⟨_, _, _, e, e', h⟩ := Buffer.product_inv hp
      rw [hT.shape_eq] at e'
      cases e
      cases e'
      exact h
    have hproper := Extent.proper_two (hrows.words rows (by simp))
      (hW.proper.words outs (by simp [hw])) hroom
    obtain ⟨p', hp', hP⟩ :=
      Buffer.product_eq (a := (x.inShape [rows, ins])) rfl hT.shape_eq hroom
    obtain rfl : p' = p := Except.ok.inj (hp'.symm.trans hp)
    have hA := Buffer.tabulates_addRow hP.full bias outs
    have hadd := Buffer.combine_row hP.shaped ⟨hB.full, hb⟩ hproper (hb ▸ hB.proper) "add"
    have hlay := Buffer.reshape_ok hA.full (hrow.proper_results.2 hproper)
      (by rw [hA.shape_eq, hP.shape_eq, hrow.prod_output]; simp)
    simp only [Outcome.ok_bind, hlay, hadd]
    rfl

/-- On matrices of its sizes it only breaks off when the result is too large to exist. -/
theorem composed_cases {m weight bias : Buffer α} {rows ins outs : Nat}
    (hm : m.Shaped [rows, ins]) (hr : rows < Extent.wordLimit) (hw : weight.shape = [outs, ins])
    (hW : weight.Sound) (hB : bias.Sound) (hb : bias.shape = [outs]) :
    if rows * outs < Extent.allocationLimit then
      ∃ y, composed m weight bias = .ok y ∧ y.Shaped [rows, outs]
    else ∃ cause, composed m weight bias = crash cause := by
  obtain ⟨t, ht, hT⟩ := Buffer.transpose_eq hw
  simp only [composed, UnaryOp.value, BinaryOp.value, ht, Outcome.ok_bind]
  split
  · rename_i hroom
    have hproper := Extent.proper_two hr (hW.proper.words outs (by simp [hw])) hroom
    obtain ⟨p, hp, hP⟩ := Buffer.product_eq hm.2 hT.shape_eq hroom
    have hA := (Buffer.tabulates_addRow hP.full bias outs).shaped
    rw [hP.shape_eq] at hA
    exact ⟨_, by rw [hp, Outcome.ok_bind, Buffer.combine_row hP.shaped ⟨hB.full, hb⟩ hproper
      (hb ▸ hB.proper)], hA⟩
  · rename_i hroom
    exact ⟨_, by rw [Buffer.product,
      Buffer.productBy_crash Buffer.Kernel.plain hm.2 hT.shape_eq hroom, Outcome.crash_bind]⟩

end Linear

namespace Store

variable [Scalar α]

/-! ## The graph -/

/-- What is sent when the nodes of `order` have their turns, after `root` has collected `g` and
nothing else is pending. Only tracked inputs are known. -/
def sent (s : Store α) (order : List NodeId) (root : NodeId) (g : Buffer α) :
    List (NodeId × Buffer α) :=
  s.mail (s.turns s.tracked order (.single root g))

omit [Scalar α] in
/-- The rows of an input as a matrix. A single row gets a node of its own. -/
def asRows (s : Store α) (x : NodeId) : NodeId × Store α :=
  match s.shape x with
  | [n] => s.push { value := ((s.value x).inShape [1, n]), tracked := s.tracked x }
  | _ => (x, s)

end Store

/-- The nodes of a layer that is written out: the rows of the input, and the three results. -/
structure Chain where
  matrix : NodeId
  transposed : NodeId
  product : NodeId
  result : NodeId

namespace Store

variable [Scalar α]

/-- Runs the operations that a layer stands for, one by one, on a matrix. -/
def composeOn (s : Store α) (layer : Linear) (matrix : NodeId) : Outcome (Chain × Store α) := do
  let (transposed, s) ← s.unary .transpose layer.weight
  let (product, s) ← s.binary .matmul matrix transposed
  let (result, s) ← s.binary .add product layer.bias
  return (⟨matrix, transposed, product, result⟩, s)

/-- The same on any input of the layer. -/
def composeLinear (s : Store α) (layer : Linear) (x : NodeId) : Outcome (Chain × Store α) :=
  (s.asRows x).2.composeOn layer (s.asRows x).1

omit [Scalar α] in
theorem asRows_eq {s : Store α} {x : NodeId} (hx : x < s.nodes.size) {ins outs rows : Nat}
    {output : List Nat} (hrow : RowWise ins outs rows (s.shape x) output) :
    ∃ m s', s.asRows x = (m, s') ∧ m < s'.nodes.size ∧
      s'.value m = (s.value x).inShape [rows, ins] ∧ s'.tracked m = s.tracked x ∧
      s.nodes.size ≤ s'.nodes.size ∧ (∀ n < s.nodes.size, s'.node n = s.node n) ∧
      (m = x ∨ s.nodes.size ≤ m) := by
  rcases hrow with ⟨hs, rfl, -⟩ | ⟨hs, -⟩
  · refine ⟨_, _, by simp only [asRows, hs]; rfl, lt_size_push s _, ?_, ?_, ?_,
      fun n hn => node_push_of_lt hn, .inr (Nat.le_refl _)⟩
    · exact congrArg Node.value node_push_self
    · rw [tracked, node_push_self]
    · rw [size_push]
      exact Nat.le_succ _
  · refine ⟨x, s, by simp only [asRows, hs], hx, ?_, rfl, Nat.le_refl _, fun _ _ => rfl, .inl rfl⟩
    rw [← hs]
    rfl

end Store

namespace Chain

variable [Scalar α]

/-- The three results stand in the graph behind their operands, each recorded with its rule if one
of its operands is tracked. -/
structure Recorded (c : Chain) (s : Store α) (layer : Linear)
    (added multiplied turned : Rule α) : Prop where
  tracked_transposed : s.tracked c.transposed = s.tracked layer.weight
  tracked_product : s.tracked c.product = (s.tracked c.matrix || s.tracked c.transposed)
  tracked_result : s.tracked c.result = (s.tracked c.product || s.tracked layer.bias)
  transposed : s.origin c.transposed =
    if s.tracked c.transposed then some ⟨turned, [layer.weight]⟩ else none
  product : s.origin c.product =
    if s.tracked c.product then some ⟨multiplied, [c.matrix, c.transposed]⟩ else none
  result : s.origin c.result =
    if s.tracked c.result then some ⟨added, [c.product, layer.bias]⟩ else none
  older : layer.weight < c.transposed ∧ layer.bias < c.transposed ∧ c.matrix < c.transposed
  order : c.transposed < c.product ∧ c.product < c.result

/-- The chain was made from the first graph, with the given values. -/
structure Made (c : Chain) (s s' : Store α) (layer : Linear) (m t p y : Buffer α) : Prop where
  matrix : s'.value c.matrix = m
  transposed : s'.value c.transposed = t
  product : s'.value c.product = p
  result : s'.value c.result = y
  old : ∀ n < s.nodes.size, s'.node n = s.node n
  newer : s.nodes.size ≤ c.transposed
  recorded : c.Recorded s' layer (.add p.shape (s.shape layer.bias)) (.matmul m t) .transpose

end Chain

namespace Store

variable [Scalar α] {s : Store α}

/-- A layer is written out in three more nodes, unless one of the operations fails. -/
theorem composeOn_eq {layer : Linear} {m : NodeId} {t : Buffer α}
    (hm : m < s.nodes.size) (hw : layer.weight < s.nodes.size) (hb : layer.bias < s.nodes.size)
    (ht : (s.value layer.weight).transpose = .ok t) :
    (∀ e, Linear.composed (s.value m) (s.value layer.weight) (s.value layer.bias) = .error e →
      s.composeOn layer m = .error e) ∧
    ∀ y, Linear.composed (s.value m) (s.value layer.weight) (s.value layer.bias) = .ok y →
      ∃ c s' p, s.composeOn layer m = .ok (c, s') ∧ (s.value m).product t = .ok p ∧
        c.matrix = m ∧ c.Made s s' layer (s.value m) t p y := by
  obtain ⟨s₁, e₁, z₁, old₁, new₁⟩ := record_eq s t .transpose [layer.weight]
  have hm₁ : s₁.value m = s.value m := by rw [value, old₁ m hm, value]
  have ht₁ : s₁.value s.nodes.size = t := by rw [value, new₁]
  simp only [composeOn, unary, binary, Linear.composed, UnaryOp.value, UnaryOp.rule, BinaryOp.value,
    ht, e₁, hm₁, ht₁, Outcome.ok_bind, Outcome.pure_eq]
  cases hp : (s.value m).product t with
  | error e => simp
  | ok p =>
    obtain ⟨s₂, e₂, z₂, old₂, new₂⟩ := record_eq s₁ p (.matmul (s.value m) t) [m, s.nodes.size]
    have hp₂ : s₂.value s₁.nodes.size = p := by rw [value, new₂]
    have hb₂ : s₂.value layer.bias = s.value layer.bias := by
      rw [value, old₂ _ (Nat.lt_trans hb z₁), old₁ _ hb, value]
    simp only [BinaryOp.rule, e₂, hp₂, hb₂, Outcome.ok_bind]
    cases hy : p.combine "add" (s.value layer.bias) (· + ·) with
    | error e => simp
    | ok y =>
      obtain ⟨s₃, e₃, z₃, old₃, new₃⟩ :=
        record_eq s₂ y (.add p.shape (s.value layer.bias).shape) [s₁.nodes.size, layer.bias]
      refine ⟨by simp, fun y' hy' => ?_⟩
      obtain rfl : y = y' := Except.ok.inj hy'
      have old : ∀ n < s.nodes.size, s₃.node n = s.node n := fun n hn => by
        rw [old₃ n (Nat.lt_trans hn (Nat.lt_trans z₁ z₂)), old₂ n (Nat.lt_trans hn z₁), old₁ n hn]
      have turned := (old₃ _ (Nat.lt_trans z₁ z₂)).trans ((old₂ _ z₁).trans new₁)
      have multiplied := (old₃ _ z₂).trans new₂
      refine ⟨⟨m, s.nodes.size, s₁.nodes.size, s₂.nodes.size⟩, s₃, p, ?_, rfl, rfl, ?_, ?_, ?_, ?_,
        old, Nat.le_refl _, ?_⟩
      · simp only [Outcome.ok_bind, e₃]
      · rw [value, old m hm, value]
      · rw [value, turned]
      · rw [value, multiplied]
      · rw [value, new₃]
      · have hmt : s₁.tracked m = s₃.tracked m := by rw [tracked, old₁ m hm, tracked, old m hm]
        have hkt : s₁.tracked s.nodes.size = s₃.tracked s.nodes.size := by
          rw [tracked, new₁, tracked, turned]
        have hwt : s.tracked layer.weight = s₃.tracked layer.weight := by
          rw [tracked, tracked, old _ hw]
        have hbt : s₂.tracked layer.bias = s₃.tracked layer.bias := by
          rw [tracked, old₂ _ (Nat.lt_trans hb z₁), old₁ _ hb, tracked, old _ hb]
        have hpt : s₂.tracked s₁.nodes.size = s₃.tracked s₁.nodes.size := by
          rw [tracked, new₂, tracked, multiplied]
        simp only [List.any_cons, List.any_nil, Bool.or_false, hmt, hkt, hwt, hbt, hpt] at *
        have t₁ : s₃.tracked s.nodes.size = s₃.tracked layer.weight := by rw [tracked, turned]
        have t₂ : s₃.tracked s₁.nodes.size = (s₃.tracked m || s₃.tracked s.nodes.size) := by
          rw [tracked, multiplied]
        have t₃ : s₃.tracked s₂.nodes.size =
            (s₃.tracked s₁.nodes.size || s₃.tracked layer.bias) := by rw [tracked, new₃]
        refine ⟨t₁, t₂, t₃, ?_, ?_, ?_, ⟨hw, hb, hm⟩, z₁, z₂⟩
        · rw [origin, turned, t₁]
        · rw [origin, multiplied, t₂]
        · rw [origin, new₃, t₃]
          rfl

theorem composeLinear_eq {layer : Linear} (hl : layer.Fits s) {x : NodeId}
    (hx : x < s.nodes.size) {rows : Nat} {output : List Nat}
    (hrow : RowWise layer.inputs layer.outputs rows (s.shape x) output) {t : Buffer α}
    (ht : (s.value layer.weight).transpose = .ok t) :
    (∀ e, Linear.composed ((s.value x).inShape [rows, layer.inputs])
        (s.value layer.weight) (s.value layer.bias) = .error e →
      s.composeLinear layer x = .error e) ∧
    ∀ y, Linear.composed ((s.value x).inShape [rows, layer.inputs])
        (s.value layer.weight) (s.value layer.bias) = .ok y →
      ∃ c s' p, s.composeLinear layer x = .ok (c, s') ∧
        ((s.value x).inShape [rows, layer.inputs]).product t = .ok p ∧
        s'.tracked c.matrix = s.tracked x ∧ (c.matrix = x ∨ s.nodes.size ≤ c.matrix) ∧
        c.Made s s' layer ((s.value x).inShape [rows, layer.inputs]) t p y := by
  obtain ⟨m, s₀, hrows, hm, hvalue, htracked, hsize, hnode, hmatrix⟩ := asRows_eq hx hrow
  simp only [composeLinear, hrows]
  have hw : s₀.value layer.weight = s.value layer.weight := by
    rw [value, hnode _ hl.weight.1, value]
  have hb : s₀.value layer.bias = s.value layer.bias := by rw [value, hnode _ hl.bias.1, value]
  obtain ⟨failed, made⟩ := composeOn_eq hm (Nat.lt_of_lt_of_le hl.weight.1 hsize)
    (Nat.lt_of_lt_of_le hl.bias.1 hsize) (hw.symm ▸ ht)
  simp only [hvalue, hw, hb] at failed made
  refine ⟨failed, fun y hy => ?_⟩
  obtain ⟨c, s', p, hc, hp, rfl, hmade⟩ := made y hy
  refine ⟨c, s', p, hc, hp, ?_, hmatrix, hmade.matrix, hmade.transposed, hmade.product,
    hmade.result, fun n hn => ?_, Nat.le_trans hsize hmade.newer, ?_⟩
  · rw [tracked, hmade.old _ hm, ← htracked, tracked]
  · rw [hmade.old n (Nat.lt_of_lt_of_le hn hsize), hnode n hn]
  · have hshape : s₀.shape layer.bias = s.shape layer.bias := congrArg Buffer.shape hb
    rw [← hshape]
    exact hmade.recorded

/-! ## What a sweep sends -/

theorem turns_of_none (known : NodeId → Bool) : ∀ (order : List NodeId) (s : Store α)
    {pending : Pending α}, (∀ n, pending n = none) → s.turns known order pending = []
  | [], _, _, _ => rfl
  | n :: rest, s, pending, h => by
    unfold turns
    rw [h n]
    exact turns_of_none known rest s h

/-- A last turn is taken whatever comes of it. -/
theorem turns_last {known : NodeId → Bool} {pending : Pending α} {n : NodeId} {g : Buffer α}
    (h : pending n = some g) : s.turns known [n] pending = [(n, g)] := by
  simp only [turns, h]
  split <;> rfl

/-- The turn of a node whose rule serves: what it sends is pending for its known inputs. -/
theorem turns_recorded (known : NodeId → Bool) {pending : Pending α} {n : NodeId} {g : Buffer α}
    {made : Recorded α} {grads : List (Buffer α)} (ho : s.origin n = some made)
    (hg : made.rule.gradients g = .ok grads) (hs : AllShaped grads (made.inputs.map s.shape))
    (hn : pending n = some g) (hp : (pending.set n none).Fitted s.shape) (rest : List NodeId) :
    ∃ next : Pending α, next.Fitted s.shape ∧
      (∀ k, next k = if known k then
        collect (pending.set n none k) (received (made.inputs.zip grads) k)
        else pending.set n none k) ∧
      s.turns known (n :: rest) pending = (n, g) :: s.turns known rest next := by
  have hlen : grads.length = made.inputs.length := by simpa using hs.length_eq
  obtain ⟨next, hnext, hfit, heq⟩ := Pending.spread_eq known (made.inputs.zip grads) hp
    (shaped_of_mem_zip hs)
  refine ⟨next, hfit, heq, ?_⟩
  rw [turns, hn]
  simp only [visit, ho, hg, hlen, ne_eq, not_true_eq_false, if_false, hnext, Outcome.ok_bind,
    Outcome.pure_eq]

theorem contributions_eq {n : NodeId} {g : Buffer α} {made : Recorded α}
    {grads : List (Buffer α)} (ho : s.origin n = if s.tracked n then some made else none)
    (hg : made.rule.gradients g = .ok grads) :
    s.contributions n g = if s.tracked n then made.inputs.zip grads else [] := by
  unfold contributions
  cases h : s.tracked n <;> simp [ho, h, hg]

end Store

namespace Chain

variable [Scalar α] {s : Store α} {c : Chain} {layer : Linear} {added multiplied turned : Rule α}

/-- The nodes of the three operations, results first. -/
def operations (c : Chain) : List NodeId := [c.result, c.product, c.transposed]

section

variable {g ofProduct ofBias ofMatrix ofTransposed ofWeight : Buffer α}

/-- The tracked ones of the three nodes have their turns one after the other. -/
theorem Recorded.turns (h : c.Recorded s layer added multiplied turned)
    (hy : added.gradients g = .ok [ofProduct, ofBias])
    (hp : multiplied.gradients ofProduct = .ok [ofMatrix, ofTransposed])
    (sy : AllShaped [ofProduct, ofBias] ([c.product, layer.bias].map s.shape))
    (sp : AllShaped [ofMatrix, ofTransposed] ([c.matrix, c.transposed].map s.shape)) :
    s.turns s.tracked c.operations (.single c.result g) =
      (c.result, g) :: if s.tracked c.product then
        (c.product, ofProduct) ::
          if s.tracked c.transposed then [(c.transposed, ofTransposed)] else []
        else [] := by
  obtain ⟨⟨hw, hb, hm⟩, hkp, hpy⟩ := And.intro h.older h.order
  have hself : Pending.single c.result g c.result = some g := if_pos rfl
  have hempty : ∀ n, (Pending.single c.result g).set c.result none n = none := fun n => by
    by_cases e : n = c.result <;> simp [Pending.set, Pending.single, e]
  by_cases hyt : s.tracked c.result = true
  · obtain ⟨p₁, f₁, e₁, h₁⟩ := Store.turns_recorded s.tracked
      (h.result.trans (if_pos hyt)) hy sy hself (fun n b hn => by simp [hempty] at hn)
      [c.product, c.transposed]
    have hp₁ : p₁ c.product = if s.tracked c.product then some ofProduct else none := by
      simp [e₁, hempty, Nat.ne_of_lt (Nat.lt_trans hb hkp), received, collect, Store.gather]
    have ht₁ : p₁ c.transposed = none := by
      simp [e₁, hempty, Nat.ne_of_lt hb, Nat.ne_of_gt hkp, received, collect]
    rw [operations, h₁]
    by_cases hpt : s.tracked c.product = true
    · have hrest : (p₁.set c.product none).Fitted s.shape := fun n b hn => by
        by_cases e : n = c.product
        · simp [e, Pending.set_self] at hn
        · exact f₁ n b (by rwa [Pending.set_of_ne _ _ e] at hn)
      obtain ⟨p₂, -, e₂, h₂⟩ := Store.turns_recorded s.tracked
        (h.product.trans (if_pos hpt)) hp sp (hp₁.trans (if_pos hpt)) hrest [c.transposed]
      have ht₂ : p₂ c.transposed = if s.tracked c.transposed then some ofTransposed else none := by
        simp [e₂, Pending.set_of_ne _ _ (Nat.ne_of_lt hkp), ht₁, Nat.ne_of_lt hm, received,
          collect, Store.gather]
      rw [h₂, if_pos hpt]
      by_cases htt : s.tracked c.transposed = true
      · rw [if_pos htt, Store.turns_last (ht₂.trans (if_pos htt))]
      · rw [if_neg htt, Store.turns, ht₂.trans (if_neg htt)]
        rfl
    · rw [if_neg hpt, Store.turns, hp₁.trans (if_neg hpt), Store.turns, ht₁]
      rfl
  · have hpt : ¬s.tracked c.product = true := fun hpt => hyt (by simp [h.tracked_result, hpt])
    rw [if_neg hpt, operations, Store.turns, hself]
    simp only [Store.visit, h.result.trans (if_neg hyt)]
    cases s.accumulate c.result g with
    | error e => rfl
    | ok s' => simp [Store.turns_of_none _ _ _ hempty]

/-- What the sweep over the three operations sends to the operands of the layer, as far as they are
tracked. What the matrix gets belongs to the input, in the input's own shape. -/
def delivered (c : Chain) (s : Store α) (x : NodeId) (shape : List Nat) (g : Buffer α) :
    List (NodeId × Buffer α) :=
  let sent := s.sent c.operations c.result g
  (sent.filter fun q => s.tracked q.1 && (q.1 ∉ c.operations : Bool)).map fun q =>
    if q.1 = c.matrix then (x, q.2.inShape shape) else q

theorem Recorded.sent (h : c.Recorded s layer added multiplied turned)
    (hy : added.gradients g = .ok [ofProduct, ofBias])
    (hp : multiplied.gradients ofProduct = .ok [ofMatrix, ofTransposed])
    (ht : turned.gradients ofTransposed = .ok [ofWeight])
    (sy : AllShaped [ofProduct, ofBias] ([c.product, layer.bias].map s.shape))
    (sp : AllShaped [ofMatrix, ofTransposed] ([c.matrix, c.transposed].map s.shape)) :
    (s.sent c.operations c.result g).filter
        (fun q => s.tracked q.1 && (q.1 ∉ c.operations : Bool)) =
      [(layer.bias, ofBias), (c.matrix, ofMatrix), (layer.weight, ofWeight)].filter
        (s.tracked ·.1) := by
  obtain ⟨⟨hw, hb, hm⟩, hkp, hpy⟩ := And.intro h.older h.order
  have outside : ∀ n < c.transposed, n ∉ c.operations := fun n hn => by
    simp [operations, Nat.ne_of_lt hn, Nat.ne_of_lt (Nat.lt_trans hn hkp),
      Nat.ne_of_lt (Nat.lt_trans hn (Nat.lt_trans hkp hpy))]
  have e₁ := Store.contributions_eq h.result hy
  have e₂ := Store.contributions_eq h.product hp
  have e₃ := Store.contributions_eq h.transposed ht
  rw [Store.sent, h.turns hy hp sy sp, Store.mail]
  have o₁ := outside _ hw
  have o₂ := outside _ hb
  have o₃ := outside _ hm
  have o₄ : c.product ∈ c.operations := by simp [operations]
  have o₅ : c.transposed ∈ c.operations := by simp [operations]
  cases hW : s.tracked layer.weight <;> cases hM : s.tracked c.matrix <;>
    cases hB : s.tracked layer.bias <;>
    simp [hW, hM, hB, h.tracked_transposed, h.tracked_product, h.tracked_result, e₁, e₂, e₃, o₁,
      o₂, o₃, o₄, o₅]

end

/-- The node `y` of a layer and the three nodes of the layer written out, each in a graph that was
made from the same one: equal values, but for the dimension of rows that a single row comes
without, and equal gradients for the operands. -/
structure Fused (c : Chain) (s : Store α) (layer : Linear) (x : NodeId) (output : List Nat)
    (y : NodeId) (s' s'' : Store α) : Prop where
  value : s'.value y = (s''.value c.result).inShape output
  tracked : s'.tracked y = s''.tracked c.result
  complete : s'.tracked y = true → ∀ g : Buffer α, g.Shaped output →
    (s'.sent [y] y g).map (·.1) = [x, layer.weight, layer.bias]
  sent : (∀ a b : α, a * b = b * a) → ∀ g : Buffer α, g.Shaped output →
    ((s'.sent [y] y g).filter (s.tracked ·.1)).Perm
      (c.delivered s'' x (s.shape x) (g.inShape (s''.shape c.result)))

end Chain

namespace Store

variable [Scalar α] {s : Store α}

/-- What the layer's own node sends. -/
theorem sent_linear {y : NodeId} {layer : Linear} {x : NodeId} {matrix weight g : Buffer α}
    {shape : List Nat} {grads : List (Buffer α)}
    (ho : s.origin y = if s.tracked y then
      some ⟨.linear matrix weight shape, [x, layer.weight, layer.bias]⟩ else none)
    (hg : (Rule.linear matrix weight shape).gradients g = .ok grads) :
    s.sent [y] y g = if s.tracked y then [x, layer.weight, layer.bias].zip grads else [] := by
  rw [sent, turns_last (if_pos rfl), mail, List.flatMap_singleton, contributions_eq ho hg]

omit [Scalar α] in
/-- The tracked operands of a layer are sent their gradients in another order only. -/
theorem perm_operands (s : Store α) (x w b : NodeId) (gx gw gb : Buffer α) :
    ([(x, gx), (w, gw), (b, gb)].filter (s.tracked ·.1)).Perm
      ([(b, gb), (x, gx), (w, gw)].filter (s.tracked ·.1)) := by
  have h : ([(x, gx), (w, gw)] ++ [(b, gb)]).Perm ([(b, gb)] ++ [(x, gx), (w, gw)]) :=
    List.perm_append_comm
  exact h.filter _

/-- To the tracked ones of its operands. -/
theorem sent_linear_tracked {s' : Store α} {y : NodeId} {layer : Linear} {x : NodeId}
    {matrix weight g gx gw gb : Buffer α} {shape : List Nat}
    (hy : s'.tracked y = [x, layer.weight, layer.bias].any s.tracked)
    (ho : s'.origin y = if s'.tracked y then
      some ⟨.linear matrix weight shape, [x, layer.weight, layer.bias]⟩ else none)
    (hg : (Rule.linear matrix weight shape).gradients g = .ok [gx, gw, gb]) :
    (s'.sent [y] y g).filter (s.tracked ·.1) =
      [(x, gx), (layer.weight, gw), (layer.bias, gb)].filter (s.tracked ·.1) := by
  rw [sent_linear ho hg, hy]
  split
  · rfl
  · rename_i hnone
    simp only [List.any_cons, List.any_nil, Bool.or_false, Bool.or_eq_true, not_or,
      Bool.not_eq_true] at hnone
    simp [hnone]

/-- The chain of a layer sends its operands what the rules of the three operations make of the
gradient. -/
theorem delivered_eq {layer : Linear} (hl : layer.Fits s) {x : NodeId} {rows : Nat} {c : Chain}
    {s'' : Store α} {m t p v g ofMatrix ofTransposed ofWeight ofBias : Buffer α}
    (hmade : c.Made s s'' layer m t p v) (htracked : s''.tracked c.matrix = s.tracked x)
    (hmatrix : c.matrix = x ∨ s.nodes.size ≤ c.matrix) (hm : m.shape = [rows, layer.inputs])
    (ht : t.shape = [layer.inputs, layer.outputs]) (hp : p.shape = [rows, layer.outputs])
    (hg : g.Shaped [rows, layer.outputs])
    (hadd : (Rule.add [rows, layer.outputs] [layer.outputs]).gradients g = .ok [g, ofBias])
    (hmatmul : (Rule.matmul m t).gradients g = .ok [ofMatrix, ofTransposed])
    (hturn : Rule.transpose.gradients ofTransposed = .ok [ofWeight])
    (sm : ofMatrix.Shaped [rows, layer.inputs])
    (st : ofTransposed.Shaped [layer.inputs, layer.outputs])
    (sw : ofWeight.Shaped [layer.outputs, layer.inputs]) (sb : ofBias.Shaped [layer.outputs]) :
    c.delivered s'' x (s.shape x) g =
      [(layer.bias, ofBias), (x, ofMatrix.inShape (s.shape x)), (layer.weight, ofWeight)].filter
        (s.tracked ·.1) := by
  have tracked_old : ∀ n < s.nodes.size, s''.tracked n = s.tracked n := fun n hn => by
    rw [tracked, hmade.old n hn, tracked]
  have hbias : s''.shape layer.bias = [layer.outputs] := by
    rw [shape, value, hmade.old _ hl.bias.1]
    exact hl.bias.2
  have hrows : s''.shape c.matrix = [rows, layer.inputs] := by rw [shape, hmade.matrix, hm]
  have sy : AllShaped [g, ofBias] ([c.product, layer.bias].map s''.shape) := by
    simp only [List.map_cons, List.map_nil, hbias]
    exact .cons (by rwa [shape, hmade.product, hp]) (.cons sb .nil)
  have sp : AllShaped [ofMatrix, ofTransposed] ([c.matrix, c.transposed].map s''.shape) := by
    simp only [List.map_cons, List.map_nil, hrows]
    exact .cons sm (.cons (by rwa [shape, hmade.transposed, ht]) .nil)
  have hrec := hmade.recorded
  rw [hp, hl.bias.2] at hrec
  have hb : layer.bias ≠ c.matrix := fun e => by simp [e ▸ hrows] at hbias
  -- the weight may itself be the input, and then it is the matrix as well
  have hw : (if layer.weight = c.matrix then (x, ofWeight.inShape (s.shape x)) else
      (layer.weight, ofWeight)) = (layer.weight, ofWeight) := by
    split
    · rename_i e
      have e' : layer.weight = x := e.trans (hmatrix.resolve_right fun hle =>
        Nat.not_lt.2 hle (e ▸ hl.weight.1))
      rw [← e', Buffer.inShape_self (sw.2.trans hl.weight.2.symm)]
    · rfl
  have hmap : [(layer.bias, ofBias), (x, ofMatrix.inShape (s.shape x)), (layer.weight, ofWeight)] =
      [(layer.bias, ofBias), (c.matrix, ofMatrix), (layer.weight, ofWeight)].map fun q =>
        if q.1 = c.matrix then (x, q.2.inShape (s.shape x)) else q := by
    simp only [List.map_cons, List.map_nil, if_neg hb, if_true, hw]
  rw [Chain.delivered, hrec.sent hadd hmatmul hturn sy sp, hmap, List.filter_map]
  refine congrArg _ (List.filter_congr fun q hq => ?_)
  simp only [List.mem_cons, List.not_mem_nil, or_false] at hq
  rcases hq with rfl | rfl | rfl
  · simp only [Function.comp, if_neg hb, tracked_old _ hl.bias.1]
  · simp only [Function.comp, if_true, htracked]
  · simp only [Function.comp, hw, tracked_old _ hl.weight.1]

/-- A layer that was run, and the same layer written out. -/
theorem fused_of_made (h : s.Healthy) {layer : Linear} (hl : layer.Fits s) {x : NodeId}
    {rows : Nat} {output : List Nat}
    (hrow : RowWise layer.inputs layer.outputs rows (s.shape x) output)
    (hroom : rows * layer.outputs < Extent.allocationLimit) {c : Chain} {s' s'' : Store α}
    {t p v : Buffer α} (ht : (s.value layer.weight).transpose = .ok t)
    (hp : ((s.value x).inShape [rows, layer.inputs]).product t = .ok p)
    (hv : v.Shaped [rows, layer.outputs]) (htracked : s''.tracked c.matrix = s.tracked x)
    (hmatrix : c.matrix = x ∨ s.nodes.size ≤ c.matrix)
    (hmade : c.Made s s'' layer ((s.value x).inShape [rows, layer.inputs]) t p v)
    (hnew : s'.node s.nodes.size =
      { value := v.inShape output, tracked := [x, layer.weight, layer.bias].any s.tracked,
        origin := if [x, layer.weight, layer.bias].any s.tracked then
          some ⟨.linear ((s.value x).inShape [rows, layer.inputs]) (s.value layer.weight)
            (s.shape x), [x, layer.weight, layer.bias]⟩ else none }) :
    c.Fused s layer x output s.nodes.size s' s'' := by
  have hX := h.sound.values x
  have hW := h.sound.values layer.weight
  have hB := h.sound.values layer.bias
  have hw : (s.value layer.weight).shape = [layer.outputs, layer.inputs] := hl.weight.2
  have hb : (s.value layer.bias).shape = [layer.outputs] := hl.bias.2
  have hy : s'.tracked s.nodes.size = [x, layer.weight, layer.bias].any s.tracked := by
    rw [tracked, hnew]
  have ho : s'.origin s.nodes.size = if s'.tracked s.nodes.size then
      some ⟨.linear ((s.value x).inShape [rows, layer.inputs]) (s.value layer.weight)
        (s.shape x), [x, layer.weight, layer.bias]⟩ else none := by rw [origin, hnew, hy]
  have hproper := Extent.proper_two ((hrow.proper_rows hX.proper).words rows (by simp))
    (hW.proper.words layer.outputs (by simp [hw])) hroom
  have hM : ((s.value x).inShape [rows, layer.inputs]).Sound :=
    (Buffer.shaped_inShape hX.full (hrow.prod_shape.trans (by simp))).sound
      (hrow.proper_rows hX.proper)
  constructor
  case value => rw [value, hnew, hmade.result]
  case tracked =>
    have tracked_old : ∀ n < s.nodes.size, s''.tracked n = s.tracked n := fun n hn => by
      rw [tracked, hmade.old n hn, tracked]
    rw [hy, hmade.recorded.tracked_result, hmade.recorded.tracked_product,
      hmade.recorded.tracked_transposed, htracked, tracked_old _ hl.weight.1,
      tracked_old _ hl.bias.1]
    simp [Bool.or_assoc]
  case complete =>
    intro hyt g hg
    obtain ⟨a, b, hab, -, -⟩ := Rule.linearGradients_eq rfl hw hM hW hX.proper hg.1
      (hg.2 ▸ hrow.prod_output) hrow.prod_shape hproper
    rw [sent_linear ho hab, if_pos hyt]
    rfl
  case sent =>
    intro hmul g hg
    obtain ⟨t', ofMatrix, ofTransposed, ofWeight, ofBias, ht', hadd, hmatmul, hturn, hlinear, sm,
      st, sw, sb⟩ := Rule.linear_eq_chain hmul rfl hw hM hW hrow hX.proper
        (hrow.proper_results.2 hproper) (hb ▸ hB.proper) hg
    obtain rfl : t = t' := Except.ok.inj (ht.symm.trans ht')
    obtain ⟨_, ht', hT⟩ := Buffer.transpose_eq hw
    obtain rfl := Except.ok.inj (ht.symm.trans ht')
    obtain ⟨_, hp', hP⟩ :=
      Buffer.product_eq (a := (s.value x).inShape [rows, layer.inputs]) rfl hT.shape_eq hroom
    obtain rfl := Except.ok.inj (hp.symm.trans hp')
    have hresult : s''.shape c.result = [rows, layer.outputs] := by
      rw [shape, hmade.result, hv.2]
    have hg' : (g.inShape [rows, layer.outputs]).Shaped [rows, layer.outputs] :=
      Buffer.shaped_inShape hg.1 (by simp [hg.2, hrow.prod_output])
    rw [hresult, sent_linear_tracked hy ho hlinear, delivered_eq hl hmade htracked hmatrix rfl
      hT.shape_eq hP.shape_eq hg' hadd hmatmul hturn sm st sw sb]
    exact perm_operands ..

/-- On rows of its size a layer does what it is written out as. -/
theorem applyLinear_rowWise (h : s.Healthy) {layer : Linear} (hl : layer.Fits s) {x : NodeId}
    (hx : x < s.nodes.size) {rows : Nat} {output : List Nat}
    (hrow : RowWise layer.inputs layer.outputs rows (s.shape x) output) :
    if rows * layer.outputs < Extent.allocationLimit then
      ∃ y s' c s'', s.applyLinear layer x = .ok (y, s') ∧
        s.composeLinear layer x = .ok (c, s'') ∧ c.Fused s layer x output y s' s''
    else ∃ cause, s.applyLinear layer x = crash cause ∧
      s.composeLinear layer x = crash cause := by
  have hX := h.sound.values x
  have hW := h.sound.values layer.weight
  have hB := h.sound.values layer.bias
  have hp := hrow.proper_rows hX.proper
  have hm : ((s.value x).inShape [rows, layer.inputs]).Shaped [rows, layer.inputs] :=
    Buffer.shaped_inShape hX.full (hrow.prod_shape.trans (by simp))
  obtain ⟨t, ht, -⟩ := Buffer.transpose_eq hl.weight.2
  obtain ⟨failed, made⟩ := composeLinear_eq hl hx hrow ht
  have hvalue := Linear.value_eq_composed hX hW hB hl.weight.2 hl.bias.2 hrow
  have hcases := Linear.composed_cases hm (hp.words rows (by simp)) hl.weight.2 hW hB hl.bias.2
  by_cases hroom : rows * layer.outputs < Extent.allocationLimit
  · simp only [hroom, if_true] at hcases ⊢
    obtain ⟨v, hv, hV⟩ := hcases
    obtain ⟨c, s'', p, hc, hp, htracked, hmatrix, hmade⟩ := made v hv
    obtain ⟨s', e', -, -, new'⟩ := record_eq s (v.inShape output)
      (.linear ((s.value x).inShape [rows, layer.inputs]) (s.value layer.weight) (s.shape x))
      [x, layer.weight, layer.bias]
    refine ⟨s.nodes.size, s', c, s'', ?_, hc, ?_⟩
    · simp only [applyLinear, hvalue, hv, Except.map, Outcome.ok_bind, Outcome.pure_eq, e']
    · exact fused_of_made h hl hrow hroom ht hp hV htracked hmatrix hmade new'
  · simp only [hroom, if_false] at hcases ⊢
    obtain ⟨cause, hv⟩ := hcases
    refine ⟨cause, ?_, failed _ hv⟩
    simp only [applyLinear, hvalue, hv]
    rfl

/-- A layer refuses exactly what are no rows of its size. Whatever it takes, it makes of it what
the product with the transposed weight, and the bias added to it, make of it, and it sends its
operands the gradients that the three operations send them. A result that is too large to exist
makes both break off. -/
theorem applyLinear_eq_composeLinear (h : s.Healthy) {layer : Linear} (hl : layer.Fits s)
    {x : NodeId} (hx : x < s.nodes.size) :
    ((∃ cause, s.applyLinear layer x = refuse cause) ↔
      s.shape x ≠ [layer.inputs] ∧ ∀ batch, s.shape x ≠ [batch, layer.inputs]) ∧
    ∀ rows output, RowWise layer.inputs layer.outputs rows (s.shape x) output →
      if rows * layer.outputs < Extent.allocationLimit then
        ∃ y s' c s'', s.applyLinear layer x = .ok (y, s') ∧
          s.composeLinear layer x = .ok (c, s'') ∧ c.Fused s layer x output y s' s''
      else ∃ cause, s.applyLinear layer x = crash cause ∧
        s.composeLinear layer x = crash cause := by
  have taken : ∀ rows output, RowWise layer.inputs layer.outputs rows (s.shape x) output →
      ¬∃ cause, s.applyLinear layer x = refuse cause := by
    rintro rows output hrow ⟨cause, hc⟩
    have hcases := applyLinear_rowWise h hl hx hrow
    split at hcases
    · obtain ⟨y, s', c, s'', ha, -⟩ := hcases
      cases hc.symm.trans ha
    · obtain ⟨cause', ha, -⟩ := hcases
      cases hc.symm.trans ha
  refine ⟨⟨fun hc => ⟨fun e => ?_, fun batch e => ?_⟩, fun ⟨h₁, h₂⟩ => ?_⟩,
    fun rows output hrow => applyLinear_rowWise h hl hx hrow⟩
  · exact taken 1 [layer.outputs] (.inl ⟨e, rfl, rfl⟩) hc
  · exact taken batch [batch, layer.outputs] (.inr ⟨e, rfl⟩) hc
  · obtain ⟨cause, hc⟩ := Linear.rows_refused h₁ h₂
    have hvalue : Linear.rows layer.inputs (s.value x).shape = refuse cause := hc
    exact ⟨cause, by simp only [applyLinear, Linear.value, hvalue, Outcome.refuse_bind]⟩

/-- One row of two numbers through a layer with one output, with its gradients. -/
theorem applyLinear_eq_composeLinear_row :
    let _ := Elementary.plain ℚ
    let layer : Linear := ⟨0, 1, 2, 1⟩
    let s : Store ℚ := (({} : Store ℚ).parameter ⟨[1, 2], #[3, 4]⟩).2
    let s : Store ℚ := ((s.parameter ⟨[1], #[5]⟩).2.parameter ⟨[2], #[1, 2]⟩).2
    s.Healthy ∧ layer.Fits s ∧ ∃ y s' c s'', s.applyLinear layer 2 = .ok (y, s') ∧
      s.composeLinear layer 2 = .ok (c, s'') ∧
      s'.value y = (s''.value c.result).inShape [1] ∧
      ∀ g : Buffer ℚ, g.Shaped [1] → ((s'.sent [y] y g).filter (s.tracked ·.1)).Perm
        (c.delivered s'' 2 [2] (g.inShape (s''.shape c.result))) := by
  intro _ layer s₀ s
  have hW : Buffer.Sound (⟨[1, 2], #[3, 4]⟩ : Buffer ℚ) :=
    ⟨Extent.proper_two (by decide) (by decide) (by decide), rfl⟩
  have hb : Buffer.Sound (⟨[1], #[5]⟩ : Buffer ℚ) := ⟨Extent.proper_one (by decide), rfl⟩
  have hx : Buffer.Sound (⟨[2], #[1, 2]⟩ : Buffer ℚ) := ⟨Extent.proper_one (by decide), rfl⟩
  have hs₀ : s₀.Healthy := (healthy_empty.parameter hW).healthy
  have hs : s.Healthy := ((hs₀.parameter hb).healthy.parameter hx).healthy
  have hl : layer.Fits s := ⟨⟨by decide, rfl⟩, ⟨by decide, rfl⟩⟩
  refine ⟨hs, hl, ?_⟩
  obtain ⟨-, h⟩ := @applyLinear_eq_composeLinear ℚ _ s hs layer hl 2 (by decide)
  have hrow := h 1 [1] (.inl ⟨rfl, rfl, rfl⟩)
  rw [if_pos (by decide)] at hrow
  obtain ⟨y, s', c, s'', ha, hc, hf⟩ := hrow
  exact ⟨y, s', c, s'', ha, hc, hf.value, hf.sent mul_comm⟩

end Store

end DiffTensor
