import Mathlib.Algebra.BigOperators.Group.Finset.Sigma
import DiffTensor.Proofs.Dual
import DiffTensor.Proofs.Linear

/-!
# Rules are adjoint to derivatives

An operation run on dual numbers gives the tangent of its result from the tangents of its
operands. Its rule goes the other way: for every gradient `g` of the result, the product of `g`
with that tangent is the sum of the products of the operands' gradients with their tangents.

This is proved for each operation, over all shapes for which it gave a result. Under
broadcasting it comes down to `dot_reduce`, for matrices to `sum_product_rule`.
-/

namespace DiffTensor

open Finset

variable {K : Type} [Field K] [LinearOrder K] [Elementary K]

/-! ## Products of buffers -/

/-- The sum of the products of elements at equal positions. -/
def Buffer.dot (a b : Buffer K) : K := ∑ k ∈ range a.shape.prod, a.entry k * b.entry k

namespace Buffer

theorem dot_plus {a b : Buffer K} {shape : List Nat} (ha : a.Shaped shape) (hb : b.Shaped shape)
    (v : Buffer K) : (a.plus b).dot v = a.dot v + b.dot v := by
  unfold dot
  rw [(ha.plus hb).2, ha.2, hb.2, ← sum_add_distrib]
  refine sum_congr rfl fun k _ => ?_
  rw [entry_plus ha hb, add_mul]

theorem dot_tabulates {a b : Buffer K} {shape : List Nat} {f h : Nat → K}
    (ha : a.Tabulates shape f) (hb : b.Tabulates shape h) :
    a.dot b = ∑ k ∈ range shape.prod, f k * h k := by
  unfold dot
  rw [ha.shape_eq]
  refine sum_congr rfl fun k hk => ?_
  rw [ha.entry_eq k (mem_range.1 hk), hb.entry_eq k (mem_range.1 hk)]

/-- What is summed up for an element of a smaller shape meets that element's tangent. -/
theorem Tabulates.dot_readers {b c : Buffer K} {shape : List Nat}
    (hT : c.Tabulates shape fun j =>
      ∑ k ∈ range b.shape.prod with Layout.readAt shape b.shape k = j, b.entry k)
    (ho : Layout.Onto shape b.shape) (v : Buffer K) :
    c.dot v = ∑ k ∈ range b.shape.prod, b.entry k * v.entry (Layout.readAt shape b.shape k) := by
  unfold dot
  rw [hT.shape_eq, ← sum_fiberwise_of_maps_to
    (t := range shape.prod) (g := Layout.readAt shape b.shape)
    fun k hk => mem_range.2 (Layout.readAt_lt ho (mem_range.1 hk))]
  refine sum_congr rfl fun j hj => ?_
  rw [hT.entry_eq j (mem_range.1 hj), sum_mul]
  refine sum_congr rfl fun k hk => ?_
  rw [(mem_filter.1 hk).2]

theorem dot_reduce {b c : Buffer K} {shape : List Nat} (hb : b.Sound) (hs : Extent.Proper shape)
    (ho : Layout.Onto shape b.shape) (h : b.reduce shape = .ok c) (v : Buffer K) :
    c.dot v = ∑ k ∈ range b.shape.prod, b.entry k * v.entry (Layout.readAt shape b.shape k) :=
  (reduce_sum hb hs ho h).dot_readers ho v

/-- A gradient combined with a kept operand, which was broadcast onto the gradient's shape. -/
theorem combine_onto {g b p : Buffer K} {name : String} {f : K → K → K} (hg : g.Sound)
    (hb : b.Sound) (ho : Layout.Onto b.shape g.shape) (h : g.combine name b f = .ok p) :
    p.Tabulates g.shape fun k =>
      f (g.entry k) (b.entry (Layout.readAt b.shape g.shape k)) := by
  obtain ⟨hj, hp, hc⟩ := combine_inv hg hb h
  obtain ⟨c, hc, hT⟩ := combine_eq hg.full hb.full hj (hc.addressable hp) name f
  obtain rfl : c = p := Except.ok.inj (hc.symm.trans h)
  have hs : g.shape = c.shape := Option.some.inj ((Layout.join_absorb ho).symm.trans hj)
  rw [← hs] at hT
  exact hT.congr fun k hk => by rw [Layout.readAt_self hk]

/-- A combination of dual buffers: the function is applied to values and tangents together. -/
theorem combine_dual {x y out : Buffer K} {name : String} {f : K → K → K} (hx : x.Sound)
    (hy : y.Sound) (h : x.combine name y f = .ok out) (dx dy : Buffer K)
    (f' : Dual K → Dual K → Dual K) :
    ∃ d, (x.dual dx).combine name (y.dual dy) f' = .ok d ∧ d.Tabulates out.shape fun k =>
      f' ⟨x.entry (Layout.readAt x.shape out.shape k), dx.entry (Layout.readAt x.shape out.shape k)⟩
        ⟨y.entry (Layout.readAt y.shape out.shape k),
          dy.entry (Layout.readAt y.shape out.shape k)⟩ := by
  obtain ⟨hj, hp, hc⟩ := combine_inv hx hy h
  obtain ⟨ox, oy⟩ := Layout.onto_of_join hj
  obtain ⟨d, hd, hT⟩ := combine_eq (hx.dual dx).full (hy.dual dy).full hj (hc.addressable hp) name f'
  refine ⟨d, hd, hT.congr fun k hk => ?_⟩
  rw [show (x.dual dx).shape = x.shape from rfl, show (y.dual dy).shape = y.shape from rfl,
    (tabulates_dual x dx).entry_eq _ (Layout.readAt_lt ox hk),
    (tabulates_dual y dy).entry_eq _ (Layout.readAt_lt oy hk)]

end Buffer

/-- The gradients of operands against their tangents. -/
def weigh (grads tangents : List (Buffer K)) : K :=
  ((grads.zip tangents).map fun q => q.1.dot q.2).sum

@[simp] theorem weigh_one (a dx : Buffer K) : weigh [a] [dx] = a.dot dx := by simp [weigh]

@[simp] theorem weigh_two (a b dx dy : Buffer K) :
    weigh [a, b] [dx, dy] = a.dot dx + b.dot dy := by simp [weigh]

@[simp] theorem weigh_three (a b c dx dy dz : Buffer K) :
    weigh [a, b, c] [dx, dy, dz] = a.dot dx + b.dot dy + c.dot dz := by simp [weigh, add_assoc]

/-- The rule is adjoint to the derivative: `d` is the result on dual numbers when the operands have
the given tangents, and whatever gradient the rule carries back weighs as much against these as
it does against the tangents of `d`. -/
def Adjoint (d : Buffer (Dual K)) (rule : Rule K) (output : List Nat)
    (tangents : List (Buffer K)) : Prop :=
  d.Shaped output ∧ ∀ g grads, g.Shaped output → rule.gradients g = .ok grads →
    g.dot d.tangents = weigh grads tangents

/-! ## Broadcasting operations -/

/-- The weight of the gradients of both operands, where the gradient `a` of the result is
summed up for the left one and `b` for the right one. -/
theorem weigh_reduce_pair {a b : Buffer K} {left right output : List Nat} {grads : List (Buffer K)}
    (ha : a.Shaped output) (hb : b.Shaped output) (ho : Extent.Proper output)
    (hl : Extent.Proper left) (hr : Extent.Proper right)
    (hj : Shape.join left right = some output)
    (h : (do return [← a.reduce left, ← b.reduce right] : Outcome (List (Buffer K))) =
      .ok grads) (dx dy : Buffer K) :
    weigh grads [dx, dy] =
      ∑ k ∈ range output.prod, (a.entry k * dx.entry (Layout.readAt left output k) +
        b.entry k * dy.entry (Layout.readAt right output k)) := by
  obtain ⟨onLeft, onRight⟩ := Layout.onto_of_join hj
  simp only [Outcome.bind_eq_ok_iff, Outcome.pure_eq, Except.ok.injEq] at h
  obtain ⟨c, hc, d, hd, rfl⟩ := h
  rw [weigh_two, Buffer.dot_reduce (ha.sound ho) hl (ha.2 ▸ onLeft) hc,
    Buffer.dot_reduce (hb.sound ho) hr (hb.2 ▸ onRight) hd, ha.2, hb.2, sum_add_distrib]

/-- The rule of a sum carries gradients back along the derivative of the sum. -/
theorem adjoint_add {x y out : Buffer K} (hx : x.Sound) (hy : y.Sound)
    (hout : x.combine "add" y (· + ·) = .ok out) (dx dy : Buffer K) :
    ∃ d, (x.dual dx).combine "add" (y.dual dy) (· + ·) = .ok d ∧
      Adjoint d (.add x.shape y.shape) out.shape [dx, dy] := by
  obtain ⟨hj, hp, -⟩ := Buffer.combine_inv hx hy hout
  obtain ⟨d, hd, hT⟩ := Buffer.combine_dual hx hy hout dx dy (· + ·)
  refine ⟨d, hd, hT.shaped, fun g grads hg hgr => ?_⟩
  rw [weigh_reduce_pair hg hg hp hx.proper hy.proper hj hgr,
    Buffer.dot_tabulates (hg.2 ▸ Buffer.tabulates_self hg.1) hT.tangents]
  refine sum_congr rfl fun k _ => ?_
  rw [Dual.add_eq]
  ring

theorem adjoint_sub {x y out : Buffer K} (hx : x.Sound) (hy : y.Sound)
    (hout : x.combine "sub" y (· - ·) = .ok out) (dx dy : Buffer K) :
    ∃ d, (x.dual dx).combine "sub" (y.dual dy) (· - ·) = .ok d ∧
      Adjoint d (.sub x.shape y.shape) out.shape [dx, dy] := by
  obtain ⟨hj, hp, -⟩ := Buffer.combine_inv hx hy hout
  obtain ⟨d, hd, hT⟩ := Buffer.combine_dual hx hy hout dx dy (· - ·)
  refine ⟨d, hd, hT.shaped, fun g grads hg hgr => ?_⟩
  have hn := Buffer.tabulates_map hg.1 (-·)
  rw [weigh_reduce_pair hg ⟨hn.full, hn.shape_eq.trans hg.2⟩ hp hx.proper hy.proper hj hgr,
    Buffer.dot_tabulates (hg.2 ▸ Buffer.tabulates_self hg.1) hT.tangents]
  refine sum_congr rfl fun k hk => ?_
  rw [Dual.sub_eq, hn.entry_eq k (hg.2 ▸ mem_range.1 hk)]
  ring

theorem adjoint_mul {x y out : Buffer K} (hx : x.Sound) (hy : y.Sound)
    (hout : x.combine "mul" y (· * ·) = .ok out) (dx dy : Buffer K) :
    ∃ d, (x.dual dx).combine "mul" (y.dual dy) (· * ·) = .ok d ∧
      Adjoint d (.mul x y) out.shape [dx, dy] := by
  obtain ⟨hj, hp, -⟩ := Buffer.combine_inv hx hy hout
  obtain ⟨onLeft, onRight⟩ := Layout.onto_of_join hj
  obtain ⟨d, hd, hT⟩ := Buffer.combine_dual hx hy hout dx dy (· * ·)
  refine ⟨d, hd, hT.shaped, fun g grads hg hgr => ?_⟩
  obtain ⟨p, hpc, hgr⟩ := Outcome.bind_eq_ok_iff.1 hgr
  obtain ⟨q, hqc, hgr⟩ := Outcome.bind_eq_ok_iff.1 hgr
  have hG := hg.sound hp
  have hpT := Buffer.combine_onto hG hy (hg.2 ▸ onRight) hpc
  have hqT := Buffer.combine_onto hG hx (hg.2 ▸ onLeft) hqc
  rw [hg.2] at hpT hqT
  rw [weigh_reduce_pair hpT.shaped hqT.shaped hp hx.proper hy.proper hj hgr,
    Buffer.dot_tabulates (hg.2 ▸ Buffer.tabulates_self hg.1) hT.tangents]
  refine sum_congr rfl fun k hk => ?_
  rw [Dual.mul_eq, hpT.entry_eq k (mem_range.1 hk), hqT.entry_eq k (mem_range.1 hk)]
  ring

/-! ## Matrix products -/

/-- The product rule for matrices, summed against a gradient. -/
theorem sum_product_rule (rows inner cols : Nat) (g x dx : Nat → Nat → K)
    (y dy : Nat → Nat → K) :
    ∑ i ∈ range rows, ∑ j ∈ range cols,
        g i j * ∑ l ∈ range inner, (dx i l * y l j + x i l * dy l j) =
      (∑ i ∈ range rows, ∑ l ∈ range inner, (∑ j ∈ range cols, g i j * y l j) * dx i l) +
        ∑ l ∈ range inner, ∑ j ∈ range cols, (∑ i ∈ range rows, x i l * g i j) * dy l j := by
  have left : ∀ i ∈ range rows, ∑ j ∈ range cols, ∑ l ∈ range inner, g i j * (dx i l * y l j) =
      ∑ l ∈ range inner, (∑ j ∈ range cols, g i j * y l j) * dx i l := fun i _ => by
    rw [sum_comm]
    refine sum_congr rfl fun l _ => ?_
    rw [sum_mul]
    exact sum_congr rfl fun j _ => by ring
  have right : ∑ i ∈ range rows, ∑ j ∈ range cols, ∑ l ∈ range inner, g i j * (x i l * dy l j) =
      ∑ l ∈ range inner, ∑ j ∈ range cols, (∑ i ∈ range rows, x i l * g i j) * dy l j := by
    calc ∑ i ∈ range rows, ∑ j ∈ range cols, ∑ l ∈ range inner, g i j * (x i l * dy l j)
      _ = ∑ i ∈ range rows, ∑ l ∈ range inner, ∑ j ∈ range cols, g i j * (x i l * dy l j) :=
        sum_congr rfl fun i _ => sum_comm
      _ = ∑ l ∈ range inner, ∑ j ∈ range cols, ∑ i ∈ range rows, g i j * (x i l * dy l j) := by
        rw [sum_comm]
        exact sum_congr rfl fun l _ => sum_comm
      _ = _ := sum_congr rfl fun l _ => sum_congr rfl fun j _ => by
        rw [sum_mul]
        exact sum_congr rfl fun i _ => by ring
  rw [← right, ← sum_congr rfl left, ← sum_add_distrib]
  refine sum_congr rfl fun i _ => ?_
  rw [← sum_add_distrib]
  refine sum_congr rfl fun j _ => ?_
  rw [mul_sum, ← sum_add_distrib]
  exact sum_congr rfl fun l _ => by ring

/-- The product of two matrices, row by row. -/
theorem dot_matrix {a b : Buffer K} (rows cols : Nat) (ha : a.shape.prod = rows * cols) :
    a.dot b = ∑ i ∈ range rows, ∑ j ∈ range cols,
      a.entry (i * cols + j) * b.entry (i * cols + j) := by
  unfold Buffer.dot
  rw [ha, ← sum_matrix rows cols fun i j => a.entry (i * cols + j) * b.entry (i * cols + j)]
  simp only [Nat.div_add_mod']

/-- Entries of a product of dual matrices. -/
theorem entry_product_dual {d : Buffer (Dual K)} {x y dx dy : Buffer K} {rows inner cols : Nat}
    (hx : x.shape.prod = rows * inner) (hy : y.shape.prod = inner * cols)
    (hT : d.Tabulates [rows, cols] fun k =>
      (x.dual dx).productEntry (y.dual dy) inner cols (k / cols) (k % cols))
    {i j : Nat} (hi : i < rows) (hj : j < cols) :
    (d.entry (i * cols + j)).tangent = ∑ l ∈ range inner,
      (dx.entry (i * inner + l) * y.entry (l * cols + j) +
        x.entry (i * inner + l) * dy.entry (l * cols + j)) := by
  rw [hT.entry_eq _ (by simpa using Buffer.position_lt hi hj), Buffer.position_div hj,
    Buffer.position_mod hj, Buffer.productEntry_dual
      (u := fun l => ⟨x.entry (i * inner + l), dx.entry (i * inner + l)⟩)
      (v := fun l => ⟨y.entry (l * cols + j), dy.entry (l * cols + j)⟩)
      (fun l hl => (Buffer.tabulates_dual x dx).entry_eq _ (hx ▸ Buffer.position_lt hi hl))
      (fun l hl => (Buffer.tabulates_dual y dy).entry_eq _ (hy ▸ Buffer.position_lt hl hj))]

theorem adjoint_matmul {x y out : Buffer K} (hx : x.Sound) (hy : y.Sound)
    (hout : x.product y = .ok out) (dx dy : Buffer K) :
    ∃ d, (x.dual dx).product (y.dual dy) = .ok d ∧
      Adjoint d (.matmul x y) out.shape [dx, dy] := by
  obtain ⟨rows, inner, cols, hxs, hys, hroom⟩ := Buffer.product_inv hout
  obtain ⟨c, hc, hcT⟩ := Buffer.product_eq hxs hys hroom
  obtain rfl : c = out := Except.ok.inj (hc.symm.trans hout)
  rw [hcT.shape_eq]
  have hri : rows * inner < Extent.allocationLimit := by simpa [hxs] using hx.proper.room
  have hic : inner * cols < Extent.allocationLimit := by simpa [hys] using hy.proper.room
  obtain ⟨d, hd, hdT⟩ := Buffer.product_eq (a := x.dual dx) (b := y.dual dy) hxs hys hroom
  refine ⟨d, hd, hdT.shaped, fun g grads hg hgr => ?_⟩
  obtain ⟨yt, hyt, hytT⟩ := Buffer.transpose_eq hys
  obtain ⟨xt, hxt, hxtT⟩ := Buffer.transpose_eq hxs
  obtain ⟨a, ha, haT⟩ := Buffer.product_eq hg.2 hytT.shape_eq hri
  obtain ⟨b, hb, hbT⟩ := Buffer.product_eq hxtT.shape_eq hg.2 hic
  obtain rfl : grads = [a, b] := by
    simpa [Rule.gradients, hyt, hxt, ha, hb] using hgr.symm
  have hea : ∀ i < rows, ∀ l < inner, a.entry (i * inner + l) =
      ∑ j ∈ range cols, g.entry (i * cols + j) * y.entry (l * cols + j) := fun i hi l hl => by
    rw [haT.entry_eq _ (by simpa using Buffer.position_lt hi hl), Buffer.position_div hl,
      Buffer.position_mod hl, Buffer.productEntry_eq]
    exact sum_congr rfl fun j hj => by rw [hytT.entry_transpose hl (mem_range.1 hj)]
  have heb : ∀ l < inner, ∀ j < cols, b.entry (l * cols + j) =
      ∑ i ∈ range rows, x.entry (i * inner + l) * g.entry (i * cols + j) := fun l hl j hj => by
    rw [hbT.entry_eq _ (by simpa using Buffer.position_lt hl hj), Buffer.position_div hj,
      Buffer.position_mod hj, Buffer.productEntry_eq]
    exact sum_congr rfl fun i hi => by rw [hxtT.entry_transpose (mem_range.1 hi) hl]
  rw [weigh_two, dot_matrix rows cols (by simp [hg.2]),
    dot_matrix rows inner (by simp [haT.shape_eq]),
    dot_matrix inner cols (by simp [hbT.shape_eq])]
  have hdt : ∀ i < rows, ∀ j < cols, d.tangents.entry (i * cols + j) = _ := fun i hi j hj =>
    (Buffer.entry_tangents d _).trans
      (entry_product_dual (by simp [hxs]) (by simp [hys]) hdT hi hj)
  rw [sum_congr rfl fun i hi => sum_congr rfl fun j hj => by
      rw [hdt i (mem_range.1 hi) j (mem_range.1 hj)],
    sum_product_rule rows inner cols (fun i j => g.entry (i * cols + j))
      (fun i l => x.entry (i * inner + l)) (fun i l => dx.entry (i * inner + l))
      (fun l j => y.entry (l * cols + j)) fun l j => dy.entry (l * cols + j)]
  refine congrArg₂ _ (sum_congr rfl fun i hi => sum_congr rfl fun l hl => ?_)
    (sum_congr rfl fun l hl => sum_congr rfl fun j hj => ?_)
  · rw [hea i (mem_range.1 hi) l (mem_range.1 hl)]
  · rw [heb l (mem_range.1 hl) j (mem_range.1 hj)]

/-! ## Operations on one tensor -/

theorem adjoint_transpose {x out : Buffer K} (hout : x.transpose = .ok out) (dx : Buffer K) :
    ∃ d, (x.dual dx).transpose = .ok d ∧ Adjoint d .transpose out.shape [dx] := by
  rcases Buffer.transpose_inv hout with ⟨hl, rfl⟩ | ⟨rows, cols, hxs⟩
  · have hT := (Buffer.tabulates_dual out dx).tangents
    refine ⟨_, Buffer.transpose_of_short hl, (Buffer.tabulates_dual out dx).shaped,
      fun g grads hg hgr => ?_⟩
    have ht : g.transpose = .ok g := Buffer.transpose_of_short (hg.2 ▸ hl)
    obtain rfl : grads = [g] := by simpa [Rule.gradients, ht] using hgr.symm
    rw [weigh_one]
    unfold Buffer.dot
    rw [hg.2]
    exact sum_congr rfl fun k hk => by rw [hT.entry_eq k (mem_range.1 hk)]
  · obtain ⟨c, hc, hcT⟩ := Buffer.transpose_eq hxs
    obtain rfl : c = out := Except.ok.inj (hc.symm.trans hout)
    rw [hcT.shape_eq]
    obtain ⟨d, hd, hdT⟩ := Buffer.transpose_eq (b := x.dual dx) hxs
    refine ⟨d, hd, hdT.shaped, fun g grads hg hgr => ?_⟩
    obtain ⟨a, ha, haT⟩ := Buffer.transpose_eq hg.2
    obtain rfl : grads = [a] := by simpa [Rule.gradients, ha] using hgr.symm
    rw [weigh_one, dot_matrix cols rows (by simp [hg.2]),
      dot_matrix rows cols (by simp [haT.shape_eq]), sum_comm]
    refine sum_congr rfl fun i hi => sum_congr rfl fun j hj => ?_
    have hi := mem_range.1 hi
    have hj := mem_range.1 hj
    have hlt : i * cols + j < x.shape.prod := by simpa [hxs] using Buffer.position_lt hi hj
    rw [Buffer.entry_tangents, hdT.entry_transpose hi hj, haT.entry_transpose hj hi,
      (Buffer.tabulates_dual x dx).entry_eq _ hlt]

/-- An operation on single elements: its rule is adjoint to it if it gives, for each gradient, a
buffer whose elements meet the operand's tangents as the gradient meets the result's. -/
theorem adjoint_map {x : Buffer K} (hx : x.Sound) (dx : Buffer K) (f : Dual K → Dual K)
    {rule : Rule K} {h : Buffer K → Nat → K}
    (hrule : ∀ g, g.Shaped x.shape →
      ∃ a, rule.gradients g = .ok [a] ∧ a.Tabulates x.shape (h g))
    (he : ∀ g : Buffer K, ∀ k < x.shape.prod,
      g.entry k * (f ⟨x.entry k, dx.entry k⟩).tangent = h g k * dx.entry k) :
    Adjoint ((x.dual dx).map f) rule x.shape [dx] := by
  have hT := Buffer.tabulates_map (hx.dual dx).full f
  refine ⟨hT.shaped, fun g grads hg hgr => ?_⟩
  obtain ⟨a, ha, haT⟩ := hrule g hg
  obtain rfl : [a] = grads := Except.ok.inj (ha.symm.trans hgr)
  rw [weigh_one]
  unfold Buffer.dot
  rw [hg.2, haT.shape_eq]
  refine sum_congr rfl fun k hk => ?_
  have hk := mem_range.1 hk
  rw [Buffer.entry_tangents, hT.entry_eq k hk, (Buffer.tabulates_dual x dx).entry_eq k hk,
    haT.entry_eq k hk, he g k hk]

theorem adjoint_relu {x : Buffer K} (hx : x.Sound) (dx : Buffer K) :
    Adjoint ((x.dual dx).map Scalar.positivePart) (.relu x) x.shape [dx] := by
  refine adjoint_map hx dx Scalar.positivePart
    (h := fun g k => if Scalar.positive (x.entry k) then g.entry k else 0) (fun g hg => ?_)
    fun g k _ => ?_
  · obtain ⟨a, ha, haT⟩ := Buffer.zipMap_eq hg.1 hx.full hg.2
      fun g x : K => if Scalar.positive x then g else 0
    exact ⟨a, by simp [Rule.gradients, ha], hg.2 ▸ haT⟩
  · rw [Dual.positivePart_eq]
    by_cases hp : Scalar.positive (x.entry k) = true <;> simp [hp]

theorem adjoint_sigmoid {x : Buffer K} (hx : x.Sound) (dx : Buffer K) :
    Adjoint ((x.dual dx).map Scalar.logistic) (.sigmoid (x.map Scalar.logistic)) x.shape [dx] := by
  have hy := Buffer.tabulates_map hx.full (Scalar.logistic (α := K))
  refine adjoint_map hx dx Scalar.logistic
    (h := fun g k => g.entry k * (x.map Scalar.logistic).entry k *
      (1 - (x.map Scalar.logistic).entry k)) (fun g hg => ?_) fun g k hk => ?_
  · obtain ⟨a, ha, haT⟩ := Buffer.zipMap_eq hg.1 hy.full (hg.2.trans hy.shape_eq.symm)
      fun g y : K => g * y * (1 - y)
    exact ⟨a, by simp [Rule.gradients, ha], hg.2 ▸ haT⟩
  · rw [Dual.logistic_eq, hy.entry_eq k hk]
    ring

/-- Every element of a sum contributes its tangent, times a scale. -/
theorem adjoint_scaled {x : Buffer K} {scale : K} (hx : x.Sound) (dx : Buffer K) {d : Dual K}
    (hd : d.tangent = scale * ∑ k ∈ range x.shape.prod, dx.entry k) :
    Adjoint (.scalar d) (.sum x.shape scale) [] [dx] := by
  refine ⟨⟨rfl, rfl⟩, fun g grads hg hgr => ?_⟩
  obtain ⟨a, ha, haT⟩ := Buffer.full_eq hx.proper (g.sum * scale)
  obtain rfl : grads = [a] := by simpa [Rule.gradients, ha] using hgr.symm
  have h0 : (Buffer.scalar d).tangents.entry 0 = d.tangent := Buffer.entry_tangents _ _
  rw [Buffer.sum_eq hg.1, hg.2] at haT
  rw [weigh_one]
  unfold Buffer.dot
  rw [hg.2, haT.shape_eq]
  simp only [List.prod_nil, range_one, sum_singleton, h0, hd] at haT ⊢
  rw [mul_sum, mul_sum]
  refine sum_congr rfl fun k hk => ?_
  rw [haT.entry_eq k (mem_range.1 hk)]
  ring

theorem tangent_sum_dual (x dx : Buffer K) :
    (x.dual dx).sum.tangent = ∑ k ∈ range x.shape.prod, dx.entry k := by
  rw [Buffer.sum_dual (Buffer.tabulates_dual x dx)]

theorem tangent_mean_dual {x : Buffer K} (hx : x.Sound) (dx : Buffer K) :
    ((x.dual dx).sum / Scalar.ofNat (x.dual dx).size).tangent =
      1 / Scalar.ofNat x.size * ∑ k ∈ range x.shape.prod, dx.entry k := by
  have hsize : (x.dual dx).size = x.size :=
    (hx.dual dx).full.trans hx.full.symm
  have h : ((x.dual dx).sum / Scalar.ofNat (x.dual dx).size).tangent =
      ((x.dual dx).sum.tangent - (x.dual dx).sum.value / ((x.dual dx).size : K) * 0) /
        ((x.dual dx).size : K) := rfl
  rw [h, hsize, tangent_sum_dual, mul_zero, sub_zero]
  show _ = 1 / (x.size : K) * _
  ring

/-! ## Linear layers -/

theorem adjoint_linear {x w b out matrix : Buffer K} {ins outs : Nat} (hx : x.Sound)
    (hW : w.Sound) (hw : w.shape = [outs, ins]) (hb : b.shape = [outs])
    (hout : Linear.value ins outs x w b = .ok (matrix, out)) (dx dw db : Buffer K) :
    ∃ m d, Linear.value ins outs (x.dual dx) (w.dual dw) (b.dual db) = .ok (m, d) ∧
      Adjoint d (.linear matrix w x.shape) out.shape [dx, dw, db] := by
  obtain ⟨rows, hrow, hp⟩ := Linear.value_inv hx hW hw hout
  obtain ⟨m₀, o₀, hv, hmT, hoT⟩ := Linear.value_eq hx hw hrow hp b
  obtain ⟨rfl, rfl⟩ := Prod.mk.inj (Except.ok.inj (hv.symm.trans hout))
  have hw' : (w.dual dw).shape = [outs, ins] := hw
  obtain ⟨m, d, hd, -, hdT⟩ := Linear.value_eq (hx.dual dx) hw' hrow hp (b.dual db)
  have hM := hmT.sound (hrow.proper_rows hx.proper)
  refine ⟨m, d, hd, hdT.shaped, fun g grads hg hgr => ?_⟩
  obtain ⟨p, q, hpq, hpT, hqT⟩ := Rule.linearGradients_eq hmT.shape_eq hw hM hW hx.proper hg.1
    (hg.2 ▸ hrow.prod_output) hrow.prod_shape hp
  obtain rfl := Except.ok.inj (hpq.symm.trans hgr)
  -- the derivative of the result, and the three gradients, at each position
  have hed : ∀ i < rows, ∀ j < outs, d.tangents.entry (i * outs + j) =
      (∑ l ∈ range ins, (dx.entry (i * ins + l) * w.entry (j * ins + l) +
        x.entry (i * ins + l) * dw.entry (j * ins + l))) + db.entry j := fun i hi j hj => by
    rw [Buffer.entry_tangents, hdT.entry_eq _ (hrow.prod_output ▸ Buffer.position_lt hi hj),
      Buffer.position_div hj, Buffer.position_mod hj, Dual.foldl_range, Dual.add_eq,
      (Buffer.tabulates_dual b db).entry_eq j (by simpa [hb] using hj)]
    dsimp only
    refine congrArg (· + _) (sum_congr rfl fun l hl => ?_)
    have hl := mem_range.1 hl
    rw [Dual.mul_eq, (Buffer.tabulates_dual x dx).entry_eq _
        (hrow.prod_shape ▸ Buffer.position_lt hi hl),
      (Buffer.tabulates_dual w dw).entry_eq _ (by simpa [hw] using Buffer.position_lt hj hl)]
  have hep : ∀ i < rows, ∀ l < ins, p.entry (i * ins + l) =
      ∑ j ∈ range outs, g.entry (i * outs + j) * w.entry (j * ins + l) := fun i hi l hl => by
    rw [hpT.entry_eq _ (hrow.prod_shape ▸ Buffer.position_lt hi hl), Buffer.position_div hl,
      Buffer.position_mod hl, Buffer.productEntry_eq]
  have heq : ∀ j < outs, ∀ l < ins, q.entry (j * ins + l) =
      ∑ i ∈ range rows, g.entry (i * outs + j) * x.entry (i * ins + l) := fun j hj l hl => by
    rw [hqT.entry_eq _ (by simpa using Buffer.position_lt hj hl), foldl_range,
      Buffer.position_div hl, Buffer.position_mod hl]
    refine sum_congr rfl fun i hi => ?_
    rw [hmT.entry_eq _ (by simpa using Buffer.position_lt (mem_range.1 hi) hl)]
  have her : ∀ j < outs, ((Buffer.mk [rows, outs] g.data).columnSums rows outs).entry j =
      ∑ i ∈ range rows, g.entry (i * outs + j) := fun j hj => by
    rw [(Buffer.tabulates_columnSums _ rows outs).entry_eq j (by simpa using hj), foldl_range]
    rfl
  have hp' : p.dot dx = ∑ i ∈ range rows, ∑ l ∈ range ins,
      (∑ j ∈ range outs, g.entry (i * outs + j) * w.entry (j * ins + l)) *
        dx.entry (i * ins + l) := by
    rw [dot_matrix rows ins (hpT.shape_eq ▸ hrow.prod_shape)]
    exact sum_congr rfl fun i hi => sum_congr rfl fun l hl => by
      rw [hep i (mem_range.1 hi) l (mem_range.1 hl)]
  have hq' : q.dot dw = ∑ l ∈ range ins, ∑ j ∈ range outs,
      (∑ i ∈ range rows, x.entry (i * ins + l) * g.entry (i * outs + j)) *
        dw.entry (j * ins + l) := by
    rw [dot_matrix outs ins (by simp [hqT.shape_eq]), sum_comm]
    exact sum_congr rfl fun l hl => sum_congr rfl fun j hj => by
      rw [heq j (mem_range.1 hj) l (mem_range.1 hl)]
      exact congrArg (· * _) (sum_congr rfl fun i _ => mul_comm _ _)
  have hr' : ((Buffer.mk [rows, outs] g.data).columnSums rows outs).dot db =
      ∑ i ∈ range rows, ∑ j ∈ range outs, g.entry (i * outs + j) * db.entry j := by
    have hs : ((Buffer.mk [rows, outs] g.data).columnSums rows outs).shape.prod = outs := by
      simp [Buffer.columnSums]
    unfold Buffer.dot
    rw [hs, sum_comm]
    exact sum_congr rfl fun j hj => by rw [her j (mem_range.1 hj), sum_mul]
  rw [weigh_three, hp', hq', hr', dot_matrix rows outs (hg.2 ▸ hrow.prod_output),
    ← sum_product_rule rows ins outs (fun i j => g.entry (i * outs + j))
      (fun i l => x.entry (i * ins + l)) (fun i l => dx.entry (i * ins + l))
      (fun l j => w.entry (j * ins + l)) (fun l j => dw.entry (j * ins + l)),
    ← sum_add_distrib]
  refine sum_congr rfl fun i hi => ?_
  rw [← sum_add_distrib]
  refine sum_congr rfl fun j hj => ?_
  rw [hed i (mem_range.1 hi) j (mem_range.1 hj), mul_add]

end DiffTensor
