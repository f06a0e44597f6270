import DiffTensor.Graph.Rule
import DiffTensor.Proofs.Buffer

/-!
# What gradient rules result in

A rule `Serves` the shapes of its inputs and of its result if it turns every gradient of the
result into one gradient for each input, of the input's shape, unless it fails for a reason that
counts as an excuse.

`Fits` says which shapes and which kept buffers an operation of the library leaves behind. A
rule that fits serves, and products of strides of one of these shapes that leave the word are its
only excuse (`serves_of_fits`). Rules from outside never fit.
-/

namespace DiffTensor

variable {α : Type}

/-- A buffer that is full and has the given shape. -/
def Buffer.Shaped (b : Buffer α) (shape : List Nat) : Prop := b.WellShaped ∧ b.shape = shape

theorem Buffer.Tabulates.shaped [Scalar α] {b : Buffer α} {shape : List Nat} {f : Nat → α}
    (h : b.Tabulates shape f) : b.Shaped shape := ⟨h.full, h.shape_eq⟩

theorem Buffer.Shaped.sound {b : Buffer α} {shape : List Nat} (h : b.Shaped shape)
    (hs : Extent.Proper shape) : b.Sound := ⟨h.2 ▸ hs, h.1⟩

theorem Buffer.Sound.shaped {b : Buffer α} (h : b.Sound) : b.Shaped b.shape := ⟨h.full, rfl⟩

theorem Buffer.Shaped.plus [Scalar α] {a b : Buffer α} {shape : List Nat} (ha : a.Shaped shape)
    (hb : b.Shaped shape) : (a.plus b).Shaped shape := by
  have hT := Buffer.tabulates_plus ha.1 hb.1 (ha.2.trans hb.2.symm)
  exact ⟨hT.full, hT.shape_eq.trans ha.2⟩

/-- One buffer for each shape. -/
def AllShaped (buffers : List (Buffer α)) (shapes : List (List Nat)) : Prop :=
  List.Forall₂ Buffer.Shaped buffers shapes

theorem AllShaped.length_eq {buffers : List (Buffer α)} {shapes : List (List Nat)}
    (h : AllShaped buffers shapes) : buffers.length = shapes.length := List.Forall₂.length_eq h

/-- The computation succeeds with a result of the given kind, or fails with an excuse. -/
def Outcome.Yields {β : Type} (x : Outcome β) (excuse : Failure → Prop) (P : β → Prop) : Prop :=
  (∃ b, x = .ok b ∧ P b) ∨ ∃ e, x = .error e ∧ excuse e

namespace Outcome

variable {β γ : Type} {excuse : Failure → Prop}

theorem yields_ok {b : β} {P : β → Prop} (h : P b) : Yields (.ok b) excuse P := Or.inl ⟨b, rfl, h⟩

theorem Yields.bind {x : Outcome β} {f : β → Outcome γ} {P : β → Prop} {Q : γ → Prop}
    (hx : x.Yields excuse P) (hf : ∀ b, P b → (f b).Yields excuse Q) :
    (x >>= f).Yields excuse Q := by
  rcases hx with ⟨b, rfl, hb⟩ | ⟨e, rfl, he⟩
  · exact hf b hb
  · exact Or.inr ⟨e, rfl, he⟩

theorem Yields.mono {x : Outcome β} {excuse' : Failure → Prop} {P Q : β → Prop}
    (hx : x.Yields excuse P) (he : ∀ e, excuse e → excuse' e) (hP : ∀ b, P b → Q b) :
    x.Yields excuse' Q := by
  rcases hx with ⟨b, hb, h⟩ | ⟨e, hb, h⟩
  · exact Or.inl ⟨b, hb, hP b h⟩
  · exact Or.inr ⟨e, hb, he e h⟩

end Outcome

/-- A layer maps an input of the given shape, read as so many rows, to a result of the other shape:
a single row may come without a dimension for rows. -/
def RowWise (ins outs rows : Nat) (shape output : List Nat) : Prop :=
  shape = [ins] ∧ rows = 1 ∧ output = [outs] ∨ shape = [rows, ins] ∧ output = [rows, outs]

theorem RowWise.prod_shape {ins outs rows : Nat} {shape output : List Nat}
    (h : RowWise ins outs rows shape output) : shape.prod = rows * ins := by
  rcases h with ⟨rfl, rfl, -⟩ | ⟨rfl, -⟩ <;> simp

theorem RowWise.prod_output {ins outs rows : Nat} {shape output : List Nat}
    (h : RowWise ins outs rows shape output) : output.prod = rows * outs := by
  rcases h with ⟨-, rfl, rfl⟩ | ⟨-, rfl⟩ <;> simp

/-- Read as rows, an input can exist if it can exist as it is. -/
theorem RowWise.proper_rows {ins outs rows : Nat} {shape output : List Nat}
    (h : RowWise ins outs rows shape output) (hs : Extent.Proper shape) :
    Extent.Proper [rows, ins] := by
  rcases h with ⟨rfl, rfl, -⟩ | ⟨rfl, -⟩
  · refine Extent.proper_two (by decide) (hs.words ins (by simp)) ?_
    simpa using hs.room
  · exact hs

theorem RowWise.proper_results {ins outs rows : Nat} {shape output : List Nat}
    (h : RowWise ins outs rows shape output) : Extent.Proper output ↔
      Extent.Proper [rows, outs] := by
  rcases h with ⟨-, rfl, rfl⟩ | ⟨-, rfl⟩
  · refine ⟨fun ho => ?_, fun ho => Extent.proper_one (by simpa using ho.room)⟩
    refine Extent.proper_two (by decide) (ho.words outs (by simp)) ?_
    simpa using ho.room
  · exact Iff.rfl

namespace Rule

variable [Scalar α]

/-- The rule carries gradients of shape `output` to inputs of the given shapes. -/
def Serves (excuse : Failure → Prop) (rule : Rule α) (inputs : List (List Nat))
    (output : List Nat) : Prop :=
  ∀ g : Buffer α, g.Shaped output →
    (rule.gradients g).Yields excuse fun grads => AllShaped grads inputs

omit [Scalar α] in
/-- The shapes and the kept buffers are those that an operation of the library leaves. -/
def Fits : Rule α → List (List Nat) → List Nat → Prop
  | add left right, inputs, output | sub left right, inputs, output =>
    inputs = [left, right] ∧ Shape.join left right = some output ∧
      Extent.Proper left ∧ Extent.Proper right
  | mul left right, inputs, output =>
    inputs = [left.shape, right.shape] ∧ Shape.join left.shape right.shape = some output ∧
      left.Sound ∧ right.Sound
  | matmul left right, inputs, output =>
    ∃ rows inner cols, left.shape = [rows, inner] ∧ right.shape = [inner, cols] ∧
      inputs = [[rows, inner], [inner, cols]] ∧ output = [rows, cols] ∧ left.Sound ∧ right.Sound
  | transpose, inputs, output =>
    inputs = [output] ∧ output.length ≤ 1 ∨
      ∃ rows cols, inputs = [[rows, cols]] ∧ output = [cols, rows]
  | relu kept, inputs, output | sigmoid kept, inputs, output =>
    inputs = [kept.shape] ∧ output = kept.shape ∧ kept.Sound
  | sum input _, inputs, output => inputs = [input] ∧ output = [] ∧ Extent.Proper input
  | linear input weight shape, inputs, output =>
    ∃ rows ins outs, input.shape = [rows, ins] ∧ weight.shape = [outs, ins] ∧
      inputs = [shape, [outs, ins], [outs]] ∧ RowWise ins outs rows shape output ∧
      input.Sound ∧ weight.Sound ∧ Extent.Proper shape
  | custom .., _, _ => False

/-- The only excuse of the library's own rules. -/
def Overflows (e : Failure) : Prop := e = overflow

/-- It comes from one of the shapes. -/
def OverflowsOn (shapes : List (List Nat)) (e : Failure) : Prop :=
  Overflows e ∧ ∃ shape ∈ shapes, ¬Layout.Steady shape

theorem OverflowsOn.mono {shapes shapes' : List (List Nat)} {e : Failure} (h : OverflowsOn shapes e)
    (hs : ∀ shape ∈ shapes, shape ∈ shapes') : OverflowsOn shapes' e := by
  obtain ⟨he, shape, hm, hn⟩ := h
  exact ⟨he, shape, hs shape hm, hn⟩

theorem yields_reduce {b : Buffer α} {shape : List Nat} (hb : b.Sound) (hs : Extent.Proper shape)
    (ho : Layout.Onto shape b.shape) :
    (b.reduce shape).Yields (OverflowsOn [shape]) fun c => c.Shaped shape := by
  by_cases hc : b.shape = shape ∨ Layout.Steady shape
  · obtain ⟨c, hc, hcs, hcf⟩ := Buffer.reduce_eq hb hs ho hc
    exact Or.inl ⟨c, hc, hcf, hcs⟩
  · have h := (Buffer.reduce_eq_or hs ho).resolve_left hc
    exact Or.inr ⟨_, h, rfl, shape, List.mem_singleton_self _, fun hst => hc (.inr hst)⟩

theorem yields_combine {a b : Buffer α} {t : List Nat} (ha : a.Sound) (hb : b.Sound)
    (hj : Shape.join a.shape b.shape = some t) (ht : Extent.Proper t) (name : String)
    (f : α → α → α) :
    (a.combine name b f).Yields (OverflowsOn [a.shape, b.shape]) fun c => c.Shaped t := by
  by_cases hc : Buffer.Combinable a.shape b.shape
  · obtain ⟨c, hc, hT⟩ := Buffer.combine_eq ha.full hb.full hj (hc.addressable ht) name f
    exact Or.inl ⟨c, hc, hT.shaped⟩
  · have hsteady : ∃ shape ∈ [a.shape, b.shape], ¬Layout.Steady shape := by
      by_contra hn
      push Not at hn
      exact hc (.inr ⟨hn _ (by simp), hn _ (by simp)⟩)
    rcases Buffer.combine_eq_or ha hb hj ht name f with ⟨c, hc, hT⟩ | h
    · exact Or.inl ⟨c, hc, hT.shaped⟩
    · exact Or.inr ⟨_, h, rfl, hsteady⟩

/-- Both operands of a combination get what is added up for them. -/
theorem yields_reduce_pair {a b : Buffer α} {left right output : List Nat} (ha : a.Shaped output)
    (hb : b.Shaped output) (hl : Extent.Proper left) (hr : Extent.Proper right)
    (ho : Extent.Proper output) (hj : Shape.join left right = some output) :
    (do return [← a.reduce left, ← b.reduce right] : Outcome (List (Buffer α))).Yields
      (OverflowsOn [output, left, right]) fun grads => AllShaped grads [left, right] := by
  obtain ⟨onLeft, onRight⟩ := Layout.onto_of_join hj
  have hleft : (a.reduce left).Yields (OverflowsOn [output, left, right]) (·.Shaped left) :=
    (yields_reduce (ha.sound ho) hl (ha.2 ▸ onLeft)).mono (fun e he => he.mono (by simp))
      fun _ h => h
  have hright : (b.reduce right).Yields (OverflowsOn [output, left, right]) (·.Shaped right) :=
    (yields_reduce (hb.sound ho) hr (hb.2 ▸ onRight)).mono (fun e he => he.mono (by simp))
      fun _ h => h
  exact hleft.bind fun c hc => hright.bind fun d hd =>
    Outcome.yields_ok (.cons hc (.cons hd .nil))

/-- The gradients of a linear layer: only matrices whose sizes are known occur. -/
theorem linearGradients_eq {input weight g : Buffer α} {rows ins outs : Nat}
    {shape : List Nat} (hi : input.shape = [rows, ins]) (hw : weight.shape = [outs, ins])
    (hI : input.Sound) (hW : weight.Sound) (hs : Extent.Proper shape)
    (hg : g.WellShaped) (hgs : g.shape.prod = rows * outs) (hsp : shape.prod = rows * ins)
    (hgp : Extent.Proper [rows, outs]) :
    ∃ a b, linearGradients input weight shape g =
        .ok [a, b, (Buffer.mk [rows, outs] g.data).columnSums rows outs] ∧
      (a.Tabulates shape fun k => Buffer.productEntry g weight outs ins (k / ins) (k % ins)) ∧
      b.Tabulates [outs, ins] fun k =>
        (List.range rows).foldl (fun sum i =>
          sum + g.entry (i * outs + k / ins) * input.entry (i * ins + k % ins)) 0 := by
  have hri : rows * ins < Extent.allocationLimit := by simpa [hi] using hI.proper.room
  have hoi : outs * ins < Extent.allocationLimit := by simpa [hw] using hW.proper.room
  obtain ⟨m, hm, hT⟩ := Buffer.reshape_eq hg hgp (by simp [hgs])
  have hme : m = ⟨[rows, outs], g.data⟩ := by
    unfold Buffer.reshape at hm
    split at hm
    · exact (Except.ok.inj hm).symm
    · cases hm
  obtain ⟨p, hp, hpT⟩ := Buffer.product_eq hT.shape_eq hw hri
  obtain ⟨a, ha, haT⟩ := Buffer.reshape_eq hpT.full hs (by rw [hsp, hpT.shape_eq]; simp)
  obtain ⟨q, hq, hqT⟩ := Buffer.transpose_eq hT.shape_eq
  obtain ⟨b, hb, hbT⟩ := Buffer.product_eq hqT.shape_eq hi hoi
  refine ⟨a, b, ?_, haT.congr fun k hk => ?_, hbT.congr fun k hk => ?_⟩
  · simp [linearGradients, hi, hw, hm, hp, ha, hq, hb, ← hme]
  · rw [hpT.entry_eq k (by simpa [hsp] using hk), hme]
    rfl
  · simp only [List.prod_cons, List.prod_nil, Nat.mul_one] at hk
    have hout : k / ins < outs := Nat.div_lt_of_lt_mul (Nat.mul_comm outs ins ▸ hk)
    unfold Buffer.productEntry
    refine List.foldl_ext _ _ _ fun sum i hi' => ?_
    rw [hqT.entry_transpose (List.mem_range.1 hi') hout, hme]
    rfl

/-- What an operation of the library kept serves the operation's own shapes. -/
theorem serves_of_fits {rule : Rule α} {inputs : List (List Nat)} {output : List Nat}
    (ho : Extent.Proper output) (h : rule.Fits inputs output) :
    rule.Serves (OverflowsOn (output :: inputs)) inputs output := by
  intro g hg
  cases rule with
  | add left right =>
    obtain ⟨rfl, hj, hl, hr⟩ := h
    exact yields_reduce_pair hg hg hl hr ho hj
  | sub left right =>
    obtain ⟨rfl, hj, hl, hr⟩ := h
    have hn : (g.map (-·)).Shaped output := ⟨Buffer.wellShaped_map hg.1 _, hg.2⟩
    exact yields_reduce_pair hg hn hl hr ho hj
  | mul left right =>
    obtain ⟨rfl, hj, hl, hr⟩ := h
    obtain ⟨onLeft, onRight⟩ := Layout.onto_of_join hj
    have hG := hg.sound ho
    have jl : Shape.join g.shape left.shape = some output := by
      rw [hg.2, Layout.join_absorb onLeft]
    have jr : Shape.join g.shape right.shape = some output := by
      rw [hg.2, Layout.join_absorb onRight]
    have hright : (g.combine "mul" right fun g y => g * y).Yields
        (OverflowsOn [output, left.shape, right.shape]) (·.Shaped output) :=
      (yields_combine hG hr jr ho _ _).mono (fun e he => he.mono (by simp [hg.2])) fun _ h => h
    have hleft : (g.combine "mul" left fun g x => g * x).Yields
        (OverflowsOn [output, left.shape, right.shape]) (·.Shaped output) :=
      (yields_combine hG hl jl ho _ _).mono (fun e he => he.mono (by simp [hg.2])) fun _ h => h
    exact hright.bind fun a ha => hleft.bind fun b hb =>
      yields_reduce_pair ha hb hl.proper hr.proper ho hj
  | matmul left right =>
    obtain ⟨rows, inner, cols, hls, hrs, rfl, rfl, hl, hr⟩ := h
    have hri : rows * inner < Extent.allocationLimit := by simpa [hls] using hl.proper.room
    have hic : inner * cols < Extent.allocationLimit := by simpa [hrs] using hr.proper.room
    obtain ⟨rt, hrt, hrT⟩ := Buffer.transpose_eq hrs
    obtain ⟨lt, hlt, hlT⟩ := Buffer.transpose_eq hls
    obtain ⟨a, ha, haT⟩ := Buffer.product_eq hg.2 hrT.shape_eq hri
    obtain ⟨b, hb, hbT⟩ := Buffer.product_eq hlT.shape_eq hg.2 hic
    exact Or.inl ⟨[a, b], by simp [gradients, hrt, hlt, ha, hb],
      .cons haT.shaped (.cons hbT.shaped .nil)⟩
  | transpose =>
    rcases h with ⟨rfl, hl⟩ | ⟨rows, cols, rfl, rfl⟩
    · have ht := Buffer.transpose_of_short (b := g) (hg.2 ▸ hl)
      exact Or.inl ⟨[g], by simp [gradients, ht], .cons hg .nil⟩
    · obtain ⟨t, ht, hT⟩ := Buffer.transpose_eq hg.2
      exact Or.inl ⟨[t], by simp [gradients, ht], .cons hT.shaped .nil⟩
  | relu kept =>
    obtain ⟨rfl, rfl, hk⟩ := h
    obtain ⟨c, hc, hT⟩ := Buffer.zipMap_eq hg.1 hk.full hg.2
      fun g x => if Scalar.positive x then g else 0
    exact Or.inl ⟨[c], by simp [gradients, hc], .cons (hg.2 ▸ hT.shaped) .nil⟩
  | sigmoid kept =>
    obtain ⟨rfl, rfl, hk⟩ := h
    obtain ⟨c, hc, hT⟩ := Buffer.zipMap_eq hg.1 hk.full hg.2 fun g y => g * y * (1 - y)
    exact Or.inl ⟨[c], by simp [gradients, hc], .cons (hg.2 ▸ hT.shaped) .nil⟩
  | sum input scale =>
    obtain ⟨rfl, rfl, hi⟩ := h
    obtain ⟨c, hc, hT⟩ := Buffer.full_eq hi (g.sum * scale)
    exact Or.inl ⟨[c], by simp [gradients, hc], .cons hT.shaped .nil⟩
  | linear input weight shape =>
    obtain ⟨rows, ins, outs, hi, hw, rfl, hrow, hI, hW, hs⟩ := h
    obtain ⟨a, b, hab, haT, hbT⟩ := linearGradients_eq hi hw hI hW hs hg.1
      (hg.2 ▸ hrow.prod_output) hrow.prod_shape (hrow.proper_results.1 ho)
    exact Or.inl ⟨_, hab, .cons haT.shaped (.cons hbT.shaped
      (.cons (Buffer.tabulates_columnSums _ _ _).shaped .nil))⟩
  | custom name act => exact h.elim

end Rule

end DiffTensor
