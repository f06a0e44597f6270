import DiffTensor.Linear
import DiffTensor.Proofs.Rule

/-!
# What linear layers compute

A layer whose parameters have their shapes computes, for each row of its input and each row of
its weight, their product plus the bias (`value_eq`). It gives a result only for inputs that are
rows of its size, and only if the result can exist (`value_inv`).
-/

namespace DiffTensor.Linear

variable {α : Type} [Scalar α]

omit [Scalar α] in
theorem rows_inv {ins rows : Nat} {x : Buffer α} (h : Linear.rows ins x.shape = .ok rows)
    (outs : Nat) :
    RowWise ins outs rows x.shape (if x.rank = 1 then [outs] else [rows, outs]) := by
  unfold Linear.rows at h
  split at h <;> rename_i hs <;> try cases h
  all_goals
    split at h
    · rename_i e
      cases h
      subst e
      simp [RowWise, Buffer.rank, hs]
    · cases h

omit [Scalar α] in
theorem rows_eq {ins outs rows : Nat} {x : Buffer α} {output : List Nat}
    (h : RowWise ins outs rows x.shape output) :
    Linear.rows ins x.shape = .ok rows ∧
      (if x.rank = 1 then [outs] else [rows, outs]) = output := by
  rcases h with ⟨hs, rfl, rfl⟩ | ⟨hs, rfl⟩ <;> simp [Linear.rows, Buffer.rank, hs]

/-- The shapes and sizes that a layer has accepted. -/
theorem value_inv {ins outs : Nat} {x weight bias matrix out : Buffer α} (hx : x.Sound)
    (hW : weight.Sound) (hw : weight.shape = [outs, ins])
    (h : value ins outs x weight bias = .ok (matrix, out)) :
    ∃ rows, RowWise ins outs rows x.shape out.shape ∧ Extent.Proper [rows, outs] := by
  unfold value at h
  obtain ⟨rows, hr, h⟩ := Outcome.bind_eq_ok_iff.1 h
  obtain ⟨m, hm, h⟩ := Outcome.bind_eq_ok_iff.1 h
  obtain ⟨t, ht, h⟩ := Outcome.bind_eq_ok_iff.1 h
  obtain ⟨p, hp, h⟩ := Outcome.bind_eq_ok_iff.1 h
  obtain ⟨o, ho, h⟩ := Outcome.bind_eq_ok_iff.1 h
  obtain ⟨-, rfl⟩ := Prod.mk.inj (Except.ok.inj h)
  have hrow := rows_inv hr outs
  obtain ⟨rows', inner, cols, hms, hts, hroom⟩ := Buffer.product_inv hp
  obtain ⟨t', ht', hT⟩ := Buffer.transpose_eq hw
  obtain rfl : t' = t := Except.ok.inj (ht'.symm.trans ht)
  have e1 : [rows', inner] = [rows, ins] := hms.symm.trans (Buffer.shape_of_reshape hm)
  have e2 : [inner, cols] = [ins, outs] := hts.symm.trans hT.shape_eq
  simp only [List.cons.injEq, and_true] at e1 e2
  rw [e1.1, e2.2] at hroom
  refine ⟨rows, Buffer.shape_of_reshape ho ▸ hrow, ?_⟩
  exact Extent.proper_two ((hrow.proper_rows hx.proper).words rows (by simp))
    (hW.proper.words outs (by simp [hw])) hroom

/-- Each element of the result is the product of a row of the input and a row of the weight, plus
an element of the bias. -/
theorem value_eq {ins outs rows : Nat} {x weight : Buffer α} {output : List Nat}
    (hx : x.Sound) (hw : weight.shape = [outs, ins])
    (hrow : RowWise ins outs rows x.shape output) (ho : Extent.Proper [rows, outs])
    (bias : Buffer α) :
    ∃ matrix out, value ins outs x weight bias = .ok (matrix, out) ∧
      matrix.Tabulates [rows, ins] x.entry ∧ out.Tabulates output fun k =>
        (List.range ins).foldl (fun sum l =>
          sum + x.entry (k / outs * ins + l) * weight.entry (k % outs * ins + l)) 0 +
        bias.entry (k % outs) := by
  obtain ⟨hr, hout⟩ := rows_eq hrow
  have hroom : rows * outs < Extent.allocationLimit := by simpa using ho.room
  have hprod : x.shape.prod = rows * ins := hrow.prod_shape
  obtain ⟨m, hm, hmT⟩ := Buffer.reshape_eq hx.full (hrow.proper_rows hx.proper) (by simp [hprod])
  obtain ⟨t, ht, htT⟩ := Buffer.transpose_eq hw
  obtain ⟨p, hp, hpT⟩ := Buffer.product_eq hmT.shape_eq htT.shape_eq hroom
  have hqT := Buffer.tabulates_addRow hpT.full bias outs
  rw [hpT.shape_eq] at hqT
  obtain ⟨o, ho', hoT⟩ := Buffer.reshape_eq hqT.full (hrow.proper_results.2 ho)
    (by rw [hqT.shape_eq, hrow.prod_output]; simp)
  refine ⟨m, o, ?_, hmT, hoT.congr fun k hk => ?_⟩
  · simp only [value, hr, hm, ht, hp, Outcome.ok_bind, hout, ho']
    rfl
  · rw [hrow.prod_output] at hk
    have houts : 0 < outs := Nat.pos_of_ne_zero fun h0 => by simp [h0] at hk
    have hi : k / outs < rows := Nat.div_lt_of_lt_mul (Nat.mul_comm rows outs ▸ hk)
    have hj : k % outs < outs := Nat.mod_lt _ houts
    rw [hqT.entry_eq k (by simpa using hk), hpT.entry_eq k (by simpa using hk)]
    congr 1
    unfold Buffer.productEntry
    refine List.foldl_ext _ _ _ fun sum l hl => ?_
    have hl := List.mem_range.1 hl
    rw [hmT.entry_eq _ (by simpa using Buffer.position_lt hi hl), htT.entry_transpose hj hl]

end DiffTensor.Linear

namespace DiffTensor.Store

variable {α : Type} [Scalar α] [Sampler α]

/-- A new layer has features and not too many weights; its parameters are drawn one after the
other, the weight first. -/
theorem newLinear_inv {s s' : Store α} {stream stream' : Stream} {inputs outputs : Nat}
    {layer : Linear} (h : s.newLinear stream inputs outputs = .ok (layer, s', stream')) :
    ¬(inputs = 0 ∨ outputs = 0) ∧ inputs * outputs < Extent.wordLimit ∧
    ∃ weight bias between,
      Sampler.uniforms [outputs, inputs] (1 / Scalar.sqrt (Scalar.ofNat inputs) : α) stream =
        .ok (weight, between) ∧
      Sampler.uniforms [outputs] (1 / Scalar.sqrt (Scalar.ofNat inputs) : α) between =
        .ok (bias, stream') ∧
      layer = ⟨s.nodes.size, (s.parameter weight).2.nodes.size, inputs, outputs⟩ ∧
      s' = ((s.parameter weight).2.parameter bias).2 := by
  by_cases h0 : inputs = 0 ∨ outputs = 0
  · simp [Store.newLinear, h0] at h
  by_cases hm : Extent.wordLimit ≤ inputs * outputs
  · simp [Store.newLinear, h0, hm] at h
  simp only [Store.newLinear, h0, hm, if_false, Outcome.pure_eq, Outcome.bind_eq_ok_iff,
    Except.ok.injEq, Prod.mk.injEq] at h
  obtain ⟨⟨weight, between⟩, hw, ⟨bias, _⟩, hb, rfl, rfl, rfl⟩ := h
  exact ⟨h0, Nat.not_le.1 hm, weight, bias, between, hw, hb, rfl, rfl⟩

end DiffTensor.Store
