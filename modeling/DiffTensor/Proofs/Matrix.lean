import DiffTensor.Proofs.Exact

/-!
# Products and transposes of matrices

In exact arithmetic, with any kernel that multiplies matrices column by column
(`Kernel.Multiplies`): what the kernel is handed are the transposes of the operands the other way
round, and so it stores the product of the operands, row by row (`productBy_tabulates`). From this
and from the entries of a transpose come the laws of both (`matrices`).

A product is limited by its room only: that of an empty column and an empty row can be too large.
-/

namespace DiffTensor.Buffer

open Finset

variable {K : Type} [Field K] [LinearOrder K] [Elementary K]

/-- The kernel stores the product of two matrices that are not empty, column by column. -/
def Kernel.Multiplies (kernel : Kernel K) : Prop :=
  ∀ {rows inner cols : Nat} {left right : Array K}, 0 < rows → 0 < inner → 0 < cols →
    left.size = rows * inner → right.size = inner * cols →
      (kernel rows inner cols left right).size = rows * cols ∧
      ∀ i < rows, ∀ j < cols, (kernel rows inner cols left right).getD (j * rows + i) 0 =
        ∑ l ∈ range inner, left.getD (l * rows + i) 0 * right.getD (j * inner + l) 0

theorem Kernel.multiplies_plain : (Kernel.plain : Kernel K).Multiplies := by
  intro rows inner cols left right _ _ _ _ _
  refine ⟨Array.size_ofFn, fun i hi j hj => ?_⟩
  have hk : j * rows + i < rows * cols := Nat.mul_comm cols rows ▸ position_lt hj hi
  have hget : (Kernel.plain rows inner cols left right).getD (j * rows + i) 0 =
      (List.range inner).foldl (fun sum l =>
        sum + right.getD ((j * rows + i) / rows * inner + l) 0 *
          left.getD (l * rows + (j * rows + i) % rows) 0) 0 := by
    simp [Kernel.plain, Array.getD_eq_getD_getElem?, hk]
  rw [hget, position_div hi, position_mod hi, foldl_range]
  exact sum_congr rfl fun l _ => mul_comm _ _

/-! ## Products -/

/-- Each entry of a product sums up a row of the left matrix times a column of the right one. -/
theorem productBy_tabulates {kernel : Kernel K} (hk : kernel.Multiplies) {a b : Buffer K}
    (ha : a.WellShaped) (hb : b.WellShaped) {rows inner cols : Nat} (has : a.shape = [rows, inner])
    (hbs : b.shape = [inner, cols]) (hr : rows * cols < Extent.allocationLimit) :
    ∃ c, a.productBy kernel b = .ok c ∧ c.Tabulates [rows, cols] fun k =>
      ∑ l ∈ range inner, a.entry (k / cols * inner + l) * b.entry (l * cols + k % cols) := by
  have hasize : a.data.size = inner * rows := by
    rw [show a.data.size = a.shape.prod from ha, has]
    simp [Nat.mul_comm]
  have hbsize : b.data.size = cols * inner := by
    rw [show b.data.size = b.shape.prod from hb, hbs]
    simp [Nat.mul_comm]
  refine productBy_eq kernel has hbs hr (fun hrows hcols hinner => ?_) fun h0 k => by simp [h0]
  obtain ⟨hsize, hentry⟩ := hk hcols hinner hrows hbsize hasize
  refine ⟨rfl, by simpa [WellShaped, Nat.mul_comm] using hsize, fun k hlt => ?_⟩
  have hlt : k < cols * rows := by simpa [Nat.mul_comm] using hlt
  -- Position `k` of what is stored is row `k % cols` of column `k / cols`.
  have := hentry (k % cols) (Nat.mod_lt k hcols) (k / cols) (Nat.div_lt_of_lt_mul hlt)
  rw [Nat.div_add_mod'] at this
  exact this.trans (sum_congr rfl fun l _ => mul_comm _ _)

/-- The buffer `c` is the product of a matrix with `inner` columns and a matrix with `cols`
columns. -/
structure Multiplied (a b c : Buffer K) (rows inner cols : Nat) : Prop where
  shape_eq : c.shape = [rows, cols]
  full : c.WellShaped
  entry_eq : ∀ i < rows, ∀ j < cols, c.entry (i * cols + j) =
    ∑ l ∈ range inner, a.entry (i * inner + l) * b.entry (l * cols + j)

theorem Tabulates.multiplied {a b c : Buffer K} {rows inner cols : Nat}
    (hT : c.Tabulates [rows, cols] fun k =>
      ∑ l ∈ range inner, a.entry (k / cols * inner + l) * b.entry (l * cols + k % cols)) :
    Multiplied a b c rows inner cols := by
  refine ⟨hT.shape_eq, hT.full, fun i hi j hj => ?_⟩
  rw [hT.entry_eq _ (by simpa using position_lt hi hj), position_div hj, position_mod hj]

/-- A product is refused for the rank of an operand, or else for inner dimensions that differ. -/
theorem productBy_eq_refuse_iff {kernel : Kernel K} {a b : Buffer K} {reason : LibraryError} :
    a.productBy kernel b = refuse reason ↔
      ¬(a.rank = 2 ∧ b.rank = 2) ∧ reason = .productRank a.shape b.shape ∨
      (∃ rows inner inner' cols, a.shape = [rows, inner] ∧ b.shape = [inner', cols] ∧
        inner ≠ inner') ∧ reason = .productInner a.shape b.shape := by
  by_cases hrank : a.rank = 2 ∧ b.rank = 2
  · obtain ⟨rows, inner, ha⟩ := List.length_eq_two.1 hrank.1
    obtain ⟨inner', cols, hb⟩ := List.length_eq_two.1 hrank.2
    by_cases hi : inner = inner'
    · subst hi
      refine iff_of_false (fun h => ?_) ?_
      · simp only [productBy, ha, hb, ne_eq, not_true, if_false] at h
        split_ifs at h <;> cases h
      · rintro (⟨h, -⟩ | ⟨⟨_, _, _, _, ha', hb', hne⟩, -⟩)
        · exact h hrank
        · rw [ha] at ha'
          rw [hb] at hb'
          cases ha'
          cases hb'
          exact hne rfl
    · have hc : a.productBy kernel b = refuse (.productInner a.shape b.shape) := by
        simp only [productBy, ha, hb, ne_eq, hi, not_false_eq_true, if_true]
      rw [hc, Outcome.refuse_inj, eq_comm]
      refine ⟨fun h => .inr ⟨⟨rows, inner, inner', cols, ha, hb, hi⟩, h⟩, ?_⟩
      rintro (⟨h, -⟩ | ⟨-, h⟩)
      · exact absurd hrank h
      · exact h
  · rw [productBy_of_rank kernel hrank, Outcome.refuse_inj, eq_comm]
    refine ⟨fun h => .inl ⟨hrank, h⟩, ?_⟩
    rintro (⟨-, h⟩ | ⟨⟨_, _, _, _, ha, hb, -⟩, -⟩)
    · exact h
    · exact absurd ⟨congrArg List.length ha, congrArg List.length hb⟩ hrank

/-! ## Transposes -/

/-- The buffer `c` is the transpose of a matrix. -/
structure Transposed (b c : Buffer K) (rows cols : Nat) : Prop where
  shape_eq : c.shape = [cols, rows]
  full : c.WellShaped
  entry_eq : ∀ i < rows, ∀ j < cols, c.entry (j * rows + i) = b.entry (i * cols + j)

theorem transpose_transposed {b : Buffer K} {rows cols : Nat} (hs : b.shape = [rows, cols]) :
    ∃ c, b.transpose = .ok c ∧ Transposed b c rows cols := by
  obtain ⟨c, hc, hT⟩ := transpose_eq hs
  exact ⟨c, hc, hT.shape_eq, hT.full, fun i hi j hj => hT.entry_transpose hi hj⟩

/-- Transposing twice gives the buffer back. -/
theorem transpose_twice {b : Buffer K} (hb : b.WellShaped) (hr : b.rank ≤ 2) :
    b.transpose >>= transpose = .ok b := by
  match hs : b.shape with
  | [] | [_] =>
    have h := transpose_of_short (b := b) (by simp [hs])
    rw [h, Outcome.ok_bind, h]
  | [rows, cols] =>
    obtain ⟨c, hc, -⟩ := transpose_eq hs
    rw [hc, Outcome.ok_bind, transpose_transpose hb hs hc]
  | _ :: _ :: _ :: _ => simp [rank, hs] at hr

/-- The transpose of a product is the product of the transposes the other way round. -/
theorem transpose_productBy {kernel : Kernel K} (hk : kernel.Multiplies) {a b : Buffer K}
    (ha : a.WellShaped) (hb : b.WellShaped) {rows inner cols : Nat} (has : a.shape = [rows, inner])
    (hbs : b.shape = [inner, cols]) :
    a.productBy kernel b >>= transpose =
      (do (← b.transpose).productBy kernel (← a.transpose)) := by
  obtain ⟨at', hat, hatT⟩ := transpose_transposed has
  obtain ⟨bt, hbt, hbtT⟩ := transpose_transposed hbs
  simp only [hat, hbt, Outcome.ok_bind]
  by_cases hr : rows * cols < Extent.allocationLimit
  · obtain ⟨c, hc, hcT⟩ := productBy_tabulates hk ha hb has hbs hr
    obtain ⟨d, hd, hdT⟩ := transpose_transposed hcT.shape_eq
    obtain ⟨e, he, heT⟩ := productBy_tabulates hk hbtT.full hatT.full hbtT.shape_eq hatT.shape_eq
      (Nat.mul_comm rows cols ▸ hr)
    rw [hc, Outcome.ok_bind, hd, he]
    refine congrArg _ (ext_matrix hdT.full heT.full hdT.shape_eq heT.shape_eq fun j hj i hi => ?_)
    rw [hdT.entry_eq i hi j hj, hcT.multiplied.entry_eq i hi j hj,
      heT.multiplied.entry_eq j hj i hi]
    refine sum_congr rfl fun l hl => ?_
    rw [mem_range] at hl
    rw [hbtT.entry_eq l hl j hj, hatT.entry_eq i hi l hl, mul_comm]
  · have hr' : ¬cols * rows < Extent.allocationLimit := Nat.mul_comm rows cols ▸ hr
    rw [productBy_crash kernel has hbs hr,
      productBy_crash kernel hbtT.shape_eq hatT.shape_eq hr', Nat.mul_comm cols, Outcome.crash_bind]

/-- Products and transposes in exact arithmetic, with any kernel that multiplies. -/
theorem matrices {kernel : Kernel K} (hk : kernel.Multiplies) {a b : Buffer K}
    (ha : a.WellShaped) (hb : b.WellShaped) :
    -- A product is refused exactly for ranks, or else for inner dimensions.
    ((∃ reason, a.productBy kernel b = refuse reason ∧ reason.kind = .unsupportedRank) ↔
      ¬(a.rank = 2 ∧ b.rank = 2)) ∧
    ((∃ reason, a.productBy kernel b = refuse reason ∧ reason.kind = .shapeMismatch) ↔
      ∃ rows inner inner' cols, a.shape = [rows, inner] ∧ b.shape = [inner', cols] ∧
        inner ≠ inner') ∧
    -- Otherwise it is the product, if there is room, and its transpose that of the transposes.
    (∀ rows inner cols, a.shape = [rows, inner] → b.shape = [inner, cols] →
      (rows * cols < Extent.allocationLimit →
        ∃ c, a.productBy kernel b = .ok c ∧ Multiplied a b c rows inner cols) ∧
      (¬rows * cols < Extent.allocationLimit → ∃ cause, a.productBy kernel b = crash cause) ∧
      a.productBy kernel b >>= transpose =
        (do (← b.transpose).productBy kernel (← a.transpose))) ∧
    -- Transposes of what has at most two dimensions.
    (a.rank ≤ 1 → a.transpose = .ok a) ∧
    (∀ rows cols, a.shape = [rows, cols] →
      ∃ c, a.transpose = .ok c ∧ Transposed a c rows cols) ∧
    (a.rank ≤ 2 → a.transpose >>= transpose = .ok a) := by
  refine ⟨?_, ?_, fun rows inner cols has hbs => ⟨fun hr => ?_, fun hr => ?_, ?_⟩,
    transpose_of_short, fun rows cols => transpose_transposed, transpose_twice ha⟩
  · simp only [productBy_eq_refuse_iff]
    constructor
    · rintro ⟨reason, ⟨h, -⟩ | ⟨-, rfl⟩, hkind⟩
      · exact h
      · cases hkind
    · exact fun h => ⟨_, .inl ⟨h, rfl⟩, rfl⟩
  · simp only [productBy_eq_refuse_iff]
    constructor
    · rintro ⟨reason, ⟨-, rfl⟩ | ⟨h, -⟩, hkind⟩
      · cases hkind
      · exact h
    · exact fun h => ⟨_, .inr ⟨h, rfl⟩, rfl⟩
  · obtain ⟨c, hc, hT⟩ := productBy_tabulates hk ha hb has hbs hr
    exact ⟨c, hc, hT.multiplied⟩
  · exact ⟨_, productBy_crash kernel has hbs hr⟩
  · exact transpose_productBy hk ha hb has hbs

/-- A matrix times a column. -/
theorem matrices_column :
    let _ := Elementary.plain ℚ
    let a : Buffer ℚ := ⟨[2, 2], #[1, 2, 3, 4]⟩
    let b : Buffer ℚ := ⟨[2, 1], #[5, 6]⟩
    (Kernel.plain : Kernel ℚ).Multiplies ∧ a.WellShaped ∧ b.WellShaped ∧
      ∃ c, a.product b = .ok c ∧ c.shape = [2, 1] ∧ c.entry 0 = 17 ∧ c.entry 1 = 39 := by
  intro _ a b
  have hk : (Kernel.plain : Kernel ℚ).Multiplies := Kernel.multiplies_plain
  obtain ⟨-, -, h, -⟩ := matrices hk (a := a) (b := b) rfl rfl
  obtain ⟨c, hc, hm⟩ := (h 2 2 1 rfl rfl).1 (by decide)
  refine ⟨hk, rfl, rfl, c, hc, hm.shape_eq, (hm.entry_eq 0 (by decide) 0 (by decide)).trans ?_,
    (hm.entry_eq 1 (by decide) 0 (by decide)).trans ?_⟩
  · norm_num [sum_range_succ, a, b, entry]
  · norm_num [sum_range_succ, a, b, entry]

/-- An empty column times an empty row has no elements to add up, but too many to hold. -/
theorem matrices_without_room :
    let _ := Elementary.plain ℚ
    let a : Buffer ℚ := ⟨[2147483648, 0], #[]⟩
    let b : Buffer ℚ := ⟨[0, 2147483648], #[]⟩
    a.WellShaped ∧ b.WellShaped ∧ a.product b = crash .capacity :=
  ⟨rfl, rfl, rfl⟩

end DiffTensor.Buffer
