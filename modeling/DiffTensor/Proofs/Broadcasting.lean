import DiffTensor.Proofs.Exact
import DiffTensor.Proofs.Extent

/-!
# What broadcasting means

Shapes are lined up at their last dimensions, and a dimension that is missing counts as 1
(`Shape.fromLast`). Two shapes have no join exactly if two dimensions `Clash`, and otherwise the
join has, at each place, the dimension that is not 1 (`Shape.Joined`).

A combination under broadcasting reads both operands at the coordinates of the result, restricted
to what they have of them, and only its sizes can break it off (`Buffer.broadcasts`).
-/

namespace DiffTensor

/-! ## Shapes -/

namespace Shape

section

variable {δ : Type} [DecidableEq δ] [OfNat δ 1]

omit [DecidableEq δ] in
/-- The dimension at a place counted from the last one. -/
def fromLast (dims : List δ) (i : Nat) : δ := dims.reverse.getD i 1

/-- Two dimensions that are lined up differ, and neither is 1. -/
def Clash (a b : List δ) : Prop :=
  ∃ i, fromLast a i ≠ fromLast b i ∧ fromLast a i ≠ 1 ∧ fromLast b i ≠ 1

/-- The shape is as long as the longer of the two, and at each place it has the dimension that both
have, or the one if the other is 1. -/
structure Joined (a b t : List δ) : Prop where
  length_eq : t.length = max a.length b.length
  left (i : Nat) : fromLast b i = 1 → fromLast t i = fromLast a i
  right (i : Nat) : fromLast a i = 1 → fromLast t i = fromLast b i
  common (i : Nat) : fromLast a i = fromLast b i → fromLast t i = fromLast a i

theorem joinDim_eq_none_iff {a b : δ} : joinDim a b = none ↔ a ≠ b ∧ a ≠ 1 ∧ b ≠ 1 := by
  grind [joinDim]

theorem joinDim_one_right (a : δ) : joinDim a 1 = some a := by
  rw [joinDim_comm, joinDim_one_left]

theorem joinReversed_getD : ∀ {as bs ts : List δ}, joinReversed as bs = some ts → ∀ i,
    joinDim (as.getD i 1) (bs.getD i 1) = some (ts.getD i 1)
  | [], bs, ts, h, i => by
    obtain rfl : bs = ts := Option.some.inj h
    exact joinDim_one_left _
  | a :: as, [], ts, h, i => by
    obtain rfl : a :: as = ts := Option.some.inj h
    exact joinDim_one_right _
  | a :: as, b :: bs, ts, h, i => by
    rw [joinReversed] at h
    split at h
    · rename_i d dims hd hdims
      cases h
      cases i with
      | zero => exact hd
      | succ i => exact joinReversed_getD hdims i
    · cases h

theorem joinReversed_eq_none_iff : ∀ {as bs : List δ},
    joinReversed as bs = none ↔ ∃ i, joinDim (as.getD i 1) (bs.getD i 1) = none
  | [], bs => by
    refine iff_of_false (Option.some_ne_none bs) ?_
    rintro ⟨i, h⟩
    rw [List.getD_nil, joinDim_one_left] at h
    cases h
  | a :: as, [] => by
    refine iff_of_false (Option.some_ne_none (a :: as)) ?_
    rintro ⟨i, h⟩
    rw [List.getD_nil, joinDim_one_right] at h
    cases h
  | a :: as, b :: bs => by
    have ih : joinReversed as bs = none ↔ _ := joinReversed_eq_none_iff
    rw [joinReversed]
    cases hd : joinDim a b with
    | none => exact iff_of_true rfl ⟨0, hd⟩
    | some d =>
      cases hr : joinReversed as bs with
      | none =>
        obtain ⟨i, hi⟩ := ih.1 hr
        exact iff_of_true rfl ⟨i + 1, hi⟩
      | some dims =>
        refine iff_of_false (Option.some_ne_none (d :: dims)) ?_
        rintro ⟨i, hi⟩
        cases i with
        | zero => cases hd.symm.trans hi
        | succ i => cases hr.symm.trans (ih.2 ⟨i, hi⟩)

/-- Shapes have a join unless dimensions clash. -/
theorem join_eq_none_iff {a b : List δ} : join a b = none ↔ Clash a b := by
  rw [join, Option.map_eq_none_iff, joinReversed_eq_none_iff]
  exact exists_congr fun i => joinDim_eq_none_iff

theorem fromLast_of_join {a b t : List δ} (h : join a b = some t) (i : Nat) :
    joinDim (fromLast a i) (fromLast b i) = some (fromLast t i) := by
  obtain ⟨ts, hts, rfl⟩ := Option.map_eq_some_iff.1 h
  rw [fromLast, fromLast, fromLast, List.reverse_reverse]
  exact joinReversed_getD hts i

omit [DecidableEq δ] in
/-- Shapes of one rank are told apart by a dimension. -/
theorem eq_of_fromLast {s t : List δ} (hl : s.length = t.length)
    (h : ∀ i, fromLast s i = fromLast t i) : s = t := by
  refine List.reverse_injective (List.ext_getElem ?_ fun i hi hi' => ?_)
  · rw [List.length_reverse, List.length_reverse, hl]
  · have := h i
    simp only [fromLast, List.getD_eq_getElem?_getD, List.getElem?_eq_getElem hi,
      List.getElem?_eq_getElem hi', Option.getD_some] at this
    exact this

end

theorem joined_of_join {a b t : List Nat} (h : join a b = some t) : Joined a b t := by
  have hd (i : Nat) : joinDim (fromLast a i) (fromLast b i) = some (fromLast t i) :=
    fromLast_of_join h i
  refine ⟨Layout.length_join h, fun i hi => ?_, fun i hi => ?_, fun i hi => ?_⟩
  · have := hd i
    rw [hi, joinDim_one_right] at this
    exact (Option.some.inj this).symm
  · have := hd i
    rw [hi, joinDim_one_left] at this
    exact (Option.some.inj this).symm
  · have := hd i
    rw [← hi, joinDim_self] at this
    exact (Option.some.inj this).symm

/-- Without clashes there is only one such shape. -/
theorem Joined.eq {a b t t' : List Nat} (hc : ¬Clash a b) (h : Joined a b t)
    (h' : Joined a b t') : t = t' := by
  have hat (i : Nat) : fromLast t i = fromLast t' i := by
    by_cases hi : fromLast a i = fromLast b i
    · rw [h.common i hi, h'.common i hi]
    · by_cases ha : fromLast a i = 1
      · rw [h.right i ha, h'.right i ha]
      · have hb : fromLast b i = 1 := Decidable.not_not.1 fun hb => hc ⟨i, hi, ha, hb⟩
        rw [h.left i hb, h'.left i hb]
  exact eq_of_fromLast (h.length_eq.trans h'.length_eq.symm) hat

end Shape

/-! ## Coordinates -/

namespace Layout

theorem coordinates_flatten {dims coords : List Nat} (h : Within dims coords) :
    coordinates dims (flatten dims coords) = coords := by
  induction h with
  | nil => rfl
  | cons _ h ih =>
    have hlt := flatten_lt h
    rw [flatten, coordinates, Nat.mul_comm, Nat.mul_add_div (Nat.zero_lt_of_lt hlt),
      Nat.div_eq_of_lt hlt, Nat.add_zero, Nat.mul_add_mod, Nat.mod_eq_of_lt hlt, ih]

theorem readAt_flatten (source : List Nat) {target coords : List Nat} (h : Within target coords) :
    readAt source target (flatten target coords) = flatten source (restrict source coords) := by
  rw [readAt, coordinates_flatten h]

end Layout

/-! ## Buffers -/

namespace Buffer

open Layout (flatten restrict Within)

variable {α : Type} [Scalar α]

theorem getElem?_data {b : Buffer α} (hb : b.WellShaped) {k : Nat} (hk : k < b.shape.prod) :
    b.data[k]? = some (b.entry k) := by
  have hk' : k < b.data.size := hb ▸ hk
  rw [Array.getElem?_eq_getElem hk', entry_of_lt hk']

/-- Index arithmetic stays in the word, and there is room for the result. -/
theorem addressable_iff {a b t : List Nat} : Addressable a b t ↔ a = b ∨
    Extent.trailing a < Extent.wordLimit ∧ Extent.trailing b < Extent.wordLimit ∧
      Extent.leading t < Extent.wordLimit ∧ t.prod < Extent.allocationLimit := by
  rw [Addressable, Layout.steady_iff, Layout.steady_iff, Extent.saturated_lt_iff]

/-- At all coordinates of its shape, the buffer `c` has the function of what `a` and `b` have there:
without the coordinates that they lack, and at 0 along their dimensions of size 1. -/
structure Combines (f : α → α → α) (a b c : Buffer α) : Prop where
  joined : Shape.Joined a.shape b.shape c.shape
  full : c.WellShaped
  entry (coords : List Nat) : Within c.shape coords → ∃ x y,
    a.data[flatten a.shape (restrict a.shape coords)]? = some x ∧
    b.data[flatten b.shape (restrict b.shape coords)]? = some y ∧
    c.data[flatten c.shape coords]? = some (f x y)

theorem Tabulates.combines {a b c : Buffer α} {f : α → α → α} (ha : a.WellShaped)
    (hb : b.WellShaped) (hj : Shape.join a.shape b.shape = some c.shape)
    (hT : c.Tabulates c.shape fun k =>
      f (a.entry (Layout.readAt a.shape c.shape k)) (b.entry (Layout.readAt b.shape c.shape k))) :
    Combines f a b c := by
  obtain ⟨oa, ob⟩ := Layout.onto_of_join hj
  refine ⟨Shape.joined_of_join hj, hT.full, fun coords hin => ?_⟩
  have hk : flatten c.shape coords < c.shape.prod := Layout.flatten_lt hin
  refine ⟨a.entry (flatten a.shape (restrict a.shape coords)),
    b.entry (flatten b.shape (restrict b.shape coords)),
    getElem?_data ha (Layout.flatten_lt (Layout.within_restrict oa hin)),
    getElem?_data hb (Layout.flatten_lt (Layout.within_restrict ob hin)), ?_⟩
  rw [getElem?_data hT.full hk, hT.entry_eq _ hk, Layout.readAt_flatten _ hin,
    Layout.readAt_flatten _ hin]

/-- What broadcasting comes to. It is refused, as a mismatch of shapes, exactly if two dimensions
clash. Otherwise the result combines the operands, unless index arithmetic leaves the word, or the
result has no room: then, and only then, it breaks off. -/
theorem broadcasts (name : String) (f : α → α → α) {a b : Buffer α} (ha : a.WellShaped)
    (hb : b.WellShaped) :
    ((∃ reason, a.combine name b f = refuse reason) ↔ Shape.Clash a.shape b.shape) ∧
    (∀ reason, a.combine name b f = refuse reason →
      reason = .notBroadcastable name a.shape b.shape ∧ reason.kind = .shapeMismatch) ∧
    (¬Shape.Clash a.shape b.shape → ∃ t, Shape.Joined a.shape b.shape t ∧
      (Addressable a.shape b.shape t →
        ∃ c, a.combine name b f = .ok c ∧ c.shape = t ∧ Combines f a b c) ∧
      (¬Addressable a.shape b.shape t →
        a.combine name b f = crash .product ∨ a.combine name b f = crash .capacity)) := by
  cases hj : Shape.join a.shape b.shape with
  | none =>
    have hclash := Shape.join_eq_none_iff.1 hj
    have hc : a.combine name b f = refuse (.notBroadcastable name a.shape b.shape) := by
      simp only [combine, hj]
    refine ⟨iff_of_true ⟨_, hc⟩ hclash, fun reason h => ?_, fun h => absurd hclash h⟩
    obtain rfl := Outcome.refuse_inj.1 (hc.symm.trans h)
    exact ⟨rfl, rfl⟩
  | some t =>
    have hclash : ¬Shape.Clash a.shape b.shape := fun h => by
      rw [Shape.join_eq_none_iff.2 h] at hj
      cases hj
    have hadd : Addressable a.shape b.shape t →
        ∃ c, a.combine name b f = .ok c ∧ c.shape = t ∧ Combines f a b c := fun h => by
      obtain ⟨c, hc, hT⟩ := combine_eq ha hb hj h name f
      obtain rfl := hT.shape_eq
      exact ⟨c, hc, rfl, hT.combines ha hb hj⟩
    have hover : ¬Addressable a.shape b.shape t →
        a.combine name b f = crash .product ∨ a.combine name b f = crash .capacity :=
      fun h => (combine_crash hj h name f).imp_right And.right
    have hpass (reason : LibraryError) : a.combine name b f ≠ refuse reason := fun hr => by
      by_cases h : Addressable a.shape b.shape t
      · obtain ⟨c, hc, -⟩ := hadd h
        rw [hc] at hr
        cases hr
      · rcases hover h with hc | hc <;> rw [hc] at hr <;> cases hr
    exact ⟨iff_of_false (not_exists.2 hpass) hclash,
      fun reason h => absurd h (hpass reason), fun _ => ⟨t, Shape.joined_of_join hj, hadd, hover⟩⟩

/-- A column of two and a row of three make two rows of three. -/
theorem broadcasts_column :
    let _ := Elementary.plain ℚ
    let a : Buffer ℚ := ⟨[2, 1], #[1, 2]⟩
    let b : Buffer ℚ := ⟨[3], #[10, 20, 30]⟩
    a.WellShaped ∧ b.WellShaped ∧ ∃ c, a.combine "sub" b (· - ·) = .ok c ∧ c.shape = [2, 3] ∧
      Combines (· - ·) a b c ∧ c.data[4]? = some (2 - 20) := by
  let _ := Elementary.plain ℚ
  obtain ⟨-, -, h⟩ := broadcasts "sub" (· - ·) (a := (⟨[2, 1], #[1, 2]⟩ : Buffer ℚ))
    (b := ⟨[3], #[10, 20, 30]⟩) rfl rfl
  have hj : Shape.join [2, 1] [3] = some [2, 3] := by decide
  have hclash : ¬Shape.Clash [2, 1] [3] := fun hc =>
    nomatch hj.symm.trans (Shape.join_eq_none_iff.2 hc)
  obtain ⟨t, ht, h, -⟩ := h hclash
  obtain rfl := ht.eq hclash (Shape.joined_of_join hj)
  obtain ⟨c, hc, hs, hcomb⟩ := h (addressable_iff.2 (.inr (by decide)))
  obtain ⟨x, y, hx, hy, hxy⟩ := hcomb.entry [1, 1] (hs ▸ .cons (by decide) (.cons (by decide) .nil))
  rw [hs] at hxy
  cases hx
  cases hy
  exact ⟨rfl, rfl, c, hc, hs, hcomb, hxy⟩

end Buffer

end DiffTensor
