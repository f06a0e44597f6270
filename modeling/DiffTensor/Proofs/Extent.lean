import Mathlib.Algebra.BigOperators.Ring.List
import Mathlib.Data.List.TakeWhile
import DiffTensor.Proofs.Layout

/-!
# Partial products

The product of dimensions is taken one factor at a time, and the first partial product that leaves
the word ends it. From then on no dimension is looked at, not even a zero, so it is the dimensions
in front of the first zero that decide: their product (`leading`) has to fit
(`checked_eq_some_iff`). Strides are multiplied up from the other end, and what decides there are
the dimensions behind the last zero (`trailing`, `Layout.steady_iff`).
-/

namespace DiffTensor

namespace Extent

/-- The product of the dimensions in front of the first zero. -/
def leading (dims : List Nat) : Nat := (dims.takeWhile (· ≠ 0)).prod

/-- The product of the dimensions behind the last zero. -/
def trailing (dims : List Nat) : Nat := leading dims.reverse

@[simp] theorem leading_nil : leading [] = 1 := rfl

@[simp] theorem leading_zero (dims : List Nat) : leading (0 :: dims) = 1 := rfl

theorem leading_cons {d : Nat} (hd : d ≠ 0) (dims : List Nat) :
    leading (d :: dims) = d * leading dims := by
  simp [leading, hd]

theorem leading_pos : ∀ dims : List Nat, 0 < leading dims
  | [] => Nat.one_pos
  | d :: dims => by
    rcases Nat.eq_zero_or_pos d with rfl | hd
    · exact Nat.one_pos
    · rw [leading_cons hd.ne']
      exact Nat.mul_pos hd (leading_pos dims)

/-- Without zeros everything is in front. -/
theorem leading_append_of_notMem {init : List Nat} (h : 0 ∉ init) (dims : List Nat) :
    leading (init ++ dims) = init.prod * leading dims := by
  have hpos : ∀ d ∈ init, decide (d ≠ 0) = true := fun d hd =>
    decide_eq_true fun h0 => h (h0 ▸ hd)
  rw [leading, List.takeWhile_append_of_pos hpos, List.prod_append, leading]

theorem leading_eq_prod {dims : List Nat} (h : 0 ∉ dims) : leading dims = dims.prod := by
  simpa using leading_append_of_notMem h []

/-- What stands behind a zero does not matter. -/
theorem leading_append {init : List Nat} (h : 0 ∈ init) (dims : List Nat) :
    leading (init ++ dims) = leading init := by
  induction init with
  | nil => cases h
  | cons d init ih =>
    rcases Nat.eq_zero_or_pos d with rfl | hd
    · rfl
    · have hin : 0 ∈ init := (List.mem_cons.1 h).resolve_left hd.ne
      rw [List.cons_append, leading_cons hd.ne', leading_cons hd.ne', ih hin]

/-- There is no more in front than there are dimensions that are not zero. -/
theorem leading_le_filter_prod : ∀ dims : List Nat,
    leading dims ≤ (dims.filter (· ≠ 0)).prod
  | [] => Nat.le_refl _
  | d :: dims => by
    rcases Nat.eq_zero_or_pos d with rfl | hd
    · exact Nat.pos_of_ne_zero fun h0 => by simpa using List.prod_eq_zero_iff.1 h0
    · rw [leading_cons hd.ne', List.filter_cons_of_pos (by simpa using hd.ne'), List.prod_cons]
      exact Nat.mul_le_mul_left d (leading_le_filter_prod dims)

/-! ## Counted from the left -/

/-- Once the count is zero it stays zero. -/
theorem checkedFrom_zero : ∀ dims : List Nat, checkedFrom 0 dims = some 0
  | [] => rfl
  | d :: dims => by
    rw [checkedFrom, Nat.zero_mul, if_pos (by decide), checkedFrom_zero dims]

theorem checkedFrom_eq_some_iff : ∀ {n k : Nat} {dims : List Nat}, 0 < n → n < wordLimit →
    (checkedFrom n dims = some k ↔ n * leading dims < wordLimit ∧ k = n * dims.prod)
  | n, k, [], _, hn => by
    simp [checkedFrom, hn, eq_comm]
  | n, k, d :: dims, hpos, hn => by
    rcases Nat.eq_zero_or_pos d with rfl | hd
    · rw [checkedFrom, Nat.mul_zero, if_pos (by decide), checkedFrom_zero]
      simp [hn, eq_comm]
    · rw [checkedFrom, leading_cons hd.ne', List.prod_cons, ← Nat.mul_assoc, ← Nat.mul_assoc]
      by_cases hw : n * d < wordLimit
      · rw [if_pos hw, checkedFrom_eq_some_iff (Nat.mul_pos hpos hd) hw]
      · rw [if_neg hw]
        have hle : n * d ≤ n * d * leading dims := Nat.le_mul_of_pos_right _ (leading_pos dims)
        exact iff_of_false (Option.some_ne_none k).symm fun h => hw (Nat.lt_of_le_of_lt hle h.1)

/-- A count is the exact product, and there is one if the dimensions in front of the first zero
fit. -/
theorem checked_eq_some_iff {dims : List Nat} {n : Nat} :
    checked dims = some n ↔ leading dims < wordLimit ∧ n = dims.prod := by
  rw [checked, checkedFrom_eq_some_iff Nat.one_pos (by decide), Nat.one_mul, Nat.one_mul]

theorem checked_eq_none_iff {dims : List Nat} :
    checked dims = none ↔ wordLimit ≤ leading dims := by
  rw [← Nat.not_lt, Option.eq_none_iff_forall_ne_some]
  refine ⟨fun h hlt => h _ (checked_eq_some_iff.2 ⟨hlt, rfl⟩), fun h n hn => ?_⟩
  exact h (checked_eq_some_iff.1 hn).1

theorem saturated_of_checked {dims : List Nat} {n : Nat} (h : checked dims = some n) :
    saturated dims = n := by
  rw [saturated, h]
  rfl

theorem checked_single {n : Nat} (h : n < wordLimit) : checked [n] = some n := by
  rw [checked, checkedFrom, Nat.one_mul, if_pos h]
  rfl

theorem checked_pair {m n : Nat} (h : m * n < wordLimit) (hn : n ≠ 0) :
    checked [m, n] = some (m * n) := by
  have hle : m ≤ m * n := Nat.le_mul_of_pos_right _ (Nat.pos_of_ne_zero hn)
  rw [checked, checkedFrom, Nat.one_mul, if_pos (Nat.lt_of_le_of_lt hle h), checkedFrom, if_pos h]
  rfl

/-- There is room for the elements of a shape if they are counted and not too many. -/
theorem saturated_lt_iff {dims : List Nat} :
    saturated dims < allocationLimit ↔ leading dims < wordLimit ∧ dims.prod < allocationLimit := by
  cases hc : checked dims with
  | none =>
    have hlead := checked_eq_none_iff.1 hc
    simp only [saturated, hc, Option.getD_none, Nat.not_lt.2 hlead, false_and, iff_false]
    decide
  | some n =>
    obtain ⟨hlead, rfl⟩ := checked_eq_some_iff.1 hc
    simp only [saturated, hc, Option.getD_some, hlead, true_and]

/-- Without zeros the order of the dimensions does not matter. -/
theorem checked_perm {dims dims' : List Nat} (h : dims.Perm dims') (h0 : 0 ∉ dims) :
    checked dims' = checked dims := by
  have h0' : 0 ∉ dims' := fun hm => h0 (h.mem_iff.2 hm)
  refine Option.ext fun n => ?_
  rw [checked_eq_some_iff, checked_eq_some_iff, leading_eq_prod h0, leading_eq_prod h0', h.prod_eq]

/-- A zero in front is always counted. -/
theorem exists_perm_checked {dims : List Nat} (h : 0 ∈ dims) :
    ∃ dims', dims.Perm dims' ∧ checked dims' = some 0 :=
  ⟨0 :: dims.erase 0, List.perm_cons_erase h, by simp [checked, checkedFrom, checkedFrom_zero,
    show 0 < wordLimit by decide]⟩

end Extent

/-! ## Multiplied up from the right -/

namespace Layout

theorem steady_cons {d : Nat} {dims : List Nat} :
    Steady (d :: dims) ↔ Steady dims ∧ dims.prod * d < Extent.wordLimit := by
  rcases strides_cases dims with ⟨h, -⟩ | h
  · have hs : strides dims = .ok (steps dims, dims.prod) := h
    by_cases hw : dims.prod * d < Extent.wordLimit
    · simp [Steady, strides, hs, hw, steps, List.prod_cons, Nat.mul_comm d]
    · simp [Steady, strides, hs, hw]
  · simp [Steady, strides, h]

/-- Strides are multiplied up from the last dimension to the last zero. -/
theorem steady_iff : ∀ {dims : List Nat},
    Steady dims ↔ Extent.trailing dims < Extent.wordLimit
  | [] => iff_of_true rfl (by decide)
  | d :: dims => by
    rw [steady_cons, steady_iff, Extent.trailing, Extent.trailing, List.reverse_cons]
    by_cases h0 : 0 ∈ dims
    · rw [Extent.leading_append (List.mem_reverse.2 h0), List.prod_eq_zero h0, Nat.zero_mul]
      exact and_iff_left (by decide)
    · have hrev : 0 ∉ dims.reverse := fun h => h0 (List.mem_reverse.1 h)
      rw [Extent.leading_append_of_notMem hrev, Extent.leading_eq_prod hrev, List.prod_reverse]
      rcases Nat.eq_zero_or_pos d with rfl | hd
      · rw [Nat.mul_zero, Extent.leading_zero, Nat.mul_one]
        exact and_iff_left (by decide)
      · rw [Extent.leading_cons hd.ne', Extent.leading_nil, Nat.mul_one]
        exact and_iff_right_of_imp (Nat.lt_of_le_of_lt (Nat.le_mul_of_pos_right _ hd))

end Layout

end DiffTensor
