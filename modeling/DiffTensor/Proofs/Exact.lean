import Mathlib.Algebra.BigOperators.Ring.Finset
import Mathlib.Algebra.Field.Basic
import Mathlib.Data.Finset.Sigma
import Mathlib.Order.Defs.LinearOrder
import Mathlib.Tactic.Ring
import DiffTensor.Proofs.Sweep

/-!
# Exact arithmetic

The same definitions that run on doubles, read in an ordered field (`Scalar.exact`). The
exponential function, the square root and the wording of numbers in messages are arbitrary
(`Elementary`). Here it does not matter in which order numbers are added up, so folds become
sums.
-/

namespace DiffTensor

/-- Functions on numbers that no field comes with. -/
class Elementary (K : Type) where
  exp : K → K
  sqrt : K → K
  text : K → String

/-- Numbers on which these functions do nothing. -/
abbrev Elementary.plain (K : Type) : Elementary K := ⟨id, id, fun _ => ""⟩

/-- Numbers of an ordered field. -/
instance (priority := low) Scalar.exact {K : Type} [Field K] [LinearOrder K] [Elementary K] :
    Scalar K where
  sumStart := 0
  ofNat := Nat.cast
  exp := Elementary.exp
  sqrt := Elementary.sqrt
  less x y := decide (x < y)
  same x y := decide (x = y)
  finite _ := true
  text := Elementary.text

variable {K : Type} [Field K] [LinearOrder K] [Elementary K]

open Finset

/-! ## Folds as sums -/

theorem foldl_add_eq (l : List K) (x : K) : l.foldl (· + ·) x = x + l.sum := by
  induction l generalizing x with
  | nil => simp
  | cons y l ih => rw [List.foldl_cons, ih, List.sum_cons, add_assoc]

theorem foldl_range (n : Nat) (f : Nat → K) :
    (List.range n).foldl (fun sum k => sum + f k) 0 = ∑ k ∈ range n, f k := by
  have h := foldl_add_eq ((List.range n).map f) 0
  rw [List.foldl_map, zero_add] at h
  exact h

theorem sum_filter_map {β : Type} (p : β → Bool) (f : β → K) (l : List β) :
    ((l.filter p).map f).sum = (l.map fun x => if p x then f x else 0).sum := by
  induction l with
  | nil => simp
  | cons x l ih => cases h : p x <;> simp [h, ih]

/-- Positions of a matrix, row by row. -/
theorem sum_matrix {M : Type} [AddCommMonoid M] (rows cols : Nat) (f : Nat → Nat → M) :
    ∑ k ∈ range (rows * cols), f (k / cols) (k % cols) =
      ∑ i ∈ range rows, ∑ j ∈ range cols, f i j := by
  induction rows with
  | zero => simp
  | succ rows ih =>
    rw [Nat.succ_mul, sum_range_add, ih, sum_range_succ]
    refine congrArg _ (sum_congr rfl fun j hj => ?_)
    rw [mem_range] at hj
    rw [Buffer.position_div hj, Buffer.position_mod hj]

namespace Buffer

theorem sum_eq {b : Buffer K} (hb : b.WellShaped) :
    b.sum = ∑ k ∈ range b.shape.prod, b.entry k := by
  unfold sum
  rw [← Array.foldl_toList, foldl_add_eq, toList_eq hb]
  exact zero_add _

theorem productEntry_eq (a b : Buffer K) (inner cols i j : Nat) :
    productEntry a b inner cols i j =
      ∑ l ∈ range inner, a.entry (i * inner + l) * b.entry (l * cols + j) :=
  foldl_range inner _

theorem reduceByAdding_sum {b : Buffer K} {shape : List Nat} (hb : b.WellShaped)
    (ho : Layout.Onto shape b.shape) (h : Addable shape b.shape) :
    ∃ c, b.reduceByAdding shape = .ok c ∧ c.Tabulates shape fun j =>
      ∑ k ∈ range b.shape.prod with Layout.readAt shape b.shape k = j, b.entry k := by
  obtain ⟨c, hc, hT⟩ := reduceByAdding_eq hb ho h
  refine ⟨c, hc, hT.congr fun j _ => ?_⟩
  rw [foldl_add_eq, zero_add, readersOf]
  simp only [Finset.sum, filter_val, range_val, Multiset.range]
  rw [Multiset.filter_coe, Multiset.map_coe, Multiset.sum_coe]

/-- Read through its own shape, each element is read once. -/
theorem tabulates_self_sum {b : Buffer K} (hb : b.WellShaped) :
    b.Tabulates b.shape fun j =>
      ∑ k ∈ range b.shape.prod with Layout.readAt b.shape b.shape k = j, b.entry k := by
  refine (tabulates_self hb).congr fun j hj => ?_
  rw [sum_filter, sum_congr rfl fun k hk =>
    if_congr (by rw [Layout.readAt_self (mem_range.1 hk)]) rfl rfl, sum_ite_eq' _ j,
    if_pos (mem_range.2 hj)]

/-- Each element of a sum over broadcasting is the sum of what was read from it. -/
theorem exists_reduce_sum {b : Buffer K} {shape : List Nat} (hb : b.WellShaped)
    (ho : Layout.Onto shape b.shape) (h : Reducible shape b.shape) :
    ∃ c, b.reduce shape = .ok c ∧ c.Tabulates shape fun j =>
      ∑ k ∈ range b.shape.prod with Layout.readAt shape b.shape k = j, b.entry k := by
  by_cases he : b.shape = shape
  · subst he
    exact ⟨b, reduce_self rfl, tabulates_self_sum hb⟩
  · rw [reduce_of_ne he]
    exact reduceByAdding_sum hb ho (h.resolve_left (Ne.symm he))

theorem reduce_sum {b c : Buffer K} {shape : List Nat} (hb : b.Sound)
    (hs : Extent.Proper shape) (ho : Layout.Onto shape b.shape) (h : b.reduce shape = .ok c) :
    c.Tabulates shape fun j =>
      ∑ k ∈ range b.shape.prod with Layout.readAt shape b.shape k = j, b.entry k := by
  rcases reduce_eq_or hs ho with hc | he
  · have hr : Reducible shape b.shape :=
      hc.imp Eq.symm fun st => ⟨st, hs.saturated_lt, hb.proper.saturated_lt⟩
    obtain ⟨c', hc', hT⟩ := exists_reduce_sum hb.full ho hr
    obtain rfl : c' = c := Except.ok.inj (hc'.symm.trans h)
    exact hT
  · rw [he] at h
    cases h

/-- Sums of buffers are sums of their elements, also past the end. -/
theorem entry_plus {a b : Buffer K} {shape : List Nat} (ha : a.Shaped shape)
    (hb : b.Shaped shape) (k : Nat) : (a.plus b).entry k = a.entry k + b.entry k := by
  have hT := tabulates_plus ha.1 hb.1 (ha.2.trans hb.2.symm)
  by_cases hk : k < a.shape.prod
  · exact hT.entry_eq k hk
  · have hk := Nat.not_lt.1 hk
    rw [entry_of_prod_le hT.full (hT.shape_eq ▸ hk), entry_of_prod_le ha.1 hk,
      entry_of_prod_le hb.1 (by rwa [hb.2, ← ha.2]), add_zero]

end Buffer

/-- On what has been collected, an additive function is the sum of its values on what was sent. -/
theorem map_collect {shape : List Nat} {f : Buffer K → K}
    (hf : ∀ a b : Buffer K, a.Shaped shape → b.Shaped shape → f (a.plus b) = f a + f b) :
    ∀ (buffers : List (Buffer K)) {start : Option (Buffer K)} {g : Buffer K},
    (∀ b ∈ buffers, b.Shaped shape) → (∀ b, start = some b → b.Shaped shape) →
    collect start buffers = some g → f g = start.elim 0 f + (buffers.map f).sum
  | [], start, g, _, _, h => by
    simp only [collect, List.foldl_nil] at h
    simp [h]
  | b :: rest, start, g, hb, hs, h => by
    have hbs : b.Shaped shape := hb b (by simp)
    have ih := map_collect hf rest (fun c hc => hb c (by simp [hc]))
      (fun c hc => Option.some.inj hc ▸ Store.shaped_gather hs hbs) h
    rw [ih, List.map_cons, List.sum_cons, ← add_assoc]
    congr 1
    cases start with
    | none => simp [Store.gather]
    | some held => exact hf held b (hs held rfl) hbs

end DiffTensor
