import Mathlib.Tactic.FieldSimp
import DiffTensor.Proofs.Exact

/-!
# Dual numbers

A dual number is a value together with a tangent, which says how fast the value changes. Run on
dual numbers, the operations of the library compute derivatives forwards, next to their values.

Of the exponential function nothing is known but that it is taken as its own derivative. This
makes `y * (1 - y)` the derivative of the logistic function (`logistic_eq`); that of the
positive part is 1 where the value is positive, and 0 elsewhere (`positivePart_eq`).
-/

namespace DiffTensor

/-- A value and its tangent. -/
@[ext]
structure Dual (α : Type) where
  value : α
  tangent : α
  deriving DecidableEq, Repr

namespace Dual

instance {α : Type} [Scalar α] : Scalar (Dual α) where
  add x y := ⟨x.value + y.value, x.tangent + y.tangent⟩
  sub x y := ⟨x.value - y.value, x.tangent - y.tangent⟩
  mul x y := ⟨x.value * y.value, x.tangent * y.value + x.value * y.tangent⟩
  div x y := ⟨x.value / y.value, (x.tangent - x.value / y.value * y.tangent) / y.value⟩
  neg x := ⟨-x.value, -x.tangent⟩
  zero := ⟨0, 0⟩
  one := ⟨1, 0⟩
  sumStart := ⟨Scalar.sumStart, 0⟩
  ofNat n := ⟨Scalar.ofNat n, 0⟩
  exp x := ⟨Scalar.exp x.value, x.tangent * Scalar.exp x.value⟩
  sqrt x := ⟨Scalar.sqrt x.value, x.tangent / (Scalar.sqrt x.value + Scalar.sqrt x.value)⟩
  less x y := Scalar.less x.value y.value
  same x y := Scalar.same x.value y.value
  finite x := Scalar.finite x.value
  text x := Scalar.text x.value

variable {K : Type} [Field K] [LinearOrder K] [Elementary K] {x y : Dual K}

theorem add_eq : x + y = ⟨x.value + y.value, x.tangent + y.tangent⟩ := rfl

theorem sub_eq : x - y = ⟨x.value - y.value, x.tangent - y.tangent⟩ := rfl

theorem mul_eq : x * y = ⟨x.value * y.value, x.tangent * y.value + x.value * y.tangent⟩ := rfl

theorem zero_eq : (0 : Dual K) = ⟨0, 0⟩ := rfl

/-- The derivative of the logistic function is `y * (1 - y)` where its value is `y`. -/
theorem logistic_eq (v t : K) : Scalar.logistic (⟨v, t⟩ : Dual K) =
    ⟨Scalar.logistic v, t * Scalar.logistic v * (1 - Scalar.logistic v)⟩ := by
  have h : Scalar.logistic (⟨v, t⟩ : Dual K) = ⟨Scalar.logistic v,
      ((0 : K) - Scalar.logistic v * (0 + -t * Elementary.exp (-v))) /
        (1 + Elementary.exp (-v))⟩ := rfl
  rw [h, Dual.mk.injEq]
  refine ⟨rfl, ?_⟩
  have hy : Scalar.logistic v = 1 / (1 + Elementary.exp (-v)) := rfl
  rw [hy]
  by_cases hd : 1 + Elementary.exp (-v) = 0
  · simp [hd]
  · field_simp
    ring

/-- The derivative of the positive part is 1 at positive values, and 0 elsewhere. -/
theorem positivePart_eq (v t : K) : Scalar.positivePart (⟨v, t⟩ : Dual K) =
    ⟨Scalar.positivePart v, if Scalar.positive v then t else 0⟩ := by
  have h : Scalar.positivePart (⟨v, t⟩ : Dual K) = if Scalar.positive v then ⟨v, t⟩ else 0 := rfl
  rw [h, Scalar.positivePart]
  split <;> rfl

theorem foldl_add (l : List (Dual K)) (z : Dual K) : l.foldl (· + ·) z =
    ⟨z.value + (l.map (·.value)).sum, z.tangent + (l.map (·.tangent)).sum⟩ := by
  induction l generalizing z with
  | nil => simp
  | cons w l ih =>
    rw [List.foldl_cons, ih, add_eq]
    simp [add_assoc]

open Finset in
theorem foldl_range (n : Nat) (f : Nat → Dual K) :
    (List.range n).foldl (fun sum k => sum + f k) 0 =
      ⟨∑ k ∈ range n, (f k).value, ∑ k ∈ range n, (f k).tangent⟩ := by
  have h := foldl_add ((List.range n).map f) 0
  rw [List.foldl_map, zero_eq, zero_add, zero_add, List.map_map, List.map_map] at h
  exact h

end Dual

namespace Buffer

section Duals

variable {α : Type} [Scalar α]

/-- A buffer with a tangent for each element. -/
def dual (b tangent : Buffer α) : Buffer (Dual α) :=
  ⟨b.shape, Array.ofFn fun k : Fin b.shape.prod => ⟨b.entry k, tangent.entry k⟩⟩

/-- The tangents of a buffer. -/
def tangents (b : Buffer (Dual α)) : Buffer α := ⟨b.shape, b.data.map (·.tangent)⟩

theorem tabulates_dual (b tangent : Buffer α) :
    (b.dual tangent).Tabulates b.shape fun k => ⟨b.entry k, tangent.entry k⟩ :=
  tabulates_ofFn rfl fun k => (⟨b.entry k, tangent.entry k⟩ : Dual α)

theorem Sound.dual {b : Buffer α} (h : b.Sound) (tangent : Buffer α) : (b.dual tangent).Sound :=
  (tabulates_dual b tangent).sound h.proper

theorem entry_tangents (b : Buffer (Dual α)) (k : Nat) :
    b.tangents.entry k = (b.entry k).tangent := by
  by_cases hk : k < b.data.size
  · rw [entry_of_lt hk, entry_of_lt (by simpa [Buffer.tangents] using hk)]
    simp [Buffer.tangents]
  · have hk := Nat.not_lt.1 hk
    rw [entry_of_le hk, entry_of_le (by simpa [Buffer.tangents] using hk)]
    rfl

theorem Tabulates.tangents {b : Buffer (Dual α)} {shape : List Nat} {f : Nat → Dual α}
    (h : b.Tabulates shape f) : b.tangents.Tabulates shape fun k => (f k).tangent := by
  refine ⟨h.shape_eq, by simpa [WellShaped, Buffer.tangents] using h.full, fun k hk => ?_⟩
  rw [entry_tangents, h.entry_eq k hk]

end Duals

variable {K : Type} [Field K] [LinearOrder K] [Elementary K]

open Finset

theorem sum_dual {b : Buffer (Dual K)} {shape : List Nat} {f : Nat → Dual K}
    (h : b.Tabulates shape f) :
    b.sum = ⟨∑ k ∈ range shape.prod, (f k).value, ∑ k ∈ range shape.prod, (f k).tangent⟩ := by
  have hs : b.data.size = shape.prod := h.shape_eq ▸ h.full
  have hl : b.data.toList = (List.range shape.prod).map f := by
    refine List.ext_getElem (by simp [hs]) fun k h1 h2 => ?_
    rw [Array.length_toList] at h1
    rw [Array.getElem_toList, ← entry_of_lt h1, h.entry_eq k (hs ▸ h1)]
    simp
  have h0 : (Scalar.sumStart : Dual K) = ⟨0, 0⟩ := rfl
  unfold sum
  rw [← Array.foldl_toList, Dual.foldl_add, hl, h0, zero_add, zero_add, List.map_map,
    List.map_map]
  rfl

/-- An entry of a product of dual matrices: the product rule. -/
theorem productEntry_dual {a b : Buffer (Dual K)} {inner cols i j : Nat}
    {u v : Nat → Dual K} (ha : ∀ l < inner, a.entry (i * inner + l) = u l)
    (hb : ∀ l < inner, b.entry (l * cols + j) = v l) :
    productEntry a b inner cols i j =
      ⟨∑ l ∈ range inner, (u l).value * (v l).value,
        ∑ l ∈ range inner, ((u l).tangent * (v l).value + (u l).value * (v l).tangent)⟩ := by
  unfold productEntry
  rw [Dual.foldl_range, Dual.mk.injEq]
  constructor <;> refine sum_congr rfl fun l hl => ?_ <;>
    rw [ha l (mem_range.1 hl), hb l (mem_range.1 hl), Dual.mul_eq]

end Buffer

end DiffTensor
