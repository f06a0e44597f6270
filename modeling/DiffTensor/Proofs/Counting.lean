import DiffTensor.Proofs.Checks
import DiffTensor.Proofs.Extent

/-!
# When elements are counted

The host counts elements as a library does, and both accept what can be counted: a list of
dimensions of which those in front of the first zero multiply to a word. Without zeros the count is
the exact product whenever that fits, in any order of the dimensions; with zeros it depends on
their place (`element_counts`).
-/

namespace DiffTensor

/-- The host takes dimensions that can be counted. -/
theorem Dims.checked_ofNat_iff (dims : List Nat) :
    Dims.checked (dims.map Int.ofNat) = .ok () ↔ Extent.leading dims < Extent.wordLimit := by
  have hn : nonNegative (dims.map Int.ofNat) = .ok () := by
    have hf : (dims.map Int.ofNat).find? (· < 0) = none := by simp
    rw [nonNegative, hf]
  have hc : (count (dims.map Int.ofNat)).isNone ↔ ¬Extent.leading dims < Extent.wordLimit := by
    rw [count_eq_checked, toNat_ofNat, Option.isNone_iff_eq_none, Extent.checked_eq_none_iff,
      Nat.not_lt]
  rw [checked, hn]
  by_cases h : (count (dims.map Int.ofNat)).isNone
  · simp only [h, if_true]
    refine iff_of_false (fun he => ?_) (hc.1 h)
    cases he
  · simp only [h, Bool.false_eq_true, if_false]
    exact iff_of_true rfl (Decidable.not_not.1 fun hlt => h (hc.2 hlt))

namespace Engine

open Host (Tensor)

/-- So does a library. -/
theorem readShape_ofNat_iff (dims : List Nat) :
    readShape (Tensor.passed (dims.map Int.ofNat)) (dims.map Int.ofNat).length = .ok dims ↔
      Extent.leading dims < Extent.wordLimit := by
  rw [← Dims.checked_ofNat_iff]
  rcases readShape_passed (dims.map Int.ofNat) with ⟨hc, hr⟩ | ⟨reason, cause, hc, hr, -⟩
  · exact iff_of_true (hr.trans (congrArg _ (Dims.toNat_ofNat dims))) hc
  · rw [hc, hr]
    exact iff_of_false nofun nofun

variable {α : Type} [Scalar α] [Sampler α]

/-- A shape is filled if there is room for its elements. -/
theorem exists_filledBuffer_iff (filling : Filling) (shape : List Nat) (stream : Stream) :
    (∃ made, filledBuffer (α := α) filling shape stream = .ok made) ↔
      Extent.saturated shape < Extent.allocationLimit := by
  have hfull (value : α) : (∃ b, Buffer.full shape value = .ok b) ↔
      Extent.saturated shape < Extent.allocationLimit := by
    unfold Buffer.full
    split <;> simp_all
  cases filling with
  | zeros => simpa [filledBuffer, Buffer.zeros, Outcome.bind_eq_ok_iff] using hfull 0
  | ones => simpa [filledBuffer, Outcome.bind_eq_ok_iff] using hfull 1
  | normal =>
    constructor
    · rintro ⟨made, h⟩
      by_contra hr
      simp only [filledBuffer, Sampler.normals, Sampler.fill, if_pos (Nat.not_lt.1 hr)] at h
      cases h
    · intro hr
      have hd (s : Stream) : Outcome.Yields (.ok (Sampler.normal (α := α) s)) (fun _ => False)
          fun _ => True := Outcome.yields_ok trivial
      rcases Sampler.yields_fill_of_room hd hr stream with ⟨made, h, -⟩ | ⟨_, -, h⟩
      · exact ⟨made, h⟩
      · exact h.elim

/-- A library makes a filled tensor if it can count its elements, and they are not too many. -/
theorem status_answer_filled_iff (e : Engine α) (filling : Filling) (dims : List Nat) :
    (e.answer (.create (.filled filling (Tensor.passed (dims.map Int.ofNat))
      (dims.map Int.ofNat).length) true)).1.status = some .success ↔
      Extent.leading dims < Extent.wordLimit ∧ dims.prod < Extent.allocationLimit := by
  rw [status_answer_create_iff, ← Extent.saturated_lt_iff,
    ← exists_filledBuffer_iff (α := α) filling dims e.stream]
  rcases readShape_passed (dims.map Int.ofNat) with ⟨-, hr⟩ | ⟨_, _, hc, hr, -⟩
  · rw [Dims.toNat_ofNat] at hr
    simp only [build, hr, Outcome.ok_bind]
    cases filledBuffer (α := α) filling dims e.stream with
    | ok made => exact iff_of_true ⟨_, rfl⟩ ⟨_, rfl⟩
    | error cause =>
      refine iff_of_false ?_ ?_
      · rintro ⟨_, h⟩
        cases h
      · rintro ⟨_, h⟩
        cases h
  · -- What cannot be counted has no room either.
    have hlead : ¬Extent.leading dims < Extent.wordLimit := fun h => by
      rw [(Dims.checked_ofNat_iff dims).2 h] at hc
      cases hc
    refine iff_of_false ?_ fun h => ?_
    · rintro ⟨new, h⟩
      simp only [build, hr, Outcome.refuse_bind] at h
      cases h
    · rw [exists_filledBuffer_iff, Extent.saturated_lt_iff] at h
      exact hlead h.1

end Engine

/-- What a list of dimensions is counted as, on the host and in a library, and which shapes are
accepted for it. A count is the exact product; there is one whenever the dimensions in front of the
first zero have a product in the word. Without zeros these are all dimensions, in any order; with a
zero there is always an order in which they are counted. -/
theorem element_counts {α : Type} [Scalar α] [Sampler α] (dims : List Nat) :
    Dims.count (dims.map Int.ofNat) = Extent.checked dims ∧
    (∀ n, Extent.checked dims = some n ↔
      Extent.leading dims < Extent.wordLimit ∧ n = dims.prod) ∧
    (Extent.checked dims = none ↔ Extent.wordLimit ≤ Extent.leading dims) ∧
    (0 ∉ dims → Extent.leading dims = dims.prod ∧
      ∀ dims', dims.Perm dims' → Extent.checked dims' = Extent.checked dims) ∧
    (0 ∈ dims → ∃ dims', dims.Perm dims' ∧ Extent.checked dims' = some 0) ∧
    (Dims.checked (dims.map Int.ofNat) = .ok () ↔ Extent.leading dims < Extent.wordLimit) ∧
    (Engine.readShape (Host.Tensor.passed (dims.map Int.ofNat)) (dims.map Int.ofNat).length =
      .ok dims ↔ Extent.leading dims < Extent.wordLimit) ∧
    ∀ (e : Engine α) (filling : Filling),
      (e.answer (.create (.filled filling (Host.Tensor.passed (dims.map Int.ofNat))
        (dims.map Int.ofNat).length) true)).1.status = some .success ↔
        Extent.leading dims < Extent.wordLimit ∧ dims.prod < Extent.allocationLimit := by
  refine ⟨?_, fun n => Extent.checked_eq_some_iff, Extent.checked_eq_none_iff, fun h0 => ?_,
    Extent.exists_perm_checked, Dims.checked_ofNat_iff dims, Engine.readShape_ofNat_iff dims,
    fun e filling => e.status_answer_filled_iff filling dims⟩
  · rw [Dims.count_eq_checked, Dims.toNat_ofNat]
  · exact ⟨Extent.leading_eq_prod h0, fun dims' hp => Extent.checked_perm hp h0⟩

/-- With a zero the order matters: no elements, but only where the zero comes early enough are they
counted, and taken. -/
theorem element_counts_late_zero :
    [1099511627776, 1099511627776, 0].prod = 0 ∧
    Extent.checked [1099511627776, 1099511627776, 0] = none ∧
    Dims.count [1099511627776, 1099511627776, 0] = none ∧
    Extent.checked [0, 1099511627776, 1099511627776] = some 0 ∧
    Dims.count [0, 1099511627776, 1099511627776] = some 0 ∧
    Dims.checked [1099511627776, 1099511627776, 0] ≠ .ok () ∧
    Dims.checked [0, 1099511627776, 1099511627776] = .ok () := by
  refine ⟨rfl, by decide, by decide, by decide, by decide, ?_, ?_⟩
  · exact mt (Dims.checked_ofNat_iff [1099511627776, 1099511627776, 0]).1 (by decide)
  · exact (Dims.checked_ofNat_iff [0, 1099511627776, 1099511627776]).2 (by decide)

end DiffTensor
