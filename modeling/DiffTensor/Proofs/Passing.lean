import DiffTensor.Proofs.HostCalls

/-!
# Arguments as they arrive

The host passes lists as a pointer and a count. A library reads from them what the host has put
there, and checks dimensions as the host has done.
-/

namespace DiffTensor

open Host (Tensor)

variable {α : Type}

namespace Engine

/-- Dimensions are read as the host checks them. -/
theorem readShape_passed (dims : List Int) :
    (Dims.checked dims = .ok () ∧
      readShape (Tensor.passed dims) dims.length = .ok (dims.map Int.toNat)) ∨
    ∃ reason cause, Dims.checked dims = .error (.configuration reason) ∧
      readShape (Tensor.passed dims) dims.length = refuse cause ∧
      cause.kind = .invalidArgument := by
  cases dims with
  | nil => exact .inl ⟨rfl, rfl⟩
  | cons d ds =>
    have hp : Tensor.passed (d :: ds) = some (d :: ds) := rfl
    have hl : (d :: ds).length ≠ 0 := nofun
    rw [hp, readShape, if_neg hl]
    cases hf : (d :: ds).find? (· < 0) with
    | some dim =>
      simp only [List.take_length, Dims.checked, Dims.nonNegative, hf]
      exact .inr ⟨_, _, rfl, rfl, rfl⟩
    | none =>
      cases hc : Extent.checked ((d :: ds).map Int.toNat) with
      | none =>
        simp only [List.take_length, Dims.checked, Dims.nonNegative, Dims.count_eq_checked, hf, hc]
        exact .inr ⟨_, _, rfl, rfl, rfl⟩
      | some count =>
        simp only [List.take_length, Dims.checked, Dims.nonNegative, Dims.count_eq_checked, hf, hc]
        exact .inl ⟨rfl, trivial⟩

theorem readShape_of_checked {dims : List Int} (h : Dims.checked dims = .ok ()) :
    readShape (Tensor.passed dims) dims.length = .ok (dims.map Int.toNat) := by
  rcases readShape_passed dims with ⟨-, hr⟩ | ⟨_, _, hc, -⟩
  · exact hr
  · rw [h] at hc
    cases hc

theorem readData_passed (values : List α) :
    readData (if values.isEmpty then none else some values) values.length = .ok values := by
  cases values with
  | nil => rfl
  | cons x xs => exact congrArg Except.ok (List.take_length ..)

theorem readParameters_passed (e : Engine α) (handles : List Handle) :
    e.readParameters (some (handles.map some)) handles.length =
      (handles.map some).mapM e.tensor := by
  cases handles with
  | nil => rfl
  | cons h handles =>
    have hl : (h :: handles).length ≠ 0 := nofun
    have ht : ((h :: handles).map some).take (h :: handles).length = (h :: handles).map some :=
      List.take_of_length_le (Nat.le_of_eq (List.length_map _))
    simp only [readParameters, if_neg hl, ht]

end Engine

/-- Values are taken in dimensions that can be counted. -/
theorem Host.Tensor.shapeOfValues_eq {count : Nat} (hn : count < Extent.allocationLimit)
    {dims : Option (List Int)} {shape : List Int} (h : shapeOfValues count dims = .ok shape) :
    shape = dims.getD [(count : Int)] ∧ Dims.checked shape = .ok () ∧
      Dims.count shape = some count := by
  unfold shapeOfValues at h
  split at h
  · cases h
    have hc : Dims.count [(count : Int)] = some count := by
      have hlt : count < Extent.wordLimit := Nat.lt_trans hn (by decide)
      simp [Dims.count, Dims.countFrom, hlt]
    have hnn : Dims.nonNegative [(count : Int)] = .ok () := by
      simp [Dims.nonNegative]
    refine ⟨rfl, ?_, hc⟩
    rw [Dims.checked, hnn, hc]
    rfl
  · split at h
    · cases h
    · obtain ⟨⟨⟩, hnn, h⟩ := HostError.bind_eq_ok_iff.1 h
      split at h
      · rename_i hc
        cases h
        refine ⟨rfl, ?_, hc⟩
        rw [Dims.checked, hnn, hc]
        rfl
      · cases h

end DiffTensor
