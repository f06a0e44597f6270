import DiffTensor.Proofs.ReferenceCustody

/-!
# Tensors stay behind their handles

A handle that has been used stands for one tensor from then on, until it is released: nothing that
the library does puts another tensor behind it (`Engine.Persists`).
-/

namespace DiffTensor.Engine

variable {α : Type} {e e' e'' : Engine α} {h : Handle}

/-- Behind handles that had been used before there are no other tensors now. -/
structure Persists (e e' : Engine α) : Prop where
  size_le : e.objects.size ≤ e'.objects.size
  tensor : ∀ h n, h < e.objects.size → e'.object? h = some (.tensor n) →
    e.object? h = some (.tensor n)

theorem lt_size_of_object? {o : Object α} (ho : e.object? h = some o) : h < e.objects.size :=
  lt_size_of_kind? (show e.kind? h = some o.kind by rw [kind?, ho]; rfl)

theorem object?_of_le (hh : e.objects.size ≤ h) : e.object? h = none := by
  cases ho : e.object? h with
  | none => rfl
  | some o => exact absurd (lt_size_of_object? ho) (Nat.not_lt.2 hh)

/-- Nothing is changed when an object is put where it is. -/
theorem setOptimizer_self {state : Optimizer α} (ho : e.object? h = some (.optimizer state)) :
    e.setOptimizer h state = e := by
  have hlt := lt_size_of_object? ho
  have hobjects : e.objects[h] = some (.optimizer state) := by
    rwa [object?, Array.getD, dif_pos hlt] at ho
  rw [setOptimizer, ← hobjects, Array.setIfInBounds_def, dif_pos hlt, Array.set_getElem_self]

namespace Persists

theorem of_object? (hs : e.objects.size ≤ e'.objects.size)
    (ho : ∀ h, h < e.objects.size → e'.object? h = e.object? h) : Persists e e' :=
  ⟨hs, fun h _ hlt hn => (ho h hlt).symm.trans hn⟩

theorem refl (e : Engine α) : Persists e e := of_object? (Nat.le_refl _) fun _ _ => rfl

theorem trans (h : Persists e e') (h' : Persists e' e'') : Persists e e'' :=
  ⟨Nat.le_trans h.size_le h'.size_le, fun k n hk hn =>
    h.tensor k n hk (h'.tensor k n (Nat.lt_of_lt_of_le hk h.size_le) hn)⟩

/-- A tensor that is still there is the same tensor. -/
theorem tensor_eq (hp : Persists e e') {n m : NodeId} (hn : e.object? h = some (.tensor n))
    (hm : e'.object? h = some (.tensor m)) : n = m := by
  have := hp.tensor h m (lt_size_of_object? hn) hm
  rw [hn] at this
  cases this
  rfl

theorem made (e : Engine α) (new : Object α × Store α × Stream) : Persists e (e.made new) := by
  refine of_object? ?_ fun h hlt => ?_
  · show e.objects.size ≤ (e.objects.push (some new.1)).size
    rw [Array.size_push]
    exact Nat.le_succ _
  · rw [object?_made, if_neg (Nat.ne_of_lt hlt)]

theorem handOut (e : Engine α) (o : Object α) : Persists e (e.handOut o).2 :=
  made e (o, e.store, e.stream)

theorem handOutNodes : ∀ (nodes : List NodeId) (e : Engine α), Persists e (e.handOutNodes nodes).2
  | [], e => refl e
  | n :: rest, e => (handOut e (.tensor n)).trans (handOutNodes rest (e.handOut (.tensor n)).2)

theorem setIfInBounds (e : Engine α) (k : Handle) {o : Option (Object α)}
    (ho : ∀ n, o ≠ some (.tensor n)) :
    Persists e { e with objects := e.objects.setIfInBounds k o } := by
  refine ⟨Nat.le_of_eq (Array.size_setIfInBounds ..).symm, fun h n _ hn => ?_⟩
  rw [object?_setIfInBounds] at hn
  split at hn
  · exact absurd hn (ho n)
  · exact hn

theorem release (e : Engine α) : ∀ handle : Option Handle, Persists e (e.release handle)
  | none => refl e
  | some h => setIfInBounds e h nofun

theorem setOptimizer (e : Engine α) (h : Handle) (state : Optimizer α) :
    Persists e (e.setOptimizer h state) :=
  setIfInBounds e h (o := some (.optimizer state)) nofun

/-- So it is whatever a command does to the graph. -/
theorem run [Scalar α] (e : Engine α) (c : Command Handle) : Persists e (e.run c).2.1 := by
  have hr := e.ran c
  generalize e.run c = out at hr ⊢
  cases hr with
  | refused _ => exact refl e
  | setTracked _ _ | backward _ _ | clearGradients _ =>
    exact of_object? (Nat.le_refl _) fun _ _ => rfl
  | @step _ _ _ _ _ store _ _ =>
    have hs : Persists e { e with store } := of_object? (Nat.le_refl _) fun _ _ => rfl
    exact hs.trans (setOptimizer ..)

end Persists

end DiffTensor.Engine
