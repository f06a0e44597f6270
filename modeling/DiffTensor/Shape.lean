/-!
# Rules on dimensions

Two shapes are broadcast together by lining up their last dimensions. A pair of
dimensions agrees if they are equal or one of them is 1, and a missing leading
dimension counts as 1. The same rule serves the library, whose dimensions are natural
numbers, and the host, whose dimensions are integers, so it is stated over any type
of dimensions with a one.
-/

namespace DiffTensor.Shape

variable {δ : Type} [DecidableEq δ] [OfNat δ 1]

/-- The common size of two dimensions that are lined up. -/
def joinDim (a b : δ) : Option δ :=
  if a = b then some a
  else if a = 1 then some b
  else if b = 1 then some a
  else none

theorem joinDim_self (a : δ) : joinDim a a = some a := if_pos rfl

theorem joinDim_comm (a b : δ) : joinDim a b = joinDim b a := by
  grind [joinDim]

theorem joinDim_one_left (b : δ) : joinDim 1 b = some b := by
  grind [joinDim]

theorem joinDim_eq_some_iff {a b d : δ} :
    joinDim a b = some d ↔ (a = d ∨ a = 1) ∧ (b = d ∨ b = 1) ∧ (a = d ∨ b = d) := by
  grind [joinDim]

/-- Broadcasting of shapes that are listed from the last dimension to the first. -/
def joinReversed : List δ → List δ → Option (List δ)
  | [], bs => some bs
  | a :: as, [] => some (a :: as)
  | a :: as, b :: bs =>
    match joinDim a b, joinReversed as bs with
    | some d, some dims => some (d :: dims)
    | _, _ => none

/-- The shape onto which both shapes are broadcast, if they agree (`broadcast_shape` of the library,
`broadcast_shapes` of the host). -/
def join (a b : List δ) : Option (List δ) :=
  (joinReversed a.reverse b.reverse).map List.reverse

end DiffTensor.Shape
