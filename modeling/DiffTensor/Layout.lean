import DiffTensor.Extent
import DiffTensor.Failure

/-!
# Row-major layout

The elements of a buffer lie in row-major order: the last coordinate changes fastest.
`advance` goes from the coordinates of one position to those of the next, and `walk`
lists them from a given position on.

When a buffer is read through a larger shape, each coordinate moves the position in
the buffer by a *stride*; along a dimension of size 1, and along the leading
dimensions that the buffer lacks, it does not move at all. `offsets` lists, for every
position of the larger shape, the position in the buffer that it reads. All of this is
computed in machine words, and a product or a sum that leaves them breaks off.
-/

namespace DiffTensor.Layout

attribute [local instance] Extent.unit

/-- The coordinates of the next position, and whether even the first of them started again: the
last coordinate goes up by one, and one that reaches its dimension starts again from zero and
carries over into the coordinate before it. -/
def advance : List Nat → List Nat → Bool × List Nat
  | d :: dims, i :: coords =>
    match advance dims coords with
    | (true, coords) => if i + 1 < d then (false, (i + 1) :: coords) else (true, 0 :: coords)
    | (false, coords) => (false, i :: coords)
  | _, coords => (true, coords)

/-- The coordinates of so many positions, one after the other. -/
def walk (dims : List Nat) : Nat → List Nat → List (List Nat)
  | 0, _ => []
  | count + 1, coords => coords :: walk dims count (advance dims coords).2

/-- The strides of a shape, zero along dimensions of size 1, and the product of its dimensions,
multiplied up from the last dimension. -/
def strides : List Nat → Outcome (List Nat × Nat)
  | [] => .ok ([], 1)
  | d :: dims => do
    let (steps, size) ← strides dims
    if size * d < Extent.wordLimit then
      .ok ((if d = 1 then 0 else size) :: steps, size * d)
    else crash .product

/-- The position that coordinates and strides lead to, counted from `start`. -/
def positionFrom (start : Nat) : List Nat → List Nat → Outcome Nat
  | i :: coords, s :: steps =>
    if i * s < Extent.wordLimit then
      if start + i * s < Extent.wordLimit then positionFrom (start + i * s) coords steps
      else crash .sum
    else crash .product
  | _, _ => .ok start

/-- For each position of the shape `target`, the position in a buffer of shape `source` that is read
there (`source_offsets`). -/
def offsets (source target : List Nat) : Outcome (List Nat) := do
  if target.length < source.length then crash .difference
  let (steps, _) ← strides source
  let steps := List.replicate (target.length - source.length) 0 ++ steps
  let size := Extent.saturated target
  if size < Extent.allocationLimit then
    (walk target size (List.replicate target.length 0)).mapM fun coords =>
      positionFrom 0 coords steps
  else crash .capacity

end DiffTensor.Layout
