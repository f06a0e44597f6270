import DiffTensor.Random.Sampler
import DiffTensor.Random.Ziggurat

/-!
# Drawing doubles

Uniform samples come from 52 random bits, read as the fraction of a number between one
and two. Normal samples are drawn by layers: a random layer and a random position in it
give a sample at once if the position lies under the next layer; otherwise a second draw
decides whether the point lies under the density, and if not everything starts again. In
the lowest layer the tail of the density takes the place of that decision.

Rejections follow each other with small probability; `patience` bounds how many are
waited for.
-/

namespace DiffTensor

namespace Stream

/-- A double with the given exponent bits and 52 random bits as its fraction. -/
def fraction (exponent : UInt64) (bits : UInt64) : Float :=
  Float.ofBits ((bits >>> 12) ||| exponent)

/-- A uniform sample from one up to two. -/
def oneToTwo (bits : UInt64) : Float := fraction 0x3FF0000000000000 bits

/-- A uniform sample strictly between zero and one. -/
def inside (s : Stream) : Float × Stream :=
  let (bits, s) := s.next
  (oneToTwo bits - Float.ofBits 0x3FEFFFFFFFFFFFFF, s)

/-- How many rejections in a row are waited for. -/
def patience : Nat := 10000

/-- A sample of the tail: `x` and `y` are exponential samples, negated, and kept once
`-2 y` is at least the square of `x`. -/
def tail : Nat → Stream → Float × Stream
  | 0, s => (0.0, s)
  | n + 1, s =>
    let (p, s) := s.inside
    let (q, s) := s.inside
    let x := p.log / Ziggurat.tailStart
    let y := q.log
    if -2.0 * y < x * x then tail n s else (x, s)

/-- A standard normal sample (`StandardNormal`). -/
def normalDouble : Nat → Stream → Float × Stream
  | 0, s => (0.0, s)
  | n + 1, s =>
    let (bits, s) := s.next
    let i := bits.toNat % 256
    let u := fraction 0x4000000000000000 bits - 3.0
    let x := u * Ziggurat.edge i
    if x.abs < Ziggurat.edge (i + 1) then (x, s)
    else if i = 0 then
      let (x, s) := tail patience s
      (if u < 0.0 then x - Ziggurat.tailStart else Ziggurat.tailStart - x, s)
    else
      let (more, s) := s.next
      let v := (more >>> 11).toFloat * Float.ofBits 0x3CA0000000000000
      let low := Ziggurat.height (i + 1)
      if low + (Ziggurat.height i - low) * v < (-x * x / 2.0).exp then (x, s)
      else normalDouble n s

/-- A uniform sample between `-bound` and `bound`; the bounds must be in order, and their distance
finite (`random_range`). -/
def uniformDouble (bound : Float) (s : Stream) : Outcome (Float × Stream) :=
  let low := -bound
  let width := bound - low
  if !(decide (low < bound)) then crash .emptyRange
  else if !width.isFinite then crash .endlessRange
  else
    let (bits, s) := s.next
    .ok ((oneToTwo bits - 1.0) * width + low, s)

end Stream

instance : Sampler Float where
  normal := Stream.normalDouble Stream.patience
  uniform := Stream.uniformDouble

end DiffTensor
