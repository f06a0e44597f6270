import DiffTensor.Buffer.Basic
import DiffTensor.Random.Stream

/-!
# Random buffers

A type of numbers is sampled by two steps on the stream, `normal` and `uniform`. A
buffer of samples is drawn element by element in row-major order, so that buffers drawn
one after the other share one stream of samples. A buffer that is too large to exist
draws nothing.
-/

namespace DiffTensor

/-- How numbers are drawn. -/
class Sampler (α : Type) where
  /-- One sample of the standard normal distribution. -/
  normal : Stream → α × Stream
  /-- One sample between `-bound` and `bound`. -/
  uniform : (bound : α) → Stream → Outcome (α × Stream)

namespace Sampler

variable {α : Type}

/-- Draws so many samples, one after the other, behind those already drawn. -/
def drawOnto (draw : Stream → Outcome (α × Stream)) :
    Nat → Array α → Stream → Outcome (Array α × Stream)
  | 0, samples, s => .ok (samples, s)
  | n + 1, samples, s =>
    match draw s with
    | .ok (x, s) => drawOnto draw n (samples.push x) s
    | .error e => .error e

/-- A buffer of samples. -/
def fill (draw : Stream → Outcome (α × Stream)) (shape : List Nat) (s : Stream) :
    Outcome (Buffer α × Stream) := do
  if Extent.allocationLimit ≤ Extent.saturated shape then crash .capacity
  let (data, s) ← drawOnto draw (Extent.saturated shape) #[] s
  return (← Buffer.fill data shape, s)

variable [Sampler α]

/-- Samples of the standard normal distribution (`randn`). -/
def normals (shape : List Nat) (s : Stream) : Outcome (Buffer α × Stream) :=
  fill (fun s => .ok (normal s)) shape s

/-- Samples between `-bound` and `bound` (`uniform`). -/
def uniforms (shape : List Nat) (bound : α) (s : Stream) : Outcome (Buffer α × Stream) :=
  fill (uniform bound) shape s

end Sampler

end DiffTensor
