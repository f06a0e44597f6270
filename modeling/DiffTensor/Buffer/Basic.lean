import DiffTensor.Scalar
import DiffTensor.Extent
import DiffTensor.Failure

/-!
# Dense buffers

A `Buffer` is a shape together with its elements in row-major order. Buffers are made
with as many elements as their shape asks for (`WellShaped`), and no operation changes
a buffer's length.

A buffer that is too large to exist is not refused: asking for it crashes.

`Buffer` is the library's `Dense`. Here and elsewhere, what goes by another name in the program has
that name behind its description.
-/

namespace DiffTensor

/-- Elements in row-major order, with their shape (`Dense`). -/
structure Buffer (α : Type) where
  shape : List Nat
  data : Array α
  deriving Repr

namespace Buffer

attribute [local instance] Extent.unit

variable {α : Type}

instance : Inhabited (Buffer α) := ⟨⟨[0], #[]⟩⟩

/-- A buffer holds exactly the elements of its shape. -/
def WellShaped (b : Buffer α) : Prop := b.data.size = b.shape.prod

/-- The number of elements held (`len`). -/
def size (b : Buffer α) : Nat := b.data.size

/-- The number of dimensions (`ndim`). -/
def rank (b : Buffer α) : Nat := b.shape.length

/-- All elements equal to `value`. -/
def full (shape : List Nat) (value : α) : Outcome (Buffer α) :=
  if Extent.saturated shape < Extent.allocationLimit then
    .ok ⟨shape, Array.replicate (Extent.saturated shape) value⟩
  else crash .capacity

/-- A single element, without dimensions. -/
def scalar (value : α) : Buffer α := ⟨[], #[value]⟩

/-- Lays the given elements out in a shape that has room for exactly them (`from_vec`). -/
def fill (data : Array α) (shape : List Nat) : Outcome (Buffer α) :=
  if data.size = Extent.saturated shape then .ok ⟨shape, data⟩
  else refuse (.fill data.size shape (Extent.saturated shape))

/-- The same elements in another shape of as many elements. -/
def reshape (b : Buffer α) (shape : List Nat) : Outcome (Buffer α) :=
  if Extent.saturated shape = b.size then .ok { b with shape }
  else refuse (.reshape b.shape shape)

def map (f : α → α) (b : Buffer α) : Buffer α := { b with data := b.data.map f }

/-- Combines buffers of equal shape element by element (`zip_map`). -/
def zipMap (f : α → α → α) (a b : Buffer α) : Outcome (Buffer α) :=
  if a.shape = b.shape then .ok { a with data := Array.zipWith f a.data b.data }
  else refuse (.unequalShapes a.shape b.shape)

/-- Replaces the elements that have a partner in `xs`, position by position; the others stay. -/
def updateWith (f : α → α → α) (b : Buffer α) (xs : Array α) : Buffer α :=
  { b with data := b.data.mapIdx fun i x => (xs[i]?).elim x (f x) }

theorem wellShaped_full {shape : List Nat} {value : α} {b : Buffer α}
    (h : full shape value = .ok b) : b.WellShaped := by
  unfold full at h
  split at h
  · rename_i hs
    cases h
    simpa [WellShaped] using Extent.saturated_eq_prod (Nat.lt_trans hs (by decide))
  · cases h

theorem wellShaped_fill {data : Array α} {shape : List Nat} {b : Buffer α}
    (h : fill data shape = .ok b) (hd : data.size < Extent.allocationLimit) : b.WellShaped := by
  unfold fill at h
  split at h
  · rename_i hs
    cases h
    have : Extent.saturated shape < Extent.wordLimit - 1 := hs ▸ Nat.lt_trans hd (by decide)
    exact hs.trans (Extent.saturated_eq_prod this)
  · cases h

theorem wellShaped_map {b : Buffer α} (h : b.WellShaped) (f : α → α) : (b.map f).WellShaped := by
  simpa [WellShaped, map] using h

theorem wellShaped_zipMap {a b c : Buffer α} {f : α → α → α} (ha : a.WellShaped)
    (hb : b.WellShaped) (h : zipMap f a b = .ok c) : c.WellShaped := by
  unfold zipMap at h
  split at h
  · rename_i hs
    cases h
    simp_all [WellShaped]
  · cases h

theorem wellShaped_updateWith {b : Buffer α} (h : b.WellShaped) (f : α → α → α) (xs : Array α) :
    (b.updateWith f xs).WellShaped := by
  simpa [WellShaped, updateWith] using h

section Arithmetic

variable [Scalar α]

def zeros (shape : List Nat) : Outcome (Buffer α) := full shape 0

/-- The element at a position; zero past the end. -/
def entry (b : Buffer α) (i : Nat) : α := b.data.getD i 0

/-- Adds a buffer of equal shape onto this one (`add_assign`). -/
def accumulate (held addend : Buffer α) : Outcome (Buffer α) :=
  if held.shape = addend.shape then
    .ok { held with data := Array.zipWith (· + ·) held.data addend.data }
  else refuse (.accumulate addend.shape held.shape)

/-- The sum of all elements, from the first to the last. -/
def sum (b : Buffer α) : α := b.data.foldl (· + ·) Scalar.sumStart

/-- Equal shapes, and elements that are numerically equal. -/
def same (a b : Buffer α) : Bool :=
  a.shape == b.shape && a.data.isEqv b.data Scalar.same

end Arithmetic

end Buffer

end DiffTensor
