/-!
# Element counts

The number of elements of a shape is the product of its dimensions. Counts are
kept in a 64-bit word: the product is taken from left to right and is refused as
soon as a partial product no longer fits, so a zero dimension only helps if it
comes early enough. `checked` is that product, `saturated` the same count with
"too many" written as the largest word.

A buffer of `allocationLimit` elements or more cannot be asked for at all: its
size in bytes would not fit in a signed word.
-/

namespace DiffTensor.Extent

/-- Products of dimensions start from the numeral. -/
abbrev unit : One Nat := ⟨1⟩

attribute [local instance] unit

/-- Counts are below this bound. -/
def wordLimit : Nat := 0x10000000000000000

/-- A buffer holds fewer elements than this. -/
def allocationLimit : Nat := 0x1000000000000000

/-- Multiplies the dimensions onto `count`, refusing the first product that leaves the word. -/
def checkedFrom (count : Nat) : List Nat → Option Nat
  | [] => some count
  | d :: dims => if count * d < wordLimit then checkedFrom (count * d) dims else none

/-- The element count of a shape, or nothing when a partial product does not fit in a word
(`checked_numel`). -/
def checked (dims : List Nat) : Option Nat := checkedFrom 1 dims

/-- The element count of a shape, with the largest word standing for "too many" (`numel`). -/
def saturated (dims : List Nat) : Nat := (checked dims).getD (wordLimit - 1)

@[simp] theorem checkedFrom_nil (n : Nat) : checkedFrom n [] = some n := rfl

/-- A count that fits is the exact product. -/
theorem checkedFrom_eq_some {n k : Nat} {dims : List Nat} (h : checkedFrom n dims = some k) :
    k = n * dims.prod := by
  induction dims generalizing n with
  | nil => simp_all
  | cons d dims ih =>
    unfold checkedFrom at h
    split at h
    · rw [ih h, List.prod_cons, Nat.mul_assoc]
    · cases h

theorem checked_eq_some {k : Nat} {dims : List Nat} (h : checked dims = some k) :
    k = dims.prod := by
  simpa using checkedFrom_eq_some h

/-- A count that is not the largest word is the exact product. -/
theorem saturated_eq_prod {dims : List Nat} (h : saturated dims < wordLimit - 1) :
    saturated dims = dims.prod := by
  unfold saturated at *
  cases hc : checked dims with
  | none => simp [hc] at h
  | some k => simp [checked_eq_some hc]

end DiffTensor.Extent
