import DiffTensor.Extent
import DiffTensor.Host.Error
import DiffTensor.Shape

/-!
# Dimensions on the host

The host keeps dimensions as integers. A list of dimensions is checked before a tensor is
made from it (`checked`), and the shapes of operands are checked before the operation is
asked of a library: `join` for operations under broadcasting, `product` and `transposed`
for matrices. Where elements are counted, a negative dimension counts as zero.
-/

namespace DiffTensor.Dims

/-- Multiplies the dimensions onto `total`, refusing the first product that leaves the word. -/
def countFrom (total : Nat) : List Int → Option Nat
  | [] => some total
  | d :: dims =>
    if total * d.toNat < Extent.wordLimit then countFrom (total * d.toNat) dims else none

/-- The number of elements, or nothing when a partial product does not fit in a word
(`checked_numel`). -/
def count (dims : List Int) : Option Nat := countFrom 1 dims

/-- The number of elements, with the largest word standing for "too many" (`numel`). -/
def size (dims : List Int) : Nat := (count dims).getD (Extent.wordLimit - 1)

/-- Refuses negative dimensions (`non_negative`). -/
def nonNegative (dims : List Int) : Except HostError Unit :=
  match dims.find? (· < 0) with
  | some dim => .error (.configuration (.negativeDim dims dim))
  | none => .ok ()

/-- Refuses negative dimensions, and more elements than can be counted. -/
def checked (dims : List Int) : Except HostError Unit := do
  nonNegative dims
  if (count dims).isNone then throw (.configuration (.tooManyElements dims))

theorem countFrom_eq_checkedFrom (total : Nat) (dims : List Int) :
    countFrom total dims = Extent.checkedFrom total (dims.map Int.toNat) := by
  induction dims generalizing total with
  | nil => rfl
  | cons d dims ih => rw [countFrom, List.map_cons, Extent.checkedFrom, ih]

/-- Host and library count alike. -/
theorem count_eq_checked (dims : List Int) : count dims = Extent.checked (dims.map Int.toNat) :=
  countFrom_eq_checkedFrom 1 dims

theorem size_eq_saturated (dims : List Int) :
    size dims = Extent.saturated (dims.map Int.toNat) := by
  rw [size, count_eq_checked, Extent.saturated]

/-- The common shape of two operands under broadcasting (`broadcast_shapes`). -/
def join (operation : String) (left right : List Int) : Except HostError (List Int) :=
  match Shape.join left right with
  | some dims => .ok dims
  | none => .error (.shapeMismatch operation left right)

/-- The shape of a matrix product (`matmul_shape`). -/
def product (left right : List Int) : Except HostError (List Int) :=
  match left, right with
  | [rows, inner], [inner', cols] =>
    if inner = inner' then .ok [rows, cols] else .error (.shapeMismatch "matmul" left right)
  | [_, _], _ => .error (.unsupportedRank "matmul" right.length)
  | _, _ => .error (.unsupportedRank "matmul" left.length)

/-- The shape of a transposed tensor (`transpose_shape`). -/
def transposed (dims : List Int) : Except HostError (List Int) :=
  match dims with
  | [] | [_] => .ok dims
  | [rows, cols] => .ok [cols, rows]
  | _ => .error (.unsupportedRank "transpose" dims.length)

end DiffTensor.Dims
