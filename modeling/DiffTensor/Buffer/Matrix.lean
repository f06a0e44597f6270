import DiffTensor.Buffer.Basic

/-!
# Matrices

A buffer of rank 2 is a matrix, row by row. Entry `(i, j)` of a matrix with `cols`
columns lies at position `i * cols + j`.

Products are left to a `Kernel`, which takes and gives matrices column by column. Read
like that, the elements of a matrix are those of its transpose; so the kernel is given
the operands the other way round, with their sizes exchanged, and what it stores is the
product row by row.
-/

namespace DiffTensor.Buffer

variable {α : Type} [Scalar α]

/-- Swaps rows and columns; buffers of rank 0 and 1 stay as they are. -/
def transpose (b : Buffer α) : Outcome (Buffer α) :=
  match b.shape with
  | [] | [_] => .ok b
  | [rows, cols] =>
    .ok ⟨[cols, rows], Array.ofFn fun k : Fin (cols * rows) =>
      b.entry (k % rows * cols + k / rows)⟩
  | _ => refuse (.transposeRank b.shape)

/-- Multiplies two matrices that lie column by column: from the number of rows of the left one,
the number of its columns and the number of columns of the right one, with the elements of both,
the elements of the product, column by column. -/
abbrev Kernel (α : Type) := (rows inner cols : Nat) → (left right : Array α) → Array α

/-- The kernel that adds up each entry of the product by itself, from the first column of the left
matrix to the last. -/
def Kernel.plain : Kernel α := fun rows inner cols left right =>
  Array.ofFn fun k : Fin (rows * cols) =>
    (List.range inner).foldl (fun sum l =>
      sum + right.getD (k / rows * inner + l) 0 * left.getD (l * rows + k % rows) 0) 0

/-- The matrix product, as a kernel computes it (`matmul`). An empty product, and one of which
nothing is added up, is left to no kernel. -/
def productBy (kernel : Kernel α) (a b : Buffer α) : Outcome (Buffer α) :=
  match a.shape, b.shape with
  | [rows, inner], [inner', cols] =>
    if inner ≠ inner' then refuse (.productInner a.shape b.shape)
    else if Extent.wordLimit ≤ rows * cols then crash .product
    else if Extent.allocationLimit ≤ rows * cols then crash .capacity
    else if 0 < rows ∧ 0 < cols ∧ 0 < inner then
      .ok ⟨[rows, cols], kernel cols inner rows b.data a.data⟩
    else .ok ⟨[rows, cols], Array.replicate (rows * cols) 0⟩
  | _, _ => refuse (.productRank a.shape b.shape)

/-- The matrix product. -/
def product (a b : Buffer α) : Outcome (Buffer α) := a.productBy Kernel.plain b

/-- The sum of each column, added up from the first row to the last. -/
def columnSums (b : Buffer α) (rows cols : Nat) : Buffer α :=
  ⟨[cols], Array.ofFn fun j : Fin cols =>
    (List.range rows).foldl (fun sum i => sum + b.entry (i * cols + j)) 0⟩

/-- Adds a row onto every row. -/
def addRow (b row : Buffer α) (cols : Nat) : Buffer α :=
  { b with data := b.data.mapIdx fun k x => x + row.entry (k % cols) }

end DiffTensor.Buffer
