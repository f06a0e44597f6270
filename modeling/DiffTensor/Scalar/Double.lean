import DiffTensor.Scalar
import DiffTensor.Text.Decimal

/-!
# Doubles as numbers

The machine's doubles with their usual operations. A sum starts from the negative
zero, and in messages a double is the shortest decimal that reads back.
-/

namespace DiffTensor

instance : Scalar Float where
  zero := 0.0
  one := 1.0
  sumStart := -0.0
  ofNat := Float.ofNat
  exp := Float.exp
  sqrt := Float.sqrt
  less x y := decide (x < y)
  same x y := x == y
  finite := Float.isFinite
  text x := (Text.Double.ofFloat x).positional

end DiffTensor
