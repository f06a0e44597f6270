/-!
# Numbers

Everything that computes with tensor elements is written once, over a type of
numbers with the operations below. The program runs at the machine's doubles; the
same definitions can be read at an ordered field, where arithmetic is exact.

Two operations say what the usual ones leave open. `sumStart` is the value a sum
of elements starts from: over doubles it is the negative zero, the only value that
every addition leaves alone. `power` fixes the order in which the factors of an
integer power are multiplied.
-/

namespace DiffTensor

/-- Numbers that tensors can hold. -/
class Scalar (α : Type) extends Add α, Sub α, Mul α, Div α, Neg α, Zero α, One α where
  /-- The value a sum of elements starts from. -/
  sumStart : α
  /-- The number nearest to a natural number. -/
  ofNat : Nat → α
  exp : α → α
  sqrt : α → α
  /-- The strict order; false as soon as an operand is not a number. -/
  less : α → α → Bool
  /-- Numeric equality: both zeros are the same, what is not a number equals nothing. -/
  same : α → α → Bool
  /-- Neither infinite nor not-a-number. -/
  finite : α → Bool
  /-- The number as it stands in messages. -/
  text : α → String

namespace Scalar

variable {α : Type} [Scalar α]

/-- Less or equal; false as soon as an operand is not a number. -/
def atMost (x y : α) : Bool := less x y || same x y

def positive (x : α) : Bool := less 0 x

def isZero (x : α) : Bool := same x 0

/-- The positive part: `x` if it is positive, otherwise zero. -/
def positivePart (x : α) : α := if positive x then x else 0

/-- The logistic function. -/
def logistic (x : α) : α := 1 / (1 + exp (-x))

/-- `result` times `base` to the power `n`: the binary digits of `n` are used from the lowest
up, and the base is squared between them. -/
def powerOnto (result base : α) (n : Nat) : α :=
  let result := if n % 2 = 1 then result * base else result
  if n / 2 = 0 then result else powerOnto result (base * base) (n / 2)
termination_by n

/-- The `n`-th power, by repeated squaring. -/
def power (base : α) (n : Nat) : α := powerOnto 1 base n

end Scalar

end DiffTensor
