/-!
# Decimal text of doubles

A finite double is an exact binary fraction `mantissa * 2 ^ exponent`. Its decimal
texts are found in exact arithmetic on natural numbers:

* `rounded n` is the value rounded to `n` significant digits, a tie going to the even
  last digit;
* `shortest` is the decimal with the fewest digits among those that read back as the
  same double, and of these the one nearest to the value, a tie going up.

A decimal is a coefficient times a power of ten. `Decimal.scientific` and
`Decimal.positional` are its two notations: `5e-1` and `0.5`.
-/

namespace DiffTensor.Text

/-- The decimal `coefficient * 10 ^ power`. -/
structure Decimal where
  coefficient : Nat
  power : Int
  deriving DecidableEq, Repr

namespace Decimal

/-- The significant digits, without the zeros that end them (one zero for the value zero), and
the power of ten of the last digit. -/
def significant (d : Decimal) : List Char × Int :=
  let digits := d.coefficient.repr.toList
  let zeros := (digits.reverse.takeWhile (· == '0')).length
  if d.coefficient = 0 then (['0'], 0)
  else (digits.take (digits.length - zeros), d.power + zeros)

/-- One digit, the others after a point, and the power of ten of the first: `1.25e-3`. -/
def scientific (d : Decimal) : String :=
  let (digits, power) := d.significant
  let exponent := power + (digits.length - 1 : Nat)
  let mantissa :=
    match digits with
    | [] => "0"
    | [c] => String.singleton c
    | c :: rest => String.ofList (c :: '.' :: rest)
  mantissa ++ "e" ++ toString exponent

/-- All digits in their places, with as many zeros as it takes: `0.00125`, `120`. -/
def positional (d : Decimal) : String :=
  let (digits, power) := d.significant
  let point := power + digits.length
  if 0 ≤ power then String.ofList (digits ++ List.replicate power.toNat '0')
  else if 0 < point then
    String.ofList (digits.take point.toNat ++ '.' :: digits.drop point.toNat)
  else String.ofList ('0' :: '.' :: (List.replicate (-point).toNat '0' ++ digits))

end Decimal

/-- A fraction of natural numbers. -/
structure Ratio where
  num : Nat
  den : Nat
  deriving DecidableEq, Repr

namespace Ratio

/-- The number `base ^ k`, also for a negative `k`. -/
def power (base : Nat) (k : Int) : Ratio :=
  if 0 ≤ k then ⟨base.pow k.toNat, 1⟩ else ⟨1, base.pow (-k).toNat⟩

def mul (a b : Ratio) : Ratio := ⟨a.num * b.num, a.den * b.den⟩

/-- Is `10 ^ e` at most the fraction? -/
def reaches (a : Ratio) (e : Int) : Bool :=
  let p := power 10 e
  p.num * a.den ≤ a.num * p.den

/-- Climbs from an exponent that is low enough to the last one that the fraction reaches. -/
def climb (a : Ratio) (steps : Nat) (e : Int) : Int :=
  match steps with
  | 0 => e
  | steps + 1 => if a.reaches (e + 1) then a.climb steps (e + 1) else e

/-- The power of ten of the first digit of a positive fraction. The number of binary digits
tells it up to three. -/
def decade (a : Ratio) : Int :=
  a.climb 4 (((a.num.log2 : Int) - a.den.log2) * 30103 / 100000 - 1)

/-- The fraction rounded to a whole number, ties to the even one. -/
def round (a : Ratio) : Nat :=
  let q := a.num / a.den
  let r := a.num % a.den
  if a.den < 2 * r ∨ (2 * r = a.den ∧ q % 2 = 1) then q + 1 else q

end Ratio

/-- The magnitude `mantissa * 2 ^ exponent` of a finite double. -/
structure Dyadic where
  mantissa : Nat
  exponent : Int
  deriving DecidableEq, Repr

namespace Dyadic

def ratio (d : Dyadic) : Ratio := (Ratio.mk d.mantissa 1).mul (Ratio.power 2 d.exponent)

/-- The value rounded to `digits` significant digits, ties to the even last digit. -/
def rounded (d : Dyadic) (digits : Nat) : Decimal :=
  if d.mantissa = 0 then ⟨0, 0⟩
  else
    let last := d.ratio.decade - (digits : Int) + 1
    ⟨(d.ratio.mul (Ratio.power 10 (-last))).round, last⟩

/-- The leading bit of a mantissa, which the 64 bits leave out. -/
def hiddenBit : Nat := 0x10000000000000

/-- Do the doubles lie closer together below this one than above it? -/
def narrowBelow (d : Dyadic) : Bool := d.mantissa = hiddenBit && decide (-1074 < d.exponent)

/-- The nearest decimal with the given number of digits that reads back as the double, if
there is one. Everything is counted in quarters of the distance to the next double: the value
is `4 * mantissa` of them, and a decimal reads back if it is off by less than half the
distance, or by exactly half of it and the mantissa is even. -/
def readsBack? (d : Dyadic) (decade : Int) (digits : Nat) : Option Decimal :=
  let last := decade - (digits : Int) + 1
  let quarter := (Ratio.power 2 (d.exponent - 2)).mul (Ratio.power 10 (-last))
  let value := 4 * d.mantissa * quarter.num
  let low := (4 * d.mantissa - if d.narrowBelow then 1 else 2) * quarter.num
  let high := (4 * d.mantissa + 2) * quarter.num
  let inside (c : Nat) : Bool :=
    let c := c * quarter.den
    if d.mantissa % 2 = 0 then decide (low ≤ c ∧ c ≤ high) else decide (low < c ∧ c < high)
  let below := value / quarter.den
  let above := below + 1
  match inside below, inside above with
  | true, true =>
    if above * quarter.den - value ≤ value - below * quarter.den then some ⟨above, last⟩
    else some ⟨below, last⟩
  | true, false => some ⟨below, last⟩
  | false, true => some ⟨above, last⟩
  | false, false => none

/-- The shortest decimal that reads back as the double. Seventeen digits are always enough. -/
def shortest (d : Dyadic) : Decimal :=
  if d.mantissa = 0 then ⟨0, 0⟩
  else
    let decade := d.ratio.decade
    ((List.range 17).findSome? fun n => d.readsBack? decade (n + 1)).getD (d.rounded 17)

end Dyadic

/-- What a double stands for. -/
inductive Double where
  | nan
  | infinite (negative : Bool)
  | finite (negative : Bool) (magnitude : Dyadic)
  deriving DecidableEq, Repr

namespace Double

/-- Takes the sign, exponent and mantissa fields of the 64 bits apart. -/
def ofBits (bits : UInt64) : Double :=
  let n : Nat := bits.toNat
  let negative : Bool := n / 0x8000000000000000 = 1
  let exponent : Nat := n / Dyadic.hiddenBit % 0x800
  let mantissa : Nat := n % Dyadic.hiddenBit
  if exponent = 2047 then
    if mantissa = 0 then .infinite negative else .nan
  else if exponent = 0 then .finite negative ⟨mantissa, -1074⟩
  else .finite negative ⟨mantissa + Dyadic.hiddenBit, (exponent : Int) - 1075⟩

def ofFloat (x : Float) : Double := ofBits x.toBits

/-- The sign in front of a text. -/
def signed (negative : Bool) (text : String) : String := if negative then "-" ++ text else text

/-- Scientific notation with at most `digits` significant digits. -/
def scientific (digits : Nat) : Double → String
  | .nan => "nan"
  | .infinite negative => signed negative "inf"
  | .finite negative m => signed negative (m.rounded digits).scientific

/-- Positional notation, with the fewest digits that read back. -/
def positional : Double → String
  | .nan => "NaN"
  | .infinite negative => signed negative "inf"
  | .finite negative m => signed negative m.shortest.positional

end Double

end DiffTensor.Text
