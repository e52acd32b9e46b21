/-
The shortest decimal of a double.

Among the decimals that read back as the same double, those with the fewest
digits are taken, and of these the one nearest to its value.  For each number of
digits from one to seventeen the two neighbours of the value on that decimal
grid are tried, since if any point of the grid reads back, one of them does.
-/
import TaintFlow.Decimal.Double

namespace TaintFlow
namespace Decimal

/-- A decimal `digits * 10 ^ exponent`. -/
structure Scientific where
  digits : Nat
  exponent : Int
  deriving DecidableEq, Repr

/-- The numbers that round to a double, and the double itself, as numerators over
one denominator.  The ends belong to the interval when `closed` is set. -/
structure RoundingInterval where
  low : Nat
  value : Nat
  high : Nat
  den : Nat
  closed : Bool

/-- Half a unit in the last place to either side, but a quarter below a power of
two, where the doubles lie twice as dense. -/
def Double.roundingInterval (x : Double) : RoundingInterval :=
  let below := if x.mant = Nat.pow 2 (precision - 1) && leastExponent < x.exp then 1 else 2
  let scale := scaleTwo 1 1 (x.exp - 2)
  { low := (4 * x.mant - below) * scale.1
    value := 4 * x.mant * scale.1
    high := (4 * x.mant + 2) * scale.1
    den := scale.2
    closed := x.mant % 2 == 0 }

/-- `n * 10 ^ e` as a fraction of naturals. -/
def scaleTenNat (n : Nat) (e : Int) : Nat × Nat := (n * Nat.pow 10 e.toNat, Nat.pow 10 (-e).toNat)

namespace RoundingInterval

/-- Whether `n * 10 ^ e` lies in the interval. -/
def contains (i : RoundingInterval) (n : Nat) (e : Int) : Bool :=
  let (num, den) := scaleTenNat n e
  let point := num * i.den
  let low := i.low * den
  let high := i.high * den
  if i.closed then low ≤ point && point ≤ high else low < point && point < high

/-- Whether `10 ^ e` is at most the value. -/
def reaches (i : RoundingInterval) (e : Int) : Bool :=
  let (num, den) := scaleTenNat 1 e
  num * i.den ≤ i.value * den

/-- The greatest `e` with `10 ^ e` at most the value, for a positive value.  The
first guess scales the binary exponent by the decimal logarithm of two, and is
off by at most one. -/
def floorLogTen (i : RoundingInterval) : Int :=
  let guess := Int.fdiv (floorLogTwo i.value i.den * 1233) 4096
  if i.reaches (guess + 1) then guess + 1 else if i.reaches guess then guess else guess - 1

/-- The neighbour of the value on the grid of multiples of `10 ^ e` that lies in
the interval, the nearer of the two if both do, the even one if both are as near. -/
def gridPoint? (i : RoundingInterval) (e : Int) : Option Nat :=
  let (num, den) := scaleTenNat 1 e
  let unit := num * i.den
  let value := i.value * den
  let down := value / unit
  let rest := value % unit
  let upIsNearer := unit < 2 * rest || (unit == 2 * rest && down % 2 == 1)
  match i.contains down e, i.contains (down + 1) e with
  | true, true => some (if upIsNearer then down + 1 else down)
  | true, false => some down
  | false, true => some (down + 1)
  | false, false => none

end RoundingInterval

/-- The decimal without the zeros at its end.  The fuel bounds the number of
zeros. -/
def Scientific.dropZeros : Nat → Scientific → Scientific
  | 0, d => d
  | fuel + 1, d =>
    if d.digits % 10 = 0 && d.digits ≠ 0 then dropZeros fuel ⟨d.digits / 10, d.exponent + 1⟩ else d

/-- The shortest decimal of a positive double. -/
def Double.shortest (x : Double) : Scientific :=
  let interval := x.roundingInterval
  let exponent := interval.floorLogTen
  let found := (List.range 17).findSome? fun (n : Nat) =>
    (interval.gridPoint? (exponent - n)).map fun digits => Scientific.mk digits (exponent - n)
  Scientific.dropZeros 17 (found.getD ⟨0, 0⟩)

end Decimal
end TaintFlow
