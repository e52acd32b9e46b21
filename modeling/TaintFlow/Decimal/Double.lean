/-
Double-precision numbers in exact arithmetic.

A double is `mant * 2 ^ exp` with at most 53 bits in `mant` and an exponent from
-1074 to 971.  `ofRatio` rounds a quotient of naturals to the nearest double, a
tie to the even one, and every operation is the exact result rounded once.  All
numbers here are non-negative; a sign, where one is needed, is kept beside them.
-/
namespace TaintFlow
namespace Decimal

structure Double where
  mant : Nat
  exp : Int
  deriving DecidableEq, Repr

namespace Double

def leastExponent : Int := -1074

def greatestExponent : Int := 971

/-- The number of bits of a full significand. -/
def precision : Nat := 53

def zero : Double := ⟨0, leastExponent⟩

def isZero (x : Double) : Bool := x.mant == 0

end Double

/-- `num / den * 2 ^ e` as a fraction of naturals. -/
def scaleTwo (num den : Nat) (e : Int) : Nat × Nat :=
  (num * Nat.pow 2 e.toNat, den * Nat.pow 2 (-e).toNat)

/-- The greatest `e` with `2 ^ e ≤ num / den`, for positive `num` and `den`. -/
def floorLogTwo (num den : Nat) : Int :=
  let e : Int := num.log2 - den.log2
  let (num, den) := scaleTwo num den (-e)
  if den ≤ num then e else e - 1

/-- The natural number nearest to `num / den`, a tie to the even one. -/
def roundHalfEven (num den : Nat) : Nat :=
  let quotient := num / den
  let rest := num % den
  if den < 2 * rest || (den == 2 * rest && quotient % 2 == 1) then quotient + 1 else quotient

namespace Double

/-- The double nearest to `num / den`, or none when that is beyond the greatest
one. -/
def ofRatio (num den : Nat) : Option Double :=
  if num = 0 then some zero
  else
    let exp := max (floorLogTwo num den - (precision - 1)) leastExponent
    let (scaledNum, scaledDen) := scaleTwo num den (-exp)
    let mant := roundHalfEven scaledNum scaledDen
    -- Rounding up may carry into one more bit.
    let x : Double :=
      if mant = Nat.pow 2 precision then ⟨Nat.pow 2 (precision - 1), exp + 1⟩ else ⟨mant, exp⟩
    if greatestExponent < x.exp then none else some x

def ofNat (n : Nat) : Option Double := ofRatio n 1

def mul (x y : Double) : Option Double :=
  let (num, den) := scaleTwo (x.mant * y.mant) 1 (x.exp + y.exp)
  ofRatio num den

def div (x y : Double) : Option Double :=
  let (num, den) := scaleTwo x.mant y.mant (x.exp - y.exp)
  ofRatio num den

/-- The greatest power of ten that a scaling step multiplies or divides by. -/
def greatestPower : Nat := 308

def powerOfTen (k : Nat) : Double := (ofNat (Nat.pow 10 k)).getD zero

/-- `x / 10 ^ k`, at most `greatestPower` powers at a time, each step rounded. -/
def divPowerOfTen (x : Double) (k : Nat) : Double :=
  if k ≤ greatestPower ∨ x.isZero then (x.div (powerOfTen (min k greatestPower))).getD zero
  else divPowerOfTen ((x.div (powerOfTen greatestPower)).getD zero) (k - greatestPower)
termination_by k
decreasing_by simp only [greatestPower] at *; omega

/-- `x * 10 ^ e`, or none when that is beyond the greatest double. -/
def scaleTen (x : Double) (e : Int) : Option Double :=
  if x.isZero then some zero
  else if e < 0 then some (x.divPowerOfTen (-e).toNat)
  else if e.toNat ≤ greatestPower then x.mul (powerOfTen e.toNat)
  else none

end Double
end Decimal
end TaintFlow
