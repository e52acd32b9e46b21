/-
Numerals: the number tokens of a JSON text.

A numeral is an optional minus sign, a whole part without superfluous zeros, and
optionally a fraction and an exponent.  Its value is an integer when it has
neither of the two and fits 64 bits.  Otherwise it is a double: the digits are
taken as one significand, as long as that fits 64 bits, and the power of ten
that is left over is applied to its double.
-/
import TaintFlow.Json.Scan

namespace TaintFlow
namespace Json

structure Exponent where
  negative : Bool
  digits : List Char
  deriving DecidableEq, Repr

structure Numeral where
  negative : Bool
  whole : List Char
  /-- The digits behind the point; none when there is no point. -/
  fraction : List Char
  exponent : Option Exponent
  deriving DecidableEq, Repr

/-! ## Scanning

The cause of a fault at the end of the text is an argument: a numeral that is
only skipped is called invalid there. -/

/-- The whole part of a numeral: a zero, or digits that do not start with one. -/
def wholePart (atEnd : Cause) : Input → Outcome (List Char)
  | [] => .error (.behind atEnd [])
  | c :: rest =>
    if c = '0' then
      match rest with
      | d :: _ => if d.isDigit then .error (.next .invalidNumber rest) else .ok ([c], rest)
      | [] => .ok ([c], rest)
    else if c.isDigit then .ok (c :: rest.takeWhile Char.isDigit, rest.dropWhile Char.isDigit)
    else .error (.next .invalidNumber (c :: rest))

def fractionPart (atEnd : Cause) : Input → Outcome (List Char)
  | '.' :: rest =>
    match rest with
    | [] => .error (.next atEnd [])
    | d :: _ =>
      if d.isDigit then .ok (rest.takeWhile Char.isDigit, rest.dropWhile Char.isDigit)
      else .error (.next .invalidNumber rest)
  | text => .ok ([], text)

/-- The sign of an exponent, and whether it is negative. -/
def exponentSign : Input → Bool × Input
  | '+' :: rest => (false, rest)
  | '-' :: rest => (true, rest)
  | text => (false, text)

def exponentPart (atEnd : Cause) : Input → Outcome (Option Exponent)
  | [] => .ok (none, [])
  | c :: rest =>
    if c = 'e' ∨ c = 'E' then
      match (exponentSign rest).2 with
      | [] => .error (.behind atEnd [])
      | d :: rest' =>
        if d.isDigit then
          .ok (some ⟨(exponentSign rest).1, d :: rest'.takeWhile Char.isDigit⟩,
            rest'.dropWhile Char.isDigit)
        else .error (.next .invalidNumber (d :: rest'))
    else .ok (none, c :: rest)

/-- A numeral behind its sign. -/
def unsignedNumeral (atEnd : Cause) (negative : Bool) (text : Input) : Outcome Numeral :=
  match wholePart atEnd text with
  | .error fault => .error fault
  | .ok (whole, text) =>
    match fractionPart atEnd text with
    | .error fault => .error fault
    | .ok (fraction, text) =>
      match exponentPart atEnd text with
      | .error fault => .error fault
      | .ok (exponent, text) => .ok (⟨negative, whole, fraction, exponent⟩, text)

def numeral (atEnd : Cause) : Input → Outcome Numeral
  | '-' :: rest => unsignedNumeral atEnd true rest
  | text => unsignedNumeral atEnd false text

def startsNumeral (c : Char) : Bool := c == '-' || c.isDigit

theorem length_lt_of_wholePart {atEnd : Cause} {text rest : Input} {ds : List Char}
    (h : wholePart atEnd text = .ok (ds, rest)) : rest.length < text.length := by
  unfold wholePart at h
  split at h
  · cases h
  · next c tail =>
    split at h
    · split at h
      · split at h
        · cases h
        · cases h; simp
      · cases h; simp
    · split at h
      · cases h
        have := (List.dropWhile_sublist (l := tail) Char.isDigit).length_le
        simp only [List.length_cons]; omega
      · cases h

theorem length_le_of_fractionPart {atEnd : Cause} {text rest : Input} {ds : List Char}
    (h : fractionPart atEnd text = .ok (ds, rest)) : rest.length ≤ text.length := by
  unfold fractionPart at h
  split at h
  · split at h
    · cases h
    · next d tail =>
      split at h
      · cases h
        have := (List.dropWhile_sublist (l := d :: tail) Char.isDigit).length_le
        exact Nat.le_succ_of_le this
      · cases h
  · cases h; exact Nat.le_refl _

theorem length_exponentSign_le (text : Input) : (exponentSign text).2.length ≤ text.length := by
  unfold exponentSign
  split <;> simp

theorem length_le_of_exponentPart {atEnd : Cause} {text rest : Input} {e : Option Exponent}
    (h : exponentPart atEnd text = .ok (e, rest)) : rest.length ≤ text.length := by
  unfold exponentPart at h
  split at h
  · cases h; exact Nat.le_refl _
  · next c tail =>
    split at h
    · have hs := length_exponentSign_le tail
      split at h
      · cases h
      · next d left heq =>
        split at h
        · cases h
          have := (List.dropWhile_sublist (l := left) Char.isDigit).length_le
          rw [heq] at hs
          simp only [List.length_cons] at hs ⊢; omega
        · cases h
    · cases h; exact Nat.le_refl _

theorem length_lt_of_unsignedNumeral {atEnd : Cause} {negative : Bool} {text rest : Input}
    {n : Numeral} (h : unsignedNumeral atEnd negative text = .ok (n, rest)) :
    rest.length < text.length := by
  unfold unsignedNumeral at h
  split at h
  · cases h
  · next hw =>
    split at h
    · cases h
    · next hf =>
      split at h
      · cases h
      · next he =>
        cases h
        have := length_lt_of_wholePart hw
        have := length_le_of_fractionPart hf
        have := length_le_of_exponentPart he
        omega

theorem length_lt_of_numeral {atEnd : Cause} {text rest : Input} {n : Numeral}
    (h : numeral atEnd text = .ok (n, rest)) : rest.length < text.length := by
  unfold numeral at h
  split at h
  · have := length_lt_of_unsignedNumeral h
    simp only [List.length_cons]; omega
  · exact length_lt_of_unsignedNumeral h

/-! ## Values -/

def digitValue (c : Char) : Nat := c.toNat - '0'.toNat

/-- Significands stay below this bound. -/
def significandBound : Nat := 0x10000000000000000

/-- Appends digits to a significand as long as it stays below the bound, and
returns the digits that are left. -/
def appendDigits (significand : Nat) : List Char → Nat × List Char
  | [] => (significand, [])
  | d :: ds =>
    let next := significand * 10 + digitValue d
    if next < significandBound then appendDigits next ds else (significand, d :: ds)

/-- The greatest exponent that is taken at its value. -/
def greatestExponent : Nat := 0x7FFFFFFF

/-- The value of the digits of an exponent, appended to `value`.  When it grows
beyond the greatest one, the digits that are left are returned instead. -/
def exponentValue (value : Nat) : List Char → Except (List Char) Nat
  | [] => .ok value
  | d :: ds =>
    let next := value * 10 + digitValue d
    if next ≤ greatestExponent then exponentValue next ds else .error ds

/-- The double `significand * 10 ^ exponent` with a sign. -/
def realValue (negative : Bool) (significand : Nat) (exponent : Int) (rest : Input) :
    Except Fault Number :=
  match (Decimal.Double.ofNat significand).bind (·.scaleTen exponent) with
  | some x => .ok (.real negative x)
  | none => .error (.behind .numberOutOfRange rest)

/-- The integer of a sign and a significand.  Minus zero, and what is below the
least 64-bit integer, are doubles. -/
def integerValue (negative : Bool) (significand : Nat) (rest : Input) : Except Fault Number :=
  if !negative then .ok (.int significand)
  else if significand = 0 || 0x8000000000000000 < significand then realValue true significand 0 rest
  else .ok (.int (-significand))

namespace Numeral

/-- The significand, and the power of ten that the digits alone leave over. -/
def significand (n : Numeral) : Nat × Int :=
  let (whole, left) := appendDigits 0 n.whole
  let (significand, unused) := appendDigits whole n.fraction
  (significand, (left.length : Int) - (n.fraction.length - unused.length : Nat))

/-- The value of a numeral that is followed by `rest`.  A double may be out of
range. -/
def value (n : Numeral) (rest : Input) : Except Fault Number :=
  let (significand, power) := n.significand
  match n.exponent with
  | none =>
    if n.fraction.isEmpty && power == 0 then integerValue n.negative significand rest
    else realValue n.negative significand power rest
  | some exponent =>
    match exponentValue 0 exponent.digits with
    | .ok e =>
      realValue n.negative significand (if exponent.negative then power - e else power + e) rest
    | .error left =>
      if significand ≠ 0 && !exponent.negative then
        .error (.behind .numberOutOfRange (left ++ rest))
      else .ok (.real n.negative .zero)

end Numeral

end Json
end TaintFlow
