/-
Writing JSON values.

Lists and objects are laid out over several lines, two spaces deeper inside each
pair of brackets, an entry to a line.  An empty list or object stays on its
line.
-/
import TaintFlow.Decimal.Shortest
import TaintFlow.Json.Value

namespace TaintFlow
namespace Json

/-! ## Numbers -/

/-- Decimal exponents from this one on are written positionally. -/
def leastPositionalExponent : Int := -5

/-- Decimal exponents up to this one are written positionally. -/
def greatestPositionalExponent : Int := 15

/-- A number with the point behind the digit of weight `10 ^ exponent`.  At least
one digit stands on either side of the point. -/
def positional (digits : List Char) (exponent : Int) : List Char :=
  if exponent < 0 then
    '0' :: '.' :: (List.replicate (-exponent - 1).toNat '0' ++ digits)
  else
    let whole := exponent.toNat + 1
    let fraction := digits.drop whole
    (digits.take whole).rightpad whole '0' ++
      '.' :: (if fraction.isEmpty then ['0'] else fraction)

/-- A number with one digit before the point, and the exponent with its sign. -/
def scientific (digits : List Char) (exponent : Int) : List Char :=
  let fraction := digits.drop 1
  digits.take 1 ++ (if fraction.isEmpty then [] else '.' :: fraction) ++
    'e' :: (if exponent < 0 then '-' else '+') :: exponent.natAbs.repr.toList

/-- The shortest text of a double that tells it from an integer. -/
def doubleText (x : Decimal.Double) : List Char :=
  if x.isZero then ['0', '.', '0']
  else
    let decimal := x.shortest
    let digits := decimal.digits.repr.toList
    let exponent := decimal.exponent + (digits.length - 1)
    if leastPositionalExponent ≤ exponent && exponent ≤ greatestPositionalExponent then
      positional digits exponent
    else scientific digits exponent

def Number.text : Number → List Char
  | .int n => n.repr.toList
  | .real negative x => (if negative then ['-'] else []) ++ doubleText x

/-! ## Strings -/

/-- A code unit escape with four hexadecimal digits. -/
def unitEscape (n : Nat) : List Char :=
  '\\' :: 'u' :: (Nat.toDigits 16 n).leftpad 4 '0'

/-- The characters that a string may not hold as they are have an escape. -/
def escape (c : Char) : List Char :=
  match c with
  | '"' => ['\\', '"']
  | '\\' => ['\\', '\\']
  | '\n' => ['\\', 'n']
  | '\r' => ['\\', 'r']
  | '\t' => ['\\', 't']
  | c => if c.toNat < 0x20 then unitEscape c.toNat else [c]

def stringText (s : String) : List Char := '"' :: s.toList.flatMap escape ++ ['"']

/-! ## Values -/

def newLine (depth : Nat) : List Char := '\n' :: List.replicate (2 * depth) ' '

mutual
/-- The text of a value whose brackets are `depth` brackets deep. -/
def textAt (depth : Nat) : Json → List Char
  | .null => "null".toList
  | .bool true => "true".toList
  | .bool false => "false".toList
  | .number n => n.text
  | .string s => stringText s
  | .list [] => ['[', ']']
  | .list (item :: items) =>
    '[' :: newLine (depth + 1) ++ textAt (depth + 1) item ++ itemsText (depth + 1) items ++
      newLine depth ++ [']']
  | .object [] => ['{', '}']
  | .object (entry :: entries) =>
    '{' :: newLine (depth + 1) ++ entryText (depth + 1) entry ++
      entriesText (depth + 1) entries ++ newLine depth ++ ['}']

/-- The text of the items after the first. -/
def itemsText (depth : Nat) : List Json → List Char
  | [] => []
  | item :: items => ',' :: newLine depth ++ textAt depth item ++ itemsText depth items

def entryText (depth : Nat) : String × Json → List Char
  | (key, value) => stringText key ++ ':' :: ' ' :: textAt depth value

/-- The text of the entries after the first. -/
def entriesText (depth : Nat) : List (String × Json) → List Char
  | [] => []
  | entry :: entries => ',' :: newLine depth ++ entryText depth entry ++ entriesText depth entries
end

def text (value : Json) : String := String.ofList (textAt 0 value)

end Json
end TaintFlow
