/-
JSON values.

An object is a list of entries in document order; a key may occur more than
once.  A number that is written without a fraction and an exponent, and fits 64
bits, is an integer; every other number is a double with a sign, so that minus
zero is a number of its own.
-/
import TaintFlow.Decimal.Double

namespace TaintFlow

namespace Json

inductive Number where
  | int (n : Int)
  | real (negative : Bool) (magnitude : Decimal.Double)
  deriving DecidableEq, Repr

end Json

inductive Json where
  | null
  | bool (b : Bool)
  | number (n : Json.Number)
  | string (s : String)
  | list (items : List Json)
  | object (entries : List (String × Json))

end TaintFlow
