/-
The values that a log directive may give for a field: a number, or a pattern.

The words `true` and `false` and most numbers are patterns too.  A number with a
plus sign in front is none, because nothing stands there that could be repeated.
-/
import TaintFlow.Pattern.WellFormed

namespace TaintFlow
namespace Command
namespace FieldValue

def isDigits (text : List Char) : Bool := !text.isEmpty && text.all Char.isDigit

def withoutSign : List Char → List Char
  | '+' :: text | '-' :: text => text
  | text => text

/-- Whether a text is digits with a point among them, or none. -/
def isMantissa (text : List Char) : Bool :=
  match text.splitOn '.' with
  | [whole] => isDigits whole
  | [whole, fraction] => isDigits (whole ++ fraction)
  | _ => false

/-- Whether a text is a mantissa, perhaps with an exponent. -/
def isDecimal (text : List Char) : Bool :=
  let mantissa := text.takeWhile fun c => c ≠ 'e' && c ≠ 'E'
  isMantissa mantissa &&
    match text.drop mantissa.length with
    | [] => true
    | _ :: exponent => isDigits (withoutSign exponent)

/-- Whether a text is a decimal number, or the name of a number that is not finite
or of none. -/
def isNumber (text : List Char) : Bool :=
  let size := withoutSign text
  isDecimal size || ["inf", "infinity", "nan"].contains (String.ofList size).toLower

end FieldValue

def isFieldValue (text : List Char) : Bool :=
  FieldValue.isNumber text || Pattern.isWellFormed text

example : isFieldValue "+1.5e-3".toList = true ∧ isFieldValue "+1.5.3".toList = false := by
  decide +kernel

end Command
end TaintFlow
