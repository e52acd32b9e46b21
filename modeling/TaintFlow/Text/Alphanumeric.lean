/-
Letters and digits.

A character is alphanumeric when it is alphabetic or numeric.
-/
import TaintFlow.Text.Alphabetic
import TaintFlow.Text.Numeric

namespace TaintFlow
namespace Text

def isAlphanumeric (c : Char) : Bool := isAlphabetic c || isNumeric c

end Text
end TaintFlow
