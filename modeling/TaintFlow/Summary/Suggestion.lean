/-
What to do about a finding.

For a misspelt keyword the suggestion names the keyword at the least edit
distance, the first of them in the order of `Operation.all`.
-/
import TaintFlow.Summary.Finding
import TaintFlow.Summary.Operation
import TaintFlow.Text.EditDistance

namespace TaintFlow
namespace Summary

def Operation.distance (word : String) (op : Operation) : Nat :=
  Text.editDistance word.toList op.keyword.toList

/-- Of two operations the one nearer to the word, the first if both are as near. -/
def Operation.nearer (word : String) (first second : Operation) : Operation :=
  if second.distance word < first.distance word then second else first

def Operation.nearest (word : String) : Operation :=
  [transitive, sanitize, swapTaint].foldl (nearer word) setSink

namespace Finding

/-- The suggestion for a finding of the given kind about the text `code`. -/
def Kind.suggestion (kind : Kind) (code : String) : String :=
  match kind with
  | missingComma => "add a comma \",\""
  | missingCloseParen => "add a closing parenthesis \")\""
  | missingOpenParen => "add an opening parenthesis \"(\""
  | invalidKey => "keys must be integers from -1 to 9, written as <n>"
  | unknownOperation =>
    "unknown operation name \"" ++ code ++ "\", did you mean \"" ++
      (Operation.nearest code).keyword ++ "\"?"
  | missingOpenBrace => "add an opening brace \"\x7b\""
  | missingClosingBrace => "add a closing brace \"\x7d\""

def suggestion (finding : Finding) : String := finding.kind.suggestion finding.code

end Finding
end Summary
end TaintFlow
