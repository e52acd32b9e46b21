/-
The operations of a taint summary.

A summary says what a call does with the taint of its arguments:

  `{ setSink(<0>), transitive(<1>, <-1>) }`

Four operations exist, each with a keyword of its own.
-/
namespace TaintFlow
namespace Summary

inductive Operation where
  | setSink
  | transitive
  | sanitize
  | swapTaint
  deriving DecidableEq, Repr

namespace Operation

def keyword : Operation → String
  | setSink => "setSink"
  | transitive => "transitive"
  | sanitize => "sanitize"
  | swapTaint => "swapTaint"

/-- The operations in the order in which they are offered as suggestions. -/
def all : List Operation := [setSink, transitive, sanitize, swapTaint]

def keywords : List (List Char) := all.map fun op => op.keyword.toList

/-- Pieces that a word has only when it is meant as a keyword. -/
def fragments : List (List Char) :=
  ["Sink".toList, "transitive".toList, "sanitize".toList, "swap".toList]

end Operation

def startsOperation (text : List Char) : Bool :=
  Operation.keywords.any fun keyword => keyword.isPrefixOf text

end Summary
end TaintFlow
