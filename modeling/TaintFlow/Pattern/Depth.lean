/-
The depth of the parts of a pattern.

Atoms have depth zero.  A part that is made of other parts is one level deeper
than the deepest of them.
-/
namespace TaintFlow
namespace Pattern

/-- The depth of parts that stand together.  Two or more make a new part, and a
single one stays as it is. -/
def depthTogether : List Nat → Nat
  | [] => 0
  | [depth] => depth
  | depths => depths.foldl max 0 + 1

def maxDepth : Nat := 250

end Pattern
end TaintFlow
