/-
Left recursion.

A rule is left-recursive when it may start with itself.  The test follows what a
tree starts with: any member of a choice, the first member of a sequence, the
content of a precedence, a field, another name or a repetition.  It does not ask
whether the first member of a sequence can be empty.
-/
import TaintFlow.Grammar.Definition

namespace TaintFlow
namespace Rule

mutual
/-- Whether a tree may start with the rule of the given name. -/
def startsWith (name : String) : Rule → Bool
  | { kind, name := symbol, content, members, .. } =>
    match kind with
    | .symbol => symbol == some name
    | .seq => firstStartsWith name members
    | .choice => anyStartsWith name members
    | .prec | .precLeft | .precRight | .precDynamic | .field | .renamed | .repetition
    | .repetition1 => contentStartsWith name content
    | _ => false

def contentStartsWith (name : String) : Option Rule → Bool
  | none => false
  | some rule => startsWith name rule

def firstStartsWith (name : String) : List Rule → Bool
  | [] => false
  | rule :: _ => startsWith name rule

def anyStartsWith (name : String) : List Rule → Bool
  | [] => false
  | rule :: rest => startsWith name rule || anyStartsWith name rest
end

end Rule

namespace Grammar

/-- The rules that may start with themselves, in increasing order. -/
def leftRecursiveRules (grammar : Grammar) : List String :=
  (grammar.rules.sorted.filter fun (name, rule) => rule.startsWith name).map Prod.fst

end Grammar
end TaintFlow
