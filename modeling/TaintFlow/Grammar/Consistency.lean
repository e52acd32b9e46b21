/-
Checking a grammar.

A grammar without a defect passes, with notices about what is merely odd: rules
that cannot be reached, then rules that are left-recursive, then rules with
several precedence levels.  A grammar with a defect gets no notices.
-/
import TaintFlow.Grammar.Defect
import TaintFlow.Grammar.LeftRecursion
import TaintFlow.Grammar.PrecedenceLevels
import TaintFlow.Grammar.Reachability
import TaintFlow.Notice

namespace TaintFlow
namespace Grammar

/-- The notices about a grammar that is used from `start`. -/
def oddities (grammar : Grammar) (start : String) : List Notice :=
  (grammar.unreachableRules start).map (.unreachableRule grammar.name) ++
    grammar.leftRecursiveRules.map (.leftRecursiveRule grammar.name) ++
    grammar.mixedLevels.map fun (rule, levels) =>
      .multiplePrecedenceLevels grammar.name rule levels

def check (grammar : Grammar) (start : String) : Logged (Except Defect Unit) :=
  match grammar.defect? start with
  | some defect => { result := .error defect }
  | none => { result := .ok (), notices := grammar.oddities start }

end Grammar
end TaintFlow
