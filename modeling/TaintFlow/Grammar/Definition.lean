/-
Grammars.

A grammar has its rules in a table, and beside them lists of rules and names
that say how the rules are to be used.
-/
import TaintFlow.Grammar.RuleTree
import TaintFlow.Grammar.Table
import TaintFlow.Text.Ordered

namespace TaintFlow

structure Grammar where
  schema : Option String := none
  name : String
  /-- The grammar that this one extends. -/
  inherits : Option String := none
  rules : Table Rule
  /-- What may stand between any two tokens. -/
  extras : List Rule := []
  /-- Tokens that are scanned outside the grammar. -/
  externals : List Rule := []
  /-- Names of rules that have no nodes of their own. -/
  inline : List String := []
  /-- Groups of precedences, each from the strongest to the weakest. -/
  precedences : List (List Rule) := []
  /-- Groups of rules that may conflict. -/
  conflicts : List (List String) := []
  reserved : Table (List Rule) := .empty
  /-- The rule that keywords are words of. -/
  word : Option String := none
  /-- Names of rules that group others. -/
  supertypes : List String := []

namespace Grammar

def rule? (grammar : Grammar) (name : String) : Option Rule := grammar.rules.get? name

def externalNames (grammar : Grammar) : List String := grammar.externals.filterMap Rule.name

/-- The precedence that an entry of a group declares: that of a fixed text or of
a symbol. -/
def declaredPrecedence (entry : Rule) : Option String := entry.stringValue <|> entry.symbolName

def declaredPrecedences (grammar : Grammar) : List String :=
  Text.ordered (grammar.precedences.flatten.filterMap declaredPrecedence)

/-- The names of the rules, in increasing order. -/
def ruleNames (grammar : Grammar) : List String := Text.ordered grammar.rules.keys

/-- The field names that the rules use, in increasing order. -/
def fieldNames (grammar : Grammar) : List String :=
  Text.ordered (grammar.rules.values.flatMap fun rule => rule.walk.filterMap Rule.fieldName)

end Grammar
end TaintFlow
