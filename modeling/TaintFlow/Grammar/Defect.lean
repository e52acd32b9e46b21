/-
Defects: why a grammar cannot be used.

A grammar is usable from a start rule when the start rule exists, every symbol
in a rule names a rule or an external token, every precedence name in a rule is
declared, and every member of a conflict group is a rule.  `defect?` finds the
first violation.  Rules are looked at in increasing order of their names, and
each in pre-order.
-/
import TaintFlow.Grammar.Definition
import TaintFlow.Text.Quoted

namespace TaintFlow

inductive Defect where
  | missingStart (start : String)
  | undefinedSymbol (symbol rule : String)
  | undeclaredPrecedence (precedence rule : String)
  | undefinedConflictMember (symbol : String) (group : List String)
  deriving DecidableEq

def Defect.message : Defect → String
  | missingStart start => "start rule '" ++ start ++ "' is not defined"
  | undefinedSymbol symbol rule =>
    "undefined symbol '" ++ symbol ++ "' referenced in rule '" ++ rule ++ "'"
  | undeclaredPrecedence precedence rule =>
    "undeclared precedence '" ++ precedence ++ "' used in rule '" ++ rule ++ "'"
  | undefinedConflictMember symbol group =>
    "conflict group " ++ Text.quotedList group ++ " references undefined rule '" ++ symbol ++ "'"

namespace Grammar

/-- Whether a symbol may refer to this name. -/
def defines (grammar : Grammar) (name : String) : Bool :=
  grammar.rules.contains name || grammar.externalNames.contains name

/-- Whether a rule may use a precedence of this name. -/
def declares (grammar : Grammar) (precedence : String) : Bool :=
  grammar.declaredPrecedences.contains precedence

def undefinedSymbol? (grammar : Grammar) : Option Defect :=
  grammar.rules.sorted.findSome? fun (name, rule) =>
    (rule.references.find? fun symbol => !grammar.defines symbol).map (.undefinedSymbol · name)

def undeclaredPrecedence? (grammar : Grammar) : Option Defect :=
  grammar.rules.sorted.findSome? fun (name, rule) =>
    (rule.precedenceNames.find? fun precedence => !grammar.declares precedence).map
      (.undeclaredPrecedence · name)

def undefinedConflictMember? (grammar : Grammar) : Option Defect :=
  grammar.conflicts.findSome? fun group =>
    (group.find? fun symbol => !grammar.rules.contains symbol).map
      (.undefinedConflictMember · group)

def defect? (grammar : Grammar) (start : String) : Option Defect :=
  if !grammar.rules.contains start then some (.missingStart start)
  else grammar.undefinedSymbol? <|> grammar.undeclaredPrecedence? <|>
    grammar.undefinedConflictMember?

end Grammar
end TaintFlow
