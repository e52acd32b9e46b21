/-
Reading a grammar artifact.

An artifact is the JSON text of a grammar.  Grammars and rules are records, so
each may be written as an object or as a list.  A rule inside a rule takes one
bracket of the budget for its parent when it is the content, and one more for
the list around it when it is a member.
-/
import TaintFlow.Grammar.Definition
import TaintFlow.Json.Record

namespace TaintFlow

open Json (Field Reader Record)

/-! ## Rules -/

/-- The value of a rule is a text or an integer of 32 bits. -/
def RuleValue.ofJson? : Json → Option RuleValue
  | .number (.int n) => if -0x80000000 ≤ n ∧ n < 0x80000000 then some (.level (.ofInt n)) else none
  | .string s => some (.text s)
  | _ => none

/-- Reads the value of a rule, of which null means that there is none. -/
def RuleValue.reader (budget : Nat) : Reader (Option RuleValue) :=
  .optional ((Reader.value budget).convert ofJson? (.unmatched "untagged enum RuleValue"))

def RuleKind.tags : List (String × RuleKind) := all.map fun kind => (kind.tag, kind)

namespace Rule

/-- Rules as records whose content and members are read by the given readers,
with at most `budget` brackets open at once inside the record. -/
def record (budget : Nat) (content member : Reader Rule) : Record Rule where
  title := "struct Rule"
  default := { kind := .blank }
  fields := [
    .of "type" (.tag budget RuleKind.tags) (fun kind rule => { rule with kind }) true,
    .of "value" (RuleValue.reader budget) fun value rule => { rule with value },
    .of "name" (.optional .string) fun name rule => { rule with name },
    .of "content" (.optional content) fun content rule => { rule with content },
    .of "members" (.list budget member) fun members rule => { rule with members },
    .of "named" (.optional .bool) fun named rule => { rule with named },
    .of "flags" (.optional .string) fun flags rule => { rule with flags },
    .of "context_name" (.optional .string) fun contextName rule => { rule with contextName }]

/-- The reader of rules that may open no bracket, and so reads none. -/
def closedReader : Reader Rule :=
  Record.reader 0 { title := "struct Rule", default := { kind := .blank }, fields := [] }

/-- Reads a rule with at most `budget` brackets open at once. -/
def reader : (budget : Nat) → Reader Rule
  | 0 => closedReader
  | 1 => .delay fun _ => (record 0 (reader 0) closedReader).reader 1
  | budget + 2 =>
    .delay fun _ => (record (budget + 1) (reader (budget + 1)) (reader budget)).reader (budget + 2)

def read (text : String) : Except Json.Failure Rule :=
  (reader Json.greatestDepth).readAll text.toList

end Rule

/-! ## Grammars -/

namespace Grammar

def rulesReader (budget : Nat) : Reader (List Rule) := .list budget (Rule.reader (budget - 1))

def namesReader (budget : Nat) : Reader (List String) := .list budget .string

def tableReader {α : Type} (budget : Nat) (value : Reader α) : Reader (Table α) :=
  (Reader.object budget value).map Table.ofEntries

/-- Grammars as records, with at most `budget` brackets open at once inside the
record. -/
def record (budget : Nat) : Record Grammar where
  title := "struct Grammar"
  default := { name := "", rules := .empty }
  fields := [
    .of "$schema" (.optional .string) fun schema grammar => { grammar with schema },
    .of "name" .string (fun name grammar => { grammar with name }) true,
    .of "inherits" (.optional .string) fun inherits grammar => { grammar with inherits },
    .of "rules" (tableReader budget (Rule.reader (budget - 1)))
      (fun rules grammar => { grammar with rules }) true,
    .of "extras" (rulesReader budget) fun extras grammar => { grammar with extras },
    .of "externals" (rulesReader budget) fun externals grammar => { grammar with externals },
    .of "inline" (namesReader budget) fun inline grammar => { grammar with inline },
    .of "precedences" (.list budget (rulesReader (budget - 1)))
      fun precedences grammar => { grammar with precedences },
    .of "conflicts" (.list budget (namesReader (budget - 1)))
      fun conflicts grammar => { grammar with conflicts },
    .of "reserved" (tableReader budget (rulesReader (budget - 1)))
      fun reserved grammar => { grammar with reserved },
    .of "word" (.optional .string) fun word grammar => { grammar with word },
    .of "supertypes" (namesReader budget) fun supertypes grammar => { grammar with supertypes }]

def reader (budget : Nat) : Reader Grammar := (record (budget - 1)).reader budget

def read (text : String) : Except Json.Failure Grammar :=
  (reader Json.greatestDepth).readAll text.toList

def readFailureMessage (failure : Json.Failure) : String :=
  "JSON parse error: " ++ failure.message

end Grammar
end TaintFlow
