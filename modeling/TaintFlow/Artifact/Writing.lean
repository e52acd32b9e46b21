/-
Writing a grammar artifact.

A rule is written as an object of the fields that it has, a grammar as an object
of all its lists and tables and of the single fields that it has.
-/
import TaintFlow.Grammar.Definition
import TaintFlow.Json.Printer

namespace TaintFlow

def RuleValue.toJson : RuleValue → Json
  | level n => .number (.int n.toInt)
  | text s => .string s

namespace Rule

/-- The entry of a field, if it is there. -/
def entry {α : Type} (key : String) (toJson : α → Json) (field : Option α) : List (String × Json) :=
  (field.map fun a => (key, toJson a)).toList

mutual
/-- A rule as an object.  What stands for another name comes before that name. -/
def toJson : Rule → Json
  | { kind, value, name, content, members, named, flags, contextName } =>
    let value := entry "value" RuleValue.toJson value
    let name := entry "name" .string name
    let content := contentToJson content
    let members := if members.isEmpty then [] else [("members", .list (membersToJson members))]
    let named := entry "named" .bool named
    let flags := entry "flags" .string flags
    let contextName := entry "context_name" .string contextName
    .object <| ("type", .string kind.tag) ::
      if kind = .renamed then content ++ named ++ value ++ name ++ members ++ flags ++ contextName
      else value ++ name ++ content ++ members ++ named ++ flags ++ contextName

def contentToJson : Option Rule → List (String × Json)
  | none => []
  | some rule => [("content", toJson rule)]

def membersToJson : List Rule → List Json
  | [] => []
  | rule :: rest => toJson rule :: membersToJson rest
end

end Rule

namespace Grammar

def rulesToJson (rules : List Rule) : Json := .list (rules.map Rule.toJson)

def namesToJson (names : List String) : Json := .list (names.map .string)

def tableToJson {α : Type} (toJson : α → Json) (table : Table α) : Json :=
  .object (table.entries.map fun (key, a) => (key, toJson a))

def toJson (grammar : Grammar) : Json :=
  .object <|
    Rule.entry "$schema" .string grammar.schema ++
    [("name", .string grammar.name)] ++
    Rule.entry "inherits" .string grammar.inherits ++
    [("rules", tableToJson Rule.toJson grammar.rules),
      ("extras", rulesToJson grammar.extras),
      ("conflicts", .list (grammar.conflicts.map namesToJson)),
      ("precedences", .list (grammar.precedences.map rulesToJson)),
      ("externals", rulesToJson grammar.externals),
      ("inline", namesToJson grammar.inline)] ++
    Rule.entry "word" .string grammar.word ++
    [("supertypes", namesToJson grammar.supertypes),
      ("reserved", tableToJson rulesToJson grammar.reserved)]

def artifactText (grammar : Grammar) : String := grammar.toJson.text ++ "\n"

end Grammar
end TaintFlow
