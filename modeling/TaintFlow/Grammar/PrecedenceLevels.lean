/-
Precedence levels.

A rule that mixes several precedence levels is worth a notice.  The levels of a
rule are the numbers on its precedences, each once, as they first come in
pre-order.  They are noted rule by rule in whatever order the table has, and the
notes are kept in increasing order of names.
-/
import TaintFlow.Grammar.Definition

namespace TaintFlow

/-- The distinct precedence levels of a tree, in the order of their first use. -/
def Rule.levels (rule : Rule) : List Int32 := rule.precedences.eraseDups

/-- The levels of a rule, with one more unless it is there. -/
def addLevel (levels : List Int32) (level : Int32) : List Int32 :=
  if levels.contains level then levels else levels ++ [level]

/-- Notes a level under the name of a rule. -/
def noteLevel (name : String) (level : Int32) :
    List (String × List Int32) → List (String × List Int32)
  | [] => [(name, [level])]
  | note :: rest =>
    if name = note.1 then (name, addLevel note.2 level) :: rest
    else if name < note.1 then (name, [level]) :: note :: rest
    else note :: noteLevel name level rest

/-- Notes the levels that a rule uses. -/
def noteRule (notes : List (String × List Int32)) (entry : String × Rule) :
    List (String × List Int32) :=
  entry.2.precedences.foldl (fun notes level => noteLevel entry.1 level notes) notes

/-- The rules that use precedence levels, in increasing order, with their levels. -/
def Grammar.levelNotes (grammar : Grammar) : List (String × List Int32) :=
  grammar.rules.entries.foldl noteRule []

/-- The rules with several precedence levels, in increasing order, with their
levels. -/
def Grammar.mixedLevels (grammar : Grammar) : List (String × List Int32) :=
  grammar.levelNotes.filter fun (_, levels) => 1 < levels.length

end TaintFlow
