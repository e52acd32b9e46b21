/-
Listings: findings written out for people.

A listing opens with the number of findings and the path of the text.  Each
finding then has a block of six lines: its message, its place counted from one,
the line it starts on, a marker under the place, the suggestion, and an empty
line.
-/
import TaintFlow.Summary.Suggestion
import TaintFlow.Text.Search

namespace TaintFlow
namespace Summary

namespace Finding

/-- The number of characters the marker covers: at least one, and only on the
first row. -/
def markedWidth (finding : Finding) : Nat :=
  if finding.start.row = finding.finish.row then
    max 1 (finding.finish.column - finding.start.column)
  else 1

/-- A caret under the first marked character, a tilde under each further one. -/
def marker (finding : Finding) : List Char :=
  List.replicate finding.start.column ' ' ++ '^' :: List.replicate (finding.markedWidth - 1) '~'

/-- The line of a block that says which finding it is about. -/
def blockHead (number : Nat) (finding : Finding) : String :=
  "Error #" ++ number.repr ++ ": " ++ finding.message

/-- The lines of a block below the first one. -/
def blockBody (sourceLines : List (List Char)) (line column : Nat) (marker : String)
    (finding : Finding) : List String :=
  ["Location: line " ++ line.repr ++ ", column " ++ column.repr,
    "Code: " ++ String.ofList (sourceLines.getD finding.start.row []),
    "      " ++ marker,
    "Suggestion: " ++ finding.suggestion,
    ""]

/-- The lines of the block of the `number`-th finding, which starts on line `line`. -/
def block (sourceLines : List (List Char)) (number line : Nat) (finding : Finding) :
    List String :=
  finding.blockHead number ::
    finding.blockBody sourceLines line (finding.start.column + 1) (String.ofList finding.marker)

end Finding

/-- The blocks of findings, with the line of each counted by `lineOf` from its row. -/
def blocks (lineOf : Nat → Nat) (sourceLines : List (List Char)) (number : Nat) :
    List Finding → List String
  | [] => []
  | finding :: rest =>
    finding.block sourceLines number (lineOf finding.start.row) ++
      blocks lineOf sourceLines (number + 1) rest

/-- Lines one below the other, each with a line feed at its end. -/
def joinLines (lines : List String) : String := String.join (lines.map (· ++ "\n"))

def unknownPath : String := "<unknown>"

/-- The sentence at the top of a listing. -/
def headLine (count : Nat) (path : Option String) : String :=
  "Found " ++ count.repr ++ " error(s) in " ++ path.getD unknownPath ++ ":"

/-- The listing of the findings of a text, with the line of each counted by `lineOf`.
Every line of it ends in a line feed, but the one sentence that says there are no
findings. -/
def listingBy (lineOf : Nat → Nat) (findings : List Finding) (source : String)
    (path : Option String) : String :=
  if findings.isEmpty then "No syntax errors found"
  else
    joinLines (headLine findings.length path :: "" ::
      blocks lineOf (Text.lines source.toList) 1 findings)

/-- The listing of the findings of a text.  Its lines are counted from one. -/
def listing (findings : List Finding) (source : String) (path : Option String) : String :=
  listingBy (· + 1) findings source path

end Summary
end TaintFlow
