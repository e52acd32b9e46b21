/-
Writing a listing on a machine.

The findings of a listing need not come from an inspection, and may stand anywhere.  So
their lines and columns are counted, and their markers drawn, as far as the machine can
count and hold texts.  What is written is the listing, unless the machine stops or
counts a line wrong.
-/
import TaintFlow.Machine
import TaintFlow.Summary.Listing

namespace TaintFlow
namespace Summary

namespace Finding

/-- The marker.  The columns are compared before one is taken from the other. -/
def writeMarker (machine : Machine) (finding : Finding) : Except Halt String := do
  let blanks ← machine.fill ' ' finding.start.column
  let caret ← machine.append blanks "^"
  if finding.start.row = finding.finish.row then
    let next ← machine.add finding.start.column 1
    if next < finding.finish.column then
      let width ← machine.sub finding.finish.column finding.start.column
      let further ← machine.sub width 1
      let tildes ← machine.fill '~' further
      machine.append caret tildes
    else return caret
  else return caret

/-- A text with the block of the `number`-th finding behind it. -/
def writeBlock (machine : Machine) (sourceLines : List (List Char)) (number : Nat)
    (text : String) (finding : Finding) : Except Halt String := do
  let marker ← finding.writeMarker machine
  let text ← machine.append text (joinLines [finding.blockHead number])
  let line ← machine.add finding.start.row 1
  let column ← machine.add finding.start.column 1
  machine.append text (joinLines (finding.blockBody sourceLines line column marker))

end Finding

/-- A text with the blocks of the findings behind it. -/
def writeBlocks (machine : Machine) (sourceLines : List (List Char)) (number : Nat)
    (text : String) : List Finding → Except Halt String
  | [] => return text
  | finding :: rest => do
    let text ← finding.writeBlock machine sourceLines number text
    writeBlocks machine sourceLines (number + 1) text rest

/-- The listing of the findings of a text, as a machine writes it. -/
def write (machine : Machine) (findings : List Finding) (source : String)
    (path : Option String) : Except Halt String :=
  if findings.isEmpty then machine.append "" "No syntax errors found"
  else do
    let head ← machine.append "" (joinLines [headLine findings.length path, ""])
    writeBlocks machine (Text.lines source.toList) 1 head findings

end Summary
end TaintFlow
