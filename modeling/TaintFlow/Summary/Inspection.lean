/-
Inspecting a summary text, line by line.

The inspection needs no grammar.  It looks for the slips people make when they
write summaries by hand: a comma missing between two operations, parentheses
that do not balance, keys out of range and misspelt keywords on each line, and a
missing brace in the text as a whole.  Each line is judged without the blanks at
its ends, but columns count from the start of the whole line.
-/
import TaintFlow.Summary.Finding
import TaintFlow.Summary.Operation
import TaintFlow.Summary.Span
import TaintFlow.Text.Blank
import TaintFlow.Text.Search

namespace TaintFlow
namespace Summary

/-- A line of a text, without the blanks at its ends. -/
structure Line where
  row : Nat
  indent : Nat
  text : List Char

namespace Line

/-- The line that stands on a row, from all that is written there. -/
def trimmed (row : Nat) (raw : List Char) : Line := ⟨row, Text.indent raw, Text.trim raw⟩

def position (line : Line) (offset : Nat) : Position := ⟨line.row, line.indent + offset⟩

/-- The place behind the last character of the trimmed line. -/
def finish (line : Line) : Position := line.position line.text.length

def finding (line : Line) (kind : Finding.Kind) (start stop : Nat) (code : List Char) : Finding :=
  .about kind (line.position start) (line.position stop) code

/-- A line that closes a parenthesis, and has neither a comma nor a closing
brace, lacks a comma if an operation starts on the line after it. -/
def commaFindings (line : Line) (next : List Char) : List Finding :=
  let text := line.text
  if text.contains ')' && !text.contains ',' && !text.contains '}' &&
      startsOperation (Text.trim next) then
    [line.finding .missingComma text.length text.length text]
  else []

/-- A parenthesis left open is missed at the end of the line, one closed too
often at the first closing parenthesis. -/
def parenthesisFindings (line : Line) : List Finding :=
  let text := line.text
  let opens := text.count '('
  let closes := text.count ')'
  if closes < opens then
    [line.finding .missingCloseParen text.length text.length text]
  else if opens < closes then
    let start := text.idxOf ')'
    [line.finding .missingOpenParen start (start + 1) text]
  else []

def spanFinding (line : Line) (kind : Finding.Kind) (span : Span) : Finding :=
  line.finding kind span.start span.stop (span.text line.text)

def isInvalidKey (key : List Char) : Bool := !isKeyNumber (keyContent key)

def keyFindings (line : Line) : List Finding :=
  ((keySpans line.text).filter fun span => isInvalidKey (span.text line.text)).map
    (line.spanFinding .invalidKey)

/-- A word that holds a piece of a keyword and is no keyword is a misspelt one. -/
def isMisspeltKeyword (word : List Char) : Bool :=
  Operation.fragments.any (fun fragment => Text.contains fragment word) &&
    !Operation.keywords.contains word

def wordFindings (line : Line) : List Finding :=
  ((wordSpans line.text).filter fun span => isMisspeltKeyword (span.text line.text)).map
    (line.spanFinding .unknownOperation)

/-- All findings of a line, given the line after it. -/
def findings (line : Line) (next : List Char) : List Finding :=
  line.commaFindings next ++ line.parenthesisFindings ++ line.keyFindings ++ line.wordFindings

end Line

/-- The findings of the lines from `row` on.  Nothing follows the last line. -/
def lineFindings (row : Nat) : List (List Char) → List Finding
  | [] => []
  | raw :: rest => (Line.trimmed row raw).findings (rest.headD []) ++ lineFindings (row + 1) rest

/-- The opening brace is missed at the start of the text, the closing one at the
end of its last line. -/
def braceFindings (lines : List (List Char)) : List Finding :=
  let origin : Position := ⟨0, 0⟩
  let finish : Position := ⟨lines.length - 1, (lines.getLastD []).length⟩
  (if lines.any (·.contains '{') then [] else [.about .missingOpenBrace origin origin []]) ++
    (if lines.any (·.contains '}') then [] else [.about .missingClosingBrace finish finish []])

/-- The findings of a text: those of its lines from top to bottom, then the
missing braces. -/
def inspect (source : String) : List Finding :=
  let lines := Text.lines source.toList
  lineFindings 0 lines ++ braceFindings lines

end Summary
end TaintFlow
