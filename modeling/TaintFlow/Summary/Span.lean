/-
Keys and words of a line, as spans.

A span is a stretch of a line, from `start` up to but not including `stop`.
Both scanners make one pass over the line and carry the place where the current
key or word was opened.
-/
namespace TaintFlow
namespace Summary

structure Span where
  start : Nat
  stop : Nat
  deriving DecidableEq, Repr

/-- The characters of the line that the span covers. -/
def Span.text (line : List Char) (span : Span) : List Char :=
  (line.drop span.start).take (span.stop - span.start)

/-! ## Keys

A key runs from the first `<` after the previous `>` up to the next `>`, and has
at least one character between the two. -/

/-- The keys of the text that starts at column `at`.  `opened` is the column of
the first `<` since the last `>`. -/
def keySpansFrom (column : Nat) (opened : Option Nat) : List Char → List Span
  | [] => []
  | '>' :: rest =>
    (match opened with
      | some start => if start + 1 < column then [⟨start, column + 1⟩] else []
      | none => []) ++ keySpansFrom (column + 1) none rest
  | '<' :: rest => keySpansFrom (column + 1) (opened.or (some column)) rest
  | _ :: rest => keySpansFrom (column + 1) opened rest

def keySpans (line : List Char) : List Span := keySpansFrom 0 none line

/-- The number in a key is one digit, perhaps after a minus sign. -/
def isKeyNumber : List Char → Bool
  | [d] => d.isDigit
  | [sign, d] => sign == '-' && d.isDigit
  | _ => false

/-- A key's text without the angle brackets around it. -/
def keyContent (key : List Char) : List Char := (key.drop 1).dropLast

/-! ## Words

A word is a run of ASCII letters that no letter extends to either side. -/

/-- The word from `opened` up to `column`, if one was opened. -/
def closeWord (column : Nat) (opened : Option Nat) : List Span :=
  (opened.map fun start => ⟨start, column⟩).toList

/-- The words of the text that starts at column `at`.  `opened` is the column of
the first letter of the word that reaches up to there. -/
def wordSpansFrom (column : Nat) (opened : Option Nat) : List Char → List Span
  | [] => closeWord column opened
  | c :: rest =>
    if c.isAlpha then wordSpansFrom (column + 1) (opened.or (some column)) rest
    else closeWord column opened ++ wordSpansFrom (column + 1) none rest

def wordSpans (line : List Char) : List Span := wordSpansFrom 0 none line

end Summary
end TaintFlow
