/-
Findings: what can be wrong with a summary text, and where.

A finding has one of seven kinds.  `Kind.id` is its stable name, `Kind.message`
its sentence for people, built from the kind and the text found.  Rows and
columns count from zero, and a column counts characters.
-/
namespace TaintFlow
namespace Summary

/-- A place in a text.  Texts are as long as one likes here, so the numbers have no
bound; a machine, which counts in words, comes in where a listing is written. -/
structure Position where
  row : Nat
  column : Nat
  deriving DecidableEq, Repr

namespace Finding

inductive Kind where
  | missingComma
  | missingCloseParen
  | missingOpenParen
  | invalidKey
  | unknownOperation
  | missingOpenBrace
  | missingClosingBrace
  deriving DecidableEq, Repr

namespace Kind

def all : List Kind :=
  [missingComma, missingCloseParen, missingOpenParen, invalidKey, unknownOperation,
    missingOpenBrace, missingClosingBrace]

/-- The name that other programs know the kind by. -/
def id : Kind → String
  | missingComma => "ERROR_MISSING_COMMA"
  | missingCloseParen => "ERROR_MISSING_CLOSE_PAREN"
  | missingOpenParen => "ERROR_MISSING_OPEN_PAREN"
  | invalidKey => "ERROR_INVALID_KEY"
  | unknownOperation => "ERROR_UNKNOWN_OPERATION"
  | missingOpenBrace => "ERROR_MISSING_OPEN_BRACE"
  | missingClosingBrace => "ERROR_MISSING_CLOSING_BRACE"

/-- The sentence of a finding whose offending text is `code`. -/
def message (kind : Kind) (code : String) : String :=
  match kind with
  | missingComma => "missing comma \",\""
  | missingCloseParen => "missing closing parenthesis \")\""
  | missingOpenParen => "missing opening parenthesis \"(\""
  | invalidKey => "invalid key value " ++ code
  | unknownOperation => "unknown operation name \"" ++ code ++ "\""
  | missingOpenBrace => "missing opening brace \"\x7b\""
  | missingClosingBrace => "missing closing brace \"\x7d\""

end Kind
end Finding

/-- Something wrong between two positions.  `code` is the text it is about: a
key, a word, a whole line, or nothing for a missing brace. -/
structure Finding where
  kind : Finding.Kind
  message : String
  start : Position
  finish : Position
  code : String
  deriving DecidableEq, Repr

namespace Finding

/-- The finding of the given kind, with the message that belongs to it. -/
def about (kind : Kind) (start finish : Position) (code : List Char) : Finding :=
  let code := String.ofList code
  { kind, message := kind.message code, start, finish, code }

end Finding
end Summary
end TaintFlow
