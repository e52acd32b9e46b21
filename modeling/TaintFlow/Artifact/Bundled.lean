/-
The grammar of taint summaries.

A summary is a list of operations in braces.  Beside the well-formed operations
the grammar accepts malformed ones, so that a summary with slips in it still has
a tree, in which the malformed parts bear names of their own.  Four of those
names are kept for tools and used by no other rule.
-/
import TaintFlow.Artifact.Writing
import TaintFlow.Summary.Operation

namespace TaintFlow
namespace Bundled

open Summary (Operation)

/-! ## Shorthands -/

def blank : Rule := { kind := .blank }

def string (s : String) : Rule := { kind := .string, value := some (.text s) }

def pattern (source : String) : Rule := { kind := .pattern, value := some (.text source) }

def symbol (name : String) : Rule := { kind := .symbol, name := some name }

def choice (members : List Rule) : Rule := { kind := .choice, members }

def seq (members : List Rule) : Rule := { kind := .seq, members }

def optional (rule : Rule) : Rule := choice [rule, blank]

def oneOrMore (content : Rule) : Rule := { kind := .repetition1, content := some content }

def token (content : Rule) : Rule := { kind := .token, content := some content }

def field (name : String) (content : Rule) : Rule :=
  { kind := .field, name := some name, content := some content }

def precNamed (name : String) (content : Rule) : Rule :=
  { kind := .prec, value := some (.text name), content := some content }

def precRight (level : Int32) (content : Rule) : Rule :=
  { kind := .precRight, value := some (.level level), content := some content }

def precDynamic (level : Int32) (content : Rule) : Rule :=
  { kind := .precDynamic, value := some (.level level), content := some content }

/-- A rule that shows up in the tree as a message. -/
def reported (message : String) (content : Rule) : Rule :=
  { kind := .renamed, value := some (.text message), content := some content,
    named := some false }

/-! ## The grammar -/

def name : String := "TaintSummary"

/-- The numbers that a key may hold. -/
def keyNumbers : List String := ["-1", "0", "1", "2", "3", "4", "5", "6", "7", "8", "9"]

def keyRule : Rule :=
  seq [field "open_angle" (string "<"),
    field "number" (choice (keyNumbers.map string ++ [symbol "invalid_number"])),
    field "close_angle" (string ">")]

/-- The keyword of an operation and as many keys as it takes. -/
def operationRule (op : Operation) (keys : List Rule) : Rule :=
  seq ([string op.keyword, string "("] ++ keys ++ [string ")"])

def oneKey : List Rule := [symbol "key"]

def twoKeys : List Rule := [symbol "key", string ",", symbol "key"]

def summaryRules : List (String × Rule) := [
  ("taint_summary",
    seq [string "\x7b", optional (symbol "side_effects"),
      field "closing_brace" (choice [string "\x7d",
        reported "ERROR: Missing closing brace \"\x7d\"" (symbol "missing_closing_brace")])]),
  ("side_effects",
    seq [symbol "taint_side_effect", optional (symbol "side_effects_tail")]),
  ("side_effects_tail",
    seq [field "comma" (choice [string ",",
        reported "ERROR: Missing comma between operations" (symbol "missing_comma")]),
      symbol "taint_side_effect", optional (symbol "side_effects_tail")]),
  ("taint_side_effect",
    choice [precNamed "operation" (symbol "set_sink"),
      precNamed "operation" (symbol "transitive"),
      precNamed "operation" (symbol "sanitize"),
      precNamed "operation" (symbol "swap_taint"),
      precNamed "error" (symbol "error_operation")])]

/-- Operations with slips in them. -/
def errorRules : List (String × Rule) := [
  ("error_operation",
    precDynamic (-1) (choice [
      seq [field "operation_name" (choice (Operation.all.map fun op => string op.keyword)),
        field "error_parts" (symbol "error_parts")],
      seq [field "unknown_operation" (symbol "unknown_operation_name"),
        optional (field "error_parts" (symbol "error_parts"))]])),
  ("unknown_operation_name", token (pattern "[a-zA-Z]+")),
  ("error_parts",
    precRight 1 (oneOrMore (choice [symbol "key", symbol "error_token",
      symbol "whitespace_error"]))),
  ("whitespace_error", token (pattern "\\s+")),
  ("error_token",
    precNamed "token" (choice [symbol "misplaced_paren_open", symbol "misplaced_paren_close",
      symbol "misplaced_comma"])),
  ("misplaced_paren_open", precNamed "token" (token (string "("))),
  ("misplaced_paren_close", precNamed "token" (token (string ")"))),
  ("misplaced_comma", precNamed "token" (token (string ",")))]

/-- Keys, well-formed or not. -/
def keyRules : List (String × Rule) := [
  ("key", keyRule),
  ("invalid_number",
    choice [symbol "number_too_large", symbol "number_too_small", symbol "non_integer_number",
      symbol "invalid_number_char"]),
  ("number_too_large", token (pattern "[0-9]\x7b2,\x7d")),
  ("number_too_small", token (pattern "-[0-9]\x7b2,\x7d")),
  ("non_integer_number", token (pattern "[0-9]+\\.[0-9]+")),
  ("invalid_number_char", token (pattern "[^0-9-]"))]

def missingRules : List (String × Rule) := [
  ("missing_closing_brace", token (string "ERROR_MISSING_CLOSING_BRACE")),
  ("missing_comma", token (string "ERROR_MISSING_COMMA")),
  ("missing_open_paren", token (string "ERROR_MISSING_OPEN_PAREN")),
  ("missing_close_paren", token (string "ERROR_MISSING_CLOSE_PAREN")),
  ("invalid_key", token (string "ERROR_INVALID_KEY")),
  ("invalid_operation", token (string "ERROR_INVALID_OPERATION"))]

def operationRules : List (String × Rule) := [
  ("set_sink", operationRule .setSink oneKey),
  ("transitive", operationRule .transitive twoKeys),
  ("sanitize", operationRule .sanitize oneKey),
  ("swap_taint", operationRule .swapTaint twoKeys)]

def grammar : Grammar where
  schema := some "https://tree-sitter.github.io/tree-sitter/assets/schemas/grammar.schema.json"
  name := name
  rules := .ofEntries (summaryRules ++ errorRules ++ keyRules ++ missingRules ++ operationRules)
  extras := [pattern "\\s"]
  precedences := [[string "error", string "token", string "operation"]]
  conflicts := ["error_operation"] ::
    (["error_token", "misplaced_paren_open"].flatMap fun first =>
      ["set_sink", "transitive", "sanitize", "swap_taint"].map fun second => [first, second])

/-- The text of the artifact that is shipped with the program. -/
def artifact : String := grammar.artifactText

end Bundled
end TaintFlow
