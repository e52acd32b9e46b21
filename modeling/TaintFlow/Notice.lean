/-
Notices: what is worth telling while a grammar is loaded.

A notice never changes a result.  It has a level, the part of the program that
gives it, a message, and fields with values.
-/
import TaintFlow.Text.Quoted

namespace TaintFlow

inductive Level where
  | error
  | warn
  | info
  | debug
  | trace
  deriving DecidableEq, Repr

namespace Level

def all : List Level := [error, warn, info, debug, trace]

def name : Level → String
  | error => "ERROR"
  | warn => "WARN"
  | info => "INFO"
  | debug => "DEBUG"
  | trace => "TRACE"

/-- Levels count up as they tell more. -/
def detail : Level → Nat
  | error => 1
  | warn => 2
  | info => 3
  | debug => 4
  | trace => 5

end Level

inductive Notice where
  | unreachableRule (grammar rule : String)
  | leftRecursiveRule (grammar rule : String)
  | multiplePrecedenceLevels (grammar rule : String) (levels : List Int32)
  | languageConstructed (grammar start : String) (rules : Nat)
  | grammarLoaded (grammar : String) (rules : Nat)
  | grammarRefused (grammar reason : String)
  | programReady (grammar : String)
  deriving DecidableEq

/-- The value of a field.  In a line of text a quoted one stands between quotes. -/
inductive NoticeValue where
  | plain (s : String)
  | quoted (s : String)
  | count (n : Nat)
  | levels (ns : List Int32)

namespace NoticeValue

def text : NoticeValue → String
  | plain s => s
  | quoted s => s
  | count n => n.repr
  | levels ns => "[" ++ ", ".intercalate (ns.map fun n => n.toInt.repr) ++ "]"

def lineText : NoticeValue → String
  | quoted s => Text.quoted s
  | value => value.text

end NoticeValue

namespace Notice

def level : Notice → Level
  | unreachableRule .. => .warn
  | leftRecursiveRule .. => .debug
  | multiplePrecedenceLevels .. => .warn
  | languageConstructed .. => .debug
  | grammarLoaded .. => .debug
  | grammarRefused .. => .warn
  | programReady .. => .info

/-- The part of the program that gives the notice. -/
def source : Notice → String
  | unreachableRule .. => "tree_sitter_taint_summary::validate"
  | leftRecursiveRule .. => "tree_sitter_taint_summary::validate"
  | multiplePrecedenceLevels .. => "tree_sitter_taint_summary::validate"
  | languageConstructed .. => "tree_sitter_taint_summary::language"
  | grammarLoaded .. => "tree_sitter_taint_summary::check"
  | grammarRefused .. => "tree_sitter_taint_summary::check"
  | programReady .. => "taint_summary"

def message : Notice → String
  | unreachableRule .. => "unreachable rule"
  | leftRecursiveRule .. => "left-recursive rule"
  | multiplePrecedenceLevels .. => "multiple precedence levels"
  | languageConstructed .. => "language constructed"
  | grammarLoaded .. => "grammar loaded"
  | grammarRefused .. => "grammar failed to load"
  | programReady .. => "grammar loaded"

def fields : Notice → List (String × NoticeValue)
  | unreachableRule grammar rule => [("grammar", .plain grammar), ("rule", .plain rule)]
  | leftRecursiveRule grammar rule => [("grammar", .plain grammar), ("rule", .plain rule)]
  | multiplePrecedenceLevels grammar rule levels =>
    [("grammar", .plain grammar), ("rule", .plain rule), ("levels", .levels levels)]
  | languageConstructed grammar start rules =>
    [("grammar", .plain grammar), ("start_rule", .plain start), ("rules", .count rules)]
  | grammarLoaded grammar rules => [("grammar", .quoted grammar), ("rules", .count rules)]
  | grammarRefused grammar reason => [("grammar", .quoted grammar), ("reason", .plain reason)]
  | programReady grammar => [("grammar", .quoted grammar)]

/-- The names of what a notice tells.  The message counts as a field. -/
def fieldNames (notice : Notice) : List String := "message" :: notice.fields.map Prod.fst

def line (notice : Notice) : String :=
  notice.level.name ++ " " ++ notice.source ++ ": " ++ notice.message ++
    String.join (notice.fields.map fun field => " " ++ field.1 ++ "=" ++ field.2.lineText)

end Notice

/-- A result, and the notices given on the way to it. -/
structure Logged (α : Type) where
  result : α
  notices : List Notice := []

end TaintFlow
