/-
Loading: from a handle to a language.

A handle is accepted when its text is not blank, its version is supported, its
text can be read as a grammar, the grammar has a first rule, and the grammar has
no defect when it is used from there.  The first condition that fails is the
error, and with an error no notice is given.
-/
import TaintFlow.Artifact.EntryRule
import TaintFlow.Artifact.Reading
import TaintFlow.Binding.Handle
import TaintFlow.Grammar.Consistency
import TaintFlow.Text.Blank

namespace TaintFlow
namespace Binding

inductive LoadError where
  | empty
  | incompatible (version oldest newest : Nat)
  | unreadable (failure : Json.Failure)
  | noRules
  | invalid (defect : Defect)
  deriving DecidableEq

def LoadError.message : LoadError → String
  | empty => "grammar artifact is empty"
  | incompatible version oldest newest =>
    "incompatible language version " ++ version.repr ++ "; expected " ++ oldest.repr ++
      " through " ++ newest.repr
  | unreadable failure => Grammar.readFailureMessage failure
  | noRules => "grammar defines no rules"
  | invalid defect => "invalid grammar: " ++ defect.message

/-- A grammar that has been accepted, with the rule it is used from. -/
structure Language where
  grammar : Grammar
  start : String
  version : Nat

namespace Language

def name (language : Language) : String := language.grammar.name

def ruleCount (language : Language) : Nat := language.grammar.rules.size

def ruleNames (language : Language) : List String := language.grammar.ruleNames

def fieldNames (language : Language) : List String := language.grammar.fieldNames

def notice (language : Language) : Notice :=
  .languageConstructed language.name language.start language.ruleCount

def ofGrammar (grammar : Grammar) (start : String) (version : Nat) :
    Logged (Except LoadError Language) :=
  let checked := grammar.check start
  match checked.result with
  | .error defect => { result := .error (.invalid defect), notices := checked.notices }
  | .ok _ =>
    let language : Language := { grammar, start, version }
    { result := .ok language, notices := checked.notices ++ [language.notice] }

end Language

/-- The first rule of an artifact, if the grammar that was read from it has it. -/
def startRule? (text : String) (grammar : Grammar) : Option String :=
  (Artifact.entryRule? text).filter grammar.rules.contains

def Handle.load (handle : Handle) : Logged (Except LoadError Language) :=
  if Text.isAllBlank handle.text.toList then { result := .error .empty }
  else if !isSupported handle.version then
    { result := .error (.incompatible handle.version oldestVersion newestVersion) }
  else
    match Grammar.read handle.text with
    | .error failure => { result := .error (.unreadable failure) }
    | .ok grammar =>
      match startRule? handle.text grammar with
      | none => { result := .error .noRules }
      | some start => Language.ofGrammar grammar start handle.version

end Binding
end TaintFlow
