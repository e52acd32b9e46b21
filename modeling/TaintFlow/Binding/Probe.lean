/-
Probing: can a grammar be loaded at all?

A grammar is reached through an accessor, which either gives a handle or says
why it has none.  The probe folds that and every error of loading into one kind
of failure, and ends with exactly one notice of its own.
-/
import TaintFlow.Artifact.Bundled
import TaintFlow.Binding.Loading

namespace TaintFlow
namespace Binding

structure ProbeFailure where
  grammar : String
  reason : String
  deriving DecidableEq

def ProbeFailure.message (failure : ProbeFailure) : String :=
  "Error loading " ++ failure.grammar ++ " grammar"

/-- What an accessor gives: a handle, or the reason why there is none. -/
abbrev Access := Except String Handle

def Access.load : Access → Logged (Except String Language)
  | .error reason => { result := .error ("grammar accessor failed: " ++ reason) }
  | .ok handle =>
    let loaded := handle.load
    match loaded.result with
    | .error error => { result := .error error.message, notices := loaded.notices }
    | .ok language => { result := .ok language, notices := loaded.notices }

/-- Checks that the grammar of the given name can be loaded. -/
def probe (grammar : String) (access : Access) : Logged (Except ProbeFailure Unit) :=
  let loaded := access.load
  match loaded.result with
  | .ok language =>
    { result := .ok (),
      notices := loaded.notices ++ [.grammarLoaded grammar language.ruleCount] }
  | .error reason =>
    { result := .error { grammar, reason },
      notices := loaded.notices ++ [.grammarRefused grammar reason] }

/-- The handle of the grammar of taint summaries. -/
def bundledHandle : Handle := { text := Bundled.artifact }

end Binding
end TaintFlow
