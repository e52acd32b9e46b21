/-
A run of the command.

The command first makes sure that the grammar of taint summaries can be loaded.
Without a path that is all.  With a path it inspects the text there and prints
the listing of what it finds.
-/
import TaintFlow.Binding.Probe
import TaintFlow.Command.Arguments
import TaintFlow.Command.Directory
import TaintFlow.Command.LogFilter
import TaintFlow.Summary.Inspection
import TaintFlow.Summary.Listing

namespace TaintFlow
namespace Command

/-- What a run leaves behind.  The log goes to the same place as the errors. -/
structure Outcome where
  exit : Nat
  output : String := ""
  errors : String := ""
  log : List String := []
  deriving DecidableEq

def inspectText (path source : String) : Outcome :=
  let findings := Summary.inspect source
  let listing := Summary.listing findings source (some path) ++ "\n"
  if findings.isEmpty then { exit := 0, output := listing }
  else { exit := 1, output := listing ++ findings.length.repr ++ " error(s) found.\n" }

def inspectPath (read : String → Except FileError String) : Option String → Outcome
  | none => { exit := 0, output := Bundled.name ++ " grammar loaded successfully\n" }
  | some path =>
    match read path with
    | .error error =>
      { exit := 1, errors := "error: failed to read " ++ path ++ ": " ++ error.message ++ "\n" }
    | .ok source => inspectText path source

/-- The outcome once the grammar has been probed, and the notices up to there. -/
def afterProbe (read : String → Except FileError String) (arguments : Arguments)
    (probed : Logged (Except Binding.ProbeFailure Unit)) : Logged Outcome :=
  match probed.result with
  | .error failure =>
    { result := { exit := 1, errors := failure.message ++ ": " ++ failure.reason ++ "\n" },
      notices := probed.notices }
  | .ok _ =>
    { result := inspectPath read arguments.path,
      notices := probed.notices ++ [.programReady Bundled.name] }

/-- The outcome of a run with good arguments, and the notices it gives. -/
def session (read : String → Except FileError String) (arguments : Arguments) : Logged Outcome :=
  afterProbe read arguments (Binding.probe Bundled.name (.ok Binding.bundledHandle))

/-- The outcome with those notices logged that pass the filter. -/
def Outcome.ofLogged (filter : LogFilter) (logged : Logged Outcome) : Outcome :=
  { logged.result with log := (logged.notices.filter filter.passes).map Notice.line }

/-- The outcome of a run.  `read` reads files, and `setting` is the log setting of
the environment. -/
def run (texts : List String) (read : String → Except FileError String)
    (setting : Option String) : Outcome :=
  match Arguments.ofTexts? texts with
  | none => { exit := 2, errors := "Could not parse CLI arguments\n" }
  | some arguments =>
    .ofLogged (LogFilter.choose setting arguments.verbose) (session read arguments)

end Command
end TaintFlow
