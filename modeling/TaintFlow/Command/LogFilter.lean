/-
Which notices are shown.

A filter is a list of directives.  A notice passes when its level is no more
detailed than the most special directive that speaks of it says; of directives
that are as special the last counts.  A setting lists directives with commas
between them.  One that lists none lets errors pass only, and one with a wrong
directive sets no filter.
-/
import TaintFlow.Command.LogDirective

namespace TaintFlow
namespace Command

structure LogFilter where
  directives : List LogDirective
  deriving DecidableEq

namespace LogFilter

def upTo (level : Level) : LogFilter := ⟨[{ detail := level.detail }]⟩

/-- The filter of a setting; none if a directive in it is wrong. -/
def ofSetting? (setting : String) : Option LogFilter :=
  let texts := (setting.toList.splitOn ',').filter (!·.isEmpty)
  if texts.isEmpty then some (upTo .error)
  else (texts.mapM LogDirective.ofText?).map LogFilter.mk

def ofVerbosity (verbose : Bool) : LogFilter := upTo (if verbose then .debug else .warn)

/-- The filter of a run: the setting, or else the switch. -/
def choose (setting : Option String) (verbose : Bool) : LogFilter :=
  (setting.bind ofSetting?).getD (ofVerbosity verbose)

def deciding? (filter : LogFilter) (notice : Notice) : Option LogDirective :=
  match filter.directives.filter (·.covers notice) with
  | [] => none
  | first :: rest => some (rest.foldl LogDirective.moreSpecial first)

def passes (filter : LogFilter) (notice : Notice) : Bool :=
  (filter.deciding? notice).any fun directive => notice.level.detail ≤ directive.detail

end LogFilter
end Command
end TaintFlow
