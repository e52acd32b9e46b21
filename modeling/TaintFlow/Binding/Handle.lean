/-
Handles: artifacts that have not been looked at yet.

A handle is the text of an artifact and the version of the binary interface that
it was made for.
-/
namespace TaintFlow
namespace Binding

/-- The oldest interface version that can be loaded. -/
def oldestVersion : Nat := 13

/-- The newest interface version that can be loaded. -/
def newestVersion : Nat := 15

structure Handle where
  text : String
  version : Nat := newestVersion
  deriving DecidableEq

def Handle.withVersion (handle : Handle) (version : Nat) : Handle := { handle with version }

def isSupported (version : Nat) : Bool := oldestVersion ≤ version && version ≤ newestVersion

end Binding
end TaintFlow
