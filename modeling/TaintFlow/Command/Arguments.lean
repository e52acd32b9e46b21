/-
The arguments of the command.

There is one switch, `verbose`, and one path.  The path may be given by name or
by place, and by place only while it is not set.  Behind `--` every argument is
given by place.
-/
import TaintFlow.Text.Alphanumeric

namespace TaintFlow
namespace Command

structure Arguments where
  verbose : Bool := false
  path : Option String := none
  deriving DecidableEq, Repr

inductive Flag where
  | verbose
  | path
  deriving DecidableEq

namespace Flag

def name : Flag → String
  | verbose => "verbose"
  | path => "path"

def all : List Flag := [verbose, path]

/-- The spellings of a name as a single word. -/
def spellings (name : List Char) : List (List Char) :=
  let capitals := name.map Char.toUpper
  [name, capitals, capitals.take 1 ++ name.drop 1]

/-- A flag's name without what is neither a letter nor a digit at its ends. -/
def core (text : List Char) : List Char :=
  let start := text.dropWhile fun c => !Text.isAlphanumeric c
  (start.reverse.dropWhile fun c => !Text.isAlphanumeric c).reverse

/-- The flag that is named by the text, the dashes before it included. -/
def ofText? (text : List Char) : Option Flag :=
  all.find? fun flag => (spellings flag.name.toList).contains (core text)

end Flag

/-- One argument, looked at by itself. -/
inductive Argument where
  | separator
  /-- A flag by name, and the value written to it. -/
  | flag (flag : Flag) (value : Option String)
  | place (text : String)
  | unknown

/-- The text before the first equals sign, and the text behind it if there is one. -/
def splitValue (text : List Char) : List Char × Option String :=
  (text.takeWhile (· ≠ '='),
    match text.dropWhile (· ≠ '=') with
    | [] => none
    | _ :: value => some (String.ofList value))

namespace Argument

def ofText (text : String) : Argument :=
  match text.toList with
  | ['-', '-'] => separator
  | '-' :: '-' :: rest =>
    let (name, value) := splitValue rest
    match Flag.ofText? name with
    | some named => flag named value
    | none => unknown
  | '-' :: rest =>
    let (name, value) := splitValue rest
    if name = ['v'] then flag .verbose value else unknown
  | _ => place text

end Argument

namespace Arguments

def setPlace (arguments : Arguments) (text : String) : Option Arguments :=
  if arguments.path.isSome then none else some { arguments with path := some text }

/-- Takes arguments that are all given by place. -/
def takePlaces (arguments : Arguments) : List String → Option Arguments
  | [] => some arguments
  | text :: rest =>
    match arguments.setPlace text with
    | some arguments => arguments.takePlaces rest
    | none => none

/-- Takes arguments one by one.  The path takes the value written to it, or else
the next argument; what is written to the switch does not count. -/
def take (arguments : Arguments) : List String → Option Arguments
  | [] => some arguments
  | text :: rest =>
    match Argument.ofText text with
    | .separator => arguments.takePlaces rest
    | .flag .verbose _ => take { arguments with verbose := true } rest
    | .flag .path (some path) => take { arguments with path := some path } rest
    | .flag .path none =>
      match rest with
      | [] => none
      | path :: rest => take { arguments with path := some path } rest
    | .place text =>
      match arguments.setPlace text with
      | some arguments => take arguments rest
      | none => none
    | .unknown => none

/-- The arguments of a command line, unless it is wrong. -/
def ofTexts? (texts : List String) : Option Arguments := take {} texts

end Arguments
end Command
end TaintFlow
