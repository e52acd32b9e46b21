/-
What a parenthesis opens: a group, which may have a name or a mode of its own, or
flags for the rest of the group that it stands in.
-/
import TaintFlow.Pattern.Mode
import TaintFlow.Text.Alphanumeric

namespace TaintFlow
namespace Pattern

inductive Opening where
  | group (mode : Mode) (name : Option (List Char))
  | flags (mode : Mode)

def isGroupName : List Char → Bool
  | [] => false
  | c :: rest =>
    (c == '_' || Text.isAlphabetic c) &&
      rest.all fun c => ['_', '.', '[', ']'].contains c || Text.isAlphanumeric c

/-- Reads a name and the sign behind it. -/
def groupName? (text : List Char) : Option (List Char × Nat) :=
  let name := text.takeWhile (· ≠ '>')
  if name.length < text.length && isGroupName name then some (name, name.length + 1) else none

def groupFlags? (mode : Mode) (text : List Char) : Option (Opening × Nat) :=
  let flags := text.takeWhile fun c => c ≠ ':' && c ≠ ')'
  let switched := mode.switch flags
  if isFlagList flags then
    match text.drop flags.length with
    | ':' :: _ => some (.group switched none, flags.length + 1)
    | ')' :: _ => if flags.isEmpty then none else some (.flags switched, flags.length + 1)
    | _ => none
  else none

/-- Reads what a parenthesis opens, behind the parenthesis. -/
def opening? (mode : Mode) (text : List Char) : Option (Opening × Nat) :=
  let skipped := mode.gap text
  let found : Option (Opening × Nat) :=
    match text.drop skipped with
    | '?' :: 'P' :: '<' :: rest =>
      (groupName? rest).map fun (name, taken) => (.group mode (some name), taken + 3)
    | '?' :: '<' :: rest =>
      (groupName? rest).map fun (name, taken) => (.group mode (some name), taken + 2)
    | '?' :: rest => (groupFlags? mode rest).map fun (opening, taken) => (opening, taken + 1)
    | _ => some (.group mode none, 0)
  found.map fun (opening, taken) => (opening, skipped + taken)

end Pattern
end TaintFlow
