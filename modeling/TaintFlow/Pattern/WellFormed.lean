/-
Well-formed patterns.

A pattern is read from left to right.  What is open at some place is kept on two
stacks, innermost first: the groups, and the classes of characters.  A pattern is
well-formed when every part can be read, nothing is open at its end, and it is not
too deep.
-/
import TaintFlow.Pattern.CharClass
import TaintFlow.Pattern.Group

namespace TaintFlow
namespace Pattern

/-- A part of a pattern that was read. -/
structure Piece where
  depth : Nat := 0
  /-- Whether a sign of repetition may follow. -/
  repeatable : Bool := true

/-- A group whose closing parenthesis was not read yet.  The pattern as a whole is
one too. -/
structure OpenGroup where
  mode : Mode := {}
  branches : List Nat := []
  /-- The pieces of the last branch, the last one first. -/
  pieces : List Piece := []

namespace OpenGroup

def add (group : OpenGroup) (piece : Piece) : OpenGroup :=
  { group with pieces := piece :: group.pieces }

def branchDepth (group : OpenGroup) : Nat := depthTogether (group.pieces.map Piece.depth)

def depth (group : OpenGroup) : Nat := depthTogether (group.branchDepth :: group.branches)

/-- The group behind the sign between two branches. -/
def nextBranch (group : OpenGroup) : OpenGroup :=
  { group with branches := group.branchDepth :: group.branches, pieces := [] }

/-- The group behind a sign of repetition.  There has to be a piece to repeat. -/
def repeatLast? (group : OpenGroup) : Option OpenGroup :=
  match group.pieces with
  | piece :: pieces =>
    if piece.repeatable then some { group with pieces := { depth := piece.depth + 1 } :: pieces }
    else none
  | [] => none

end OpenGroup

/-- What is known of a pattern at some place in it. -/
structure Progress where
  group : OpenGroup := {}
  /-- The groups around the innermost one. -/
  outer : List OpenGroup := []
  classes : List OpenClass := []
  names : List (List Char) := []

namespace Progress

def add (progress : Progress) (piece : Piece) : Progress :=
  { progress with group := progress.group.add piece }

/-- Opens a group.  No two groups have one name. -/
def openGroup? (progress : Progress) (mode : Mode) (name : Option (List Char)) :
    Option Progress :=
  if name.any progress.names.contains then none
  else some { progress with
    group := { mode }
    outer := progress.group :: progress.outer
    names := name.toList ++ progress.names }

def closeGroup? (progress : Progress) : Option Progress :=
  match progress.outer with
  | [] => none
  | group :: outer =>
    some { progress with group := group.add { depth := progress.group.depth + 1 }, outer }

/-- Closes the innermost class, which is an item of the next one or a piece of the
pattern. -/
def closeClass (progress : Progress) (inner : OpenClass) (outer : List OpenClass) : Progress :=
  match outer with
  | [] => { progress with classes := [] }.add { depth := inner.depth + 1 }
  | parent :: outer => { progress with classes := parent.add (inner.depth + 1) :: outer }

def classStep? (progress : Progress) (inner : OpenClass) (outer : List OpenClass) (c : Char)
    (text : List Char) : Option (Progress × Nat) :=
  if inner.isClosedBy c then some (progress.closeClass inner outer, 0)
  else (classPart? progress.group.mode inner c text).map fun (classes, taken) =>
    ({ progress with classes := classes ++ outer }, taken)

/-- Reads the next part behind an opening parenthesis. -/
def openStep? (progress : Progress) (text : List Char) : Option (Progress × Nat) := do
  let (opening, taken) ← opening? progress.group.mode text
  match opening with
  | .group mode name => (progress.openGroup? mode name).map fun progress => (progress, taken)
  | .flags mode =>
    let group := { progress.group.add { repeatable := false } with mode }
    some ({ progress with group }, taken)

/-- Reads the next part outside classes. -/
def groupStep? (progress : Progress) (c : Char) (text : List Char) : Option (Progress × Nat) :=
  match c with
  | '(' => progress.openStep? text
  | ')' => progress.closeGroup?.map fun progress => (progress, 0)
  | '|' => some ({ progress with group := progress.group.nextBranch }, 0)
  | '[' => some ({ progress with classes := [{}] }, 0)
  | '{' => none
  | '*' | '+' | '?' => progress.group.repeatLast?.map fun group =>
    ({ progress with group }, if text.head? = some '?' then 1 else 0)
  | '^' | '$' => some (progress.add {}, 0)
  | '.' => if progress.group.mode.unicode then some (progress.add {}, 0) else none
  | _ => (atom? progress.group.mode c text).map fun (_, taken) => (progress.add {}, taken)

/-- Reads the part that starts with a character, and gives the number of further
characters that it takes. -/
def step? (progress : Progress) (c : Char) (text : List Char) : Option (Progress × Nat) :=
  match progress.group.mode.gap (c :: text), progress.classes with
  | skipped + 1, _ => some (progress, skipped)
  | 0, inner :: outer => progress.classStep? inner outer c text
  | 0, [] => progress.groupStep? c text

/-- Reads a text whose first `skip` characters are read already. -/
def scan? (progress : Progress) (skip : Nat) (text : List Char) : Option Progress :=
  match text, skip with
  | [], _ => some progress
  | _ :: text, skip + 1 => progress.scan? skip text
  | c :: text, 0 =>
    match progress.step? c text with
    | none => none
    | some (progress, skip) => progress.scan? skip text

def isComplete (progress : Progress) : Bool :=
  progress.classes.isEmpty && progress.outer.isEmpty && progress.group.depth ≤ maxDepth

end Progress

def isWellFormed (text : List Char) : Bool :=
  (Progress.scan? {} 0 text).any Progress.isComplete

example : isWellFormed "a(b|[^c-e&&d])*?$".toList = true := by decide +kernel

/-- Nothing stands in front of the sign that could be repeated. -/
example : isWellFormed "a|*".toList = false := by decide +kernel

/-- The comment hides the closing parenthesis. -/
example : isWellFormed "(?x)(a # b)".toList = false := by decide +kernel

/-- A closing bracket that comes first stands for itself. -/
example : isWellFormed "[]".toList = false ∧ isWellFormed "[]]".toList = true := by
  decide +kernel

/-- A class of bytes has no complement, because that would match single bytes outside
ASCII. -/
example : isWellFormed "(?-u)[^a]".toList = false ∧
    isWellFormed "(?-u:[a])[^a]".toList = true := by
  decide +kernel

end Pattern
end TaintFlow
