/-
Rules of a grammar.

A rule is a tree.  Each node has a kind and some attributes, of which those that
its kind does not use are mostly absent, and two sorts of children: at most one
content and a list of members.  `walk` lists the nodes of a tree in pre-order,
the content before the members, and every question about names inside a rule is
asked of that list.
-/
namespace TaintFlow

inductive RuleKind where
  | blank
  | string
  | pattern
  | symbol
  | choice
  | seq
  | repetition
  /-- The content at least once. -/
  | repetition1
  | prec
  | precLeft
  | precRight
  /-- The content with a precedence that counts while parsing. -/
  | precDynamic
  | field
  /-- The content under another name. -/
  | renamed
  | token
  /-- The content as one token with nothing before it. -/
  | immediateToken
  | reserved
  deriving DecidableEq, Repr

namespace RuleKind

/-- The word that stands for the kind in an artifact. -/
def tag : RuleKind → String
  | blank => "BLANK"
  | string => "STRING"
  | pattern => "PATTERN"
  | symbol => "SYMBOL"
  | choice => "CHOICE"
  | seq => "SEQ"
  | repetition => "REPEAT"
  | repetition1 => "REPEAT1"
  | prec => "PREC"
  | precLeft => "PREC_LEFT"
  | precRight => "PREC_RIGHT"
  | precDynamic => "PREC_DYNAMIC"
  | field => "FIELD"
  | renamed => "ALIAS"
  | token => "TOKEN"
  | immediateToken => "IMMEDIATE_TOKEN"
  | reserved => "RESERVED"

def all : List RuleKind :=
  [blank, string, pattern, symbol, choice, seq, repetition, repetition1, prec, precLeft,
    precRight, precDynamic, field, renamed, token, immediateToken, reserved]

theorem mem_all (kind : RuleKind) : kind ∈ all := by cases kind <;> decide

def isPrecedence : RuleKind → Bool
  | prec | precLeft | precRight | precDynamic => true
  | _ => false

end RuleKind

/-- A text, or the level of a precedence. -/
inductive RuleValue where
  | level (n : Int32)
  | text (s : String)
  deriving DecidableEq

structure Rule where
  kind : RuleKind
  value : Option RuleValue := none
  name : Option String := none
  content : Option Rule := none
  members : List Rule := []
  named : Option Bool := none
  flags : Option String := none
  contextName : Option String := none

namespace Rule

/-- The children of a node: its content, then its members. -/
def children (rule : Rule) : List Rule := rule.content.toList ++ rule.members

mutual
/-- The nodes of a rule in pre-order. -/
def walk : Rule → List Rule
  | rule@{ content, members, .. } => rule :: (walkContent content ++ walkMembers members)

def walkContent : Option Rule → List Rule
  | none => []
  | some rule => walk rule

def walkMembers : List Rule → List Rule
  | [] => []
  | rule :: rest => walk rule ++ walkMembers rest
end

theorem walkContent_eq (content : Option Rule) :
    walkContent content = content.toList.flatMap walk := by
  cases content <;> simp [walkContent]

theorem walkMembers_eq (members : List Rule) : walkMembers members = members.flatMap walk := by
  induction members with
  | nil => rfl
  | cons rule rest ih => simp [walkMembers, ih]

/-- The walk of a rule is the rule followed by the walks of its children. -/
theorem walk_eq (rule : Rule) : rule.walk = rule :: rule.children.flatMap walk := by
  cases rule
  simp only [walk, walkContent_eq, walkMembers_eq, children, List.flatMap_append]

/-! ## What a node says -/

def textValue (rule : Rule) : Option String :=
  match rule.value with
  | some (.text s) => some s
  | _ => none

def symbolName (rule : Rule) : Option String :=
  if rule.kind = .symbol then rule.name else none

def fieldName (rule : Rule) : Option String :=
  if rule.kind = .field then rule.name else none

/-- The level of a precedence that is given as a number. -/
def precedence (rule : Rule) : Option Int32 :=
  if rule.kind.isPrecedence then
    match rule.value with
    | some (.level n) => some n
    | _ => none
  else none

def precedenceName (rule : Rule) : Option String :=
  if rule.kind.isPrecedence then rule.textValue else none

def stringValue (rule : Rule) : Option String :=
  if rule.kind = .string then rule.textValue else none

def patternValue (rule : Rule) : Option String :=
  if rule.kind = .pattern then rule.textValue else none

/-! ## What a tree says -/

/-- The names that the symbols of a tree refer to, in pre-order. -/
def references (rule : Rule) : List String := rule.walk.filterMap symbolName

/-- The precedence names that a tree uses, in pre-order. -/
def precedenceNames (rule : Rule) : List String := rule.walk.filterMap precedenceName

/-- The precedence levels that a tree uses, in pre-order. -/
def precedences (rule : Rule) : List Int32 := rule.walk.filterMap precedence

end Rule
end TaintFlow
