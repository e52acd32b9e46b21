/-
Classes of characters in square brackets.

A class lists characters, ranges, sets and other classes.  It may combine several
such lists by the operators `&&`, `--` and `~~`, from left to right.  Minus signs
in front of all other items stand for themselves, and so does a closing bracket
that would come first.
-/
import TaintFlow.Pattern.Atom
import TaintFlow.Pattern.Depth

namespace TaintFlow
namespace Pattern

/-- A class whose closing bracket was not read yet. -/
structure OpenClass where
  /-- Only minus signs were read, and perhaps the sign of negation. -/
  leading : Bool := true
  negated : Bool := false
  /-- The depth of what stands in front of the last operator. -/
  left : Option Nat := none
  /-- The depths of the items behind the last operator. -/
  items : List Nat := []

namespace OpenClass

def depth (opened : OpenClass) : Nat :=
  let right := depthTogether opened.items
  match opened.left with
  | none => right
  | some left => depthTogether [left, right]

/-- The class with one more item behind the first minus signs. -/
def add (opened : OpenClass) (depth : Nat) : OpenClass :=
  { opened with leading := false, items := depth :: opened.items }

def operate (opened : OpenClass) : OpenClass :=
  { opened with leading := false, left := some opened.depth, items := [] }

def isClosedBy (opened : OpenClass) (c : Char) : Bool :=
  c == ']' && !(opened.leading && opened.items.isEmpty)

end OpenClass

/-! ## Named classes -/

def classNames : List String :=
  ["alnum", "alpha", "ascii", "blank", "cntrl", "digit", "graph", "lower", "print", "punct",
    "space", "upper", "word", "xdigit"]

/-- How the named classes are written behind their opening bracket. -/
def namedClasses : List (List Char) := classNames.map fun name => (":" ++ name ++ ":]").toList

/-- How the complements of the named classes are written. -/
def namedComplements : List (List Char) :=
  classNames.map fun name => (":^" ++ name ++ ":]").toList

/-! ## Items -/

/-- Whether an atom may be an item of a class. -/
def Atom.isItem (mode : Mode) : Atom → Bool
  | .char c => mode.unicode || c.toNat < 0x80
  | .set => true
  | .place => false

/-- Whether two atoms are the ends of a range. -/
def isRange (mode : Mode) : Atom → Atom → Bool
  | .char first, .char last =>
    Atom.isItem mode (.char first) && Atom.isItem mode (.char last) && first ≤ last
  | _, _ => false

/-- The character behind a minus sign.  With gaps one number sign is skipped like a
blank, and not as the start of a comment. -/
def behindMinus (mode : Mode) (text : List Char) : Option Char :=
  if mode.verbose then
    let text := Text.trimStart text
    (if text.head? = some '#' then Text.trimStart text.tail else text).head?
  else text.head?

/-- The number of characters that an item takes behind its first one.  The item is
a range when a minus sign follows that has neither a closing bracket nor a minus
sign behind it. -/
def itemLength? (mode : Mode) (c : Char) (text : List Char) : Option Nat := do
  let (first, taken) ← atom? mode c text
  let single := if first.isItem mode then some taken else none
  let gap := mode.gap (text.drop taken)
  match text.drop (taken + gap) with
  | '-' :: rest =>
    if behindMinus mode rest == some ']' || behindMinus mode rest == some '-' then single
    else
      let skipped := mode.gap rest
      match rest.drop skipped with
      | [] => none
      | d :: rest => do
        let (last, more) ← atom? mode d rest
        if isRange mode first last then some (taken + gap + 1 + skipped + 1 + more) else none
  | _ => single

/-- Reads the next part of an open class, which is not its closing bracket.  The
result lists the class and, in front of it, the one that is opened in it. -/
def classPart? (mode : Mode) (opened : OpenClass) (c : Char) (text : List Char) :
    Option (List OpenClass × Nat) :=
  let fresh := opened.leading && opened.items.isEmpty
  if c = '^' && fresh && !opened.negated then
    if mode.unicode then some ([{ opened with negated := true }], 0) else none
  else if c = '-' && opened.leading then
    some ([{ opened with items := 0 :: opened.items }], 0)
  else if c = ']' && fresh then some ([opened.add 0], 0)
  else if c = '[' then
    match namedClasses.find? (·.isPrefixOf text) with
    | some name => some ([opened.add 0], name.length)
    | none =>
      match namedComplements.find? (·.isPrefixOf text) with
      | some name => if mode.unicode then some ([opened.add 0], name.length) else none
      | none => some ([{}, { opened with leading := false }], 0)
  else if ['&', '-', '~'].contains c && text.head? == some c then some ([opened.operate], 1)
  else (itemLength? mode c text).map fun taken => ([opened.add 0], taken)

end Pattern
end TaintFlow
