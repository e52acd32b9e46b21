/-
Atoms: the smallest parts of a pattern.

An atom is a character, or an escape.  A reader takes the text from some place on
and gives what it found together with the number of characters that it took, or
nothing if the text is wrong there.
-/
import TaintFlow.Pattern.Mode
import TaintFlow.Text.Hexadecimal

namespace TaintFlow
namespace Pattern

/-- What an atom matches. -/
inductive Atom where
  | char (c : Char)
  /-- One character of a set. -/
  | set
  /-- A place between characters. -/
  | place
  deriving DecidableEq

/-- The letters of the general categories of characters, in either case. -/
def categoryLetters : List Char := "CLMNPSZclmnpsz".toList

/-- The number of hexadecimal digits behind the letter of an escape. -/
def hexLength? (letter : Char) : Option Nat :=
  [('x', 2), ('u', 4), ('U', 8)].lookup letter

/-- Reads so many hexadecimal digits.  Each may have a gap in front of it. -/
def hexDigits? (mode : Mode) : Nat → List Char → Option (List Nat × Nat)
  | 0, _ => some ([], 0)
  | count + 1, text =>
    let skipped := mode.gap text
    match text.drop skipped with
    | [] => none
    | c :: rest => do
      let digit ← Text.hexDigit? c
      let (digits, taken) ← hexDigits? mode count rest
      some (digit :: digits, skipped + 1 + taken)

/-- Reads a character that is given by its number. -/
def codePoint? (mode : Mode) (letter : Char) (count : Nat) (text : List Char) :
    Option (Atom × Nat) := do
  let (digits, taken) ← hexDigits? mode count text
  let code := digits.foldl (fun code digit => 16 * code + digit) 0
  if !mode.unicode && letter == 'x' && 0x80 ≤ code then none
  else if code.isValidChar then some (.char (Char.ofNat code), taken)
  else none

/-- Reads the letter of a general category. -/
def category? (mode : Mode) (text : List Char) : Option (Atom × Nat) :=
  let skipped := mode.gap text
  match text.drop skipped with
  | [] => none
  | c :: _ =>
    if mode.unicode && categoryLetters.contains c then some (.set, skipped + 1) else none

/-- The atom that is written by a backslash and one character.  A word boundary has
to be one of bytes, because one of characters cannot be found byte by byte. -/
def simpleEscape? (mode : Mode) (c : Char) : Option Atom :=
  match c with
  | 'd' | 's' | 'w' => some .set
  | 'D' | 'S' | 'W' => if mode.unicode then some .set else none
  | 'A' | 'z' => some .place
  | 'b' | 'B' | '<' | '>' => if mode.unicode then none else some .place
  | 'a' => some (.char '\x07')
  | 'f' => some (.char '\x0c')
  | 'n' => some (.char '\n')
  | 'r' => some (.char '\r')
  | 't' => some (.char '\t')
  | 'v' => some (.char '\x0b')
  | c => if c.toNat < 0x80 && !c.isAlphanum then some (.char c) else none

/-- Reads an escape, behind its backslash. -/
def escape? (mode : Mode) : List Char → Option (Atom × Nat)
  | [] => none
  | c :: text =>
    let found :=
      match hexLength? c with
      | some count => codePoint? mode c count text
      | none =>
        if c = 'p' || c = 'P' then category? mode text
        else (simpleEscape? mode c).map fun atom => (atom, 0)
    found.map fun (atom, taken) => (atom, taken + 1)

/-- Reads the atom that starts with a character. -/
def atom? (mode : Mode) (c : Char) (text : List Char) : Option (Atom × Nat) :=
  if c = '\\' then escape? mode text else some (.char c, 0)

end Pattern
end TaintFlow
