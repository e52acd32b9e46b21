/-
Modes of patterns.

A pattern is a regular expression as a log setting gives it for the value of a
field.  It holds no comma, no equals sign and no closing brace, because those end
the value, so nothing is written in it that needs braces.

The mode of a place in a pattern says how the text there is read.  It is changed
by flags, and only up to the end of the group that the flags stand in.
-/
import TaintFlow.Text.Blank

namespace TaintFlow
namespace Pattern

structure Mode where
  /-- What is matched are characters.  Otherwise it is bytes, and then nothing may
  match a byte outside ASCII but the bytes of characters that are written out. -/
  unicode : Bool := true
  /-- Blanks between the parts of a pattern do not count, and a number sign there
  starts a comment that goes on to the end of the line. -/
  verbose : Bool := false
  deriving DecidableEq

/-! ## Flags -/

def flagLetters : List Char := ['i', 'm', 's', 'U', 'u', 'R', 'x']

/-- Whether a text lists flags: those to be set, and behind a minus sign those to be
cleared.  A minus sign is not last, and nothing comes twice. -/
def isFlagList (text : List Char) : Bool :=
  text.all (fun c => c == '-' || flagLetters.contains c) && decide text.Nodup &&
    text.getLast? != some '-'

def flagBehind (flags : List Char) (letter : Char) (before : Bool) : Bool :=
  if (flags.takeWhile (· ≠ '-')).contains letter then true
  else before && !flags.contains letter

def Mode.switch (mode : Mode) (flags : List Char) : Mode :=
  { unicode := flagBehind flags 'u' mode.unicode
    verbose := flagBehind flags 'x' mode.verbose }

/-! ## Gaps -/

/-- The number of characters up to the first one outside blanks and comments. -/
def gapLength (inComment : Bool) : List Char → Nat
  | [] => 0
  | c :: text =>
    if inComment then gapLength (c ≠ '\n') text + 1
    else if c = '#' then gapLength true text + 1
    else if Text.isBlank c then gapLength false text + 1
    else 0

/-- The number of characters in front of the next part of a pattern. -/
def Mode.gap (mode : Mode) (text : List Char) : Nat :=
  if mode.verbose then gapLength false text else 0

end Pattern
end TaintFlow
