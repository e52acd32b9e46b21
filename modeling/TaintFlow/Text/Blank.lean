/-
Blank characters and trimming.

A text is a list of characters.  A blank is a character with the `White_Space`
property; the zero-width characters U+200B and U+FEFF, the separators U+001C to
U+001F and the Mongolian vowel separator do not have it.  `indent t` characters
come before `trimStart t`, which is how a place in a trimmed line is turned back
into a place in the line.
-/
namespace TaintFlow
namespace Text

/-- The characters with the `White_Space` property. -/
def isBlank (c : Char) : Bool :=
  let n := c.toNat
  (0x09 ≤ n && n ≤ 0x0D) || n == 0x20 || n == 0x85 || n == 0xA0 || n == 0x1680 ||
    (0x2000 ≤ n && n ≤ 0x200A) || n == 0x2028 || n == 0x2029 || n == 0x202F ||
    n == 0x205F || n == 0x3000

def trimStart (t : List Char) : List Char := t.dropWhile isBlank

def trimEnd (t : List Char) : List Char := (t.reverse.dropWhile isBlank).reverse

def trim (t : List Char) : List Char := trimEnd (trimStart t)

/-- The number of blanks before the first character that is none. -/
def indent (t : List Char) : Nat := (t.takeWhile isBlank).length

def isAllBlank (t : List Char) : Bool := t.all isBlank

theorem indent_append_trimStart (t : List Char) :
    t.take (indent t) ++ trimStart t = t := by
  induction t with
  | nil => rfl
  | cons c t ih =>
    by_cases h : isBlank c = true
    · simpa [indent, trimStart, h] using ih
    · simp [indent, trimStart, h]

end Text
end TaintFlow
