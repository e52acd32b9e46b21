/-
The bytes of a text.

A text is a list of characters, and takes as many bytes as its characters take in
UTF-8.  `takeBytes n t` and `dropBytes n t` cut a text behind the character in
which byte `n` ends.
-/
namespace TaintFlow
namespace Text

def byteCount : List Char → Nat
  | [] => 0
  | c :: t => c.utf8Size + byteCount t

/-- The first characters, up to so many bytes. -/
def takeBytes : Nat → List Char → List Char
  | n + 1, c :: t => c :: takeBytes (n + 1 - c.utf8Size) t
  | _, _ => []

/-- The characters behind so many bytes. -/
def dropBytes : Nat → List Char → List Char
  | n + 1, c :: t => dropBytes (n + 1 - c.utf8Size) t
  | _, t => t

end Text
end TaintFlow
