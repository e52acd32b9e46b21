/-
Quoted texts.

A quoted text stands between double quotes.  The quote, the backslash and the
four control characters with a letter of their own are written with a
backslash; any other hidden character is written as its code point in
hexadecimal, between braces.  All other characters stand for themselves.
-/
import TaintFlow.Text.Hidden

namespace TaintFlow
namespace Text

/-- The code point of a character between braces, in lower-case hexadecimal. -/
def codePointEscape (c : Char) : List Char :=
  ['\\', 'u', '{'] ++ Nat.toDigits 16 c.toNat ++ ['}']

/-- One character inside a quoted text. -/
def quoteChar (c : Char) : List Char :=
  match c with
  | '\x00' => ['\\', '0']
  | '\t' => ['\\', 't']
  | '\r' => ['\\', 'r']
  | '\n' => ['\\', 'n']
  | '"' => ['\\', '"']
  | '\\' => ['\\', '\\']
  | c => if isHidden c then codePointEscape c else [c]

/-- A text between double quotes. -/
def quoted (s : String) : String :=
  String.ofList (['"'] ++ s.toList.flatMap quoteChar ++ ['"'])

/-- A list of quoted texts in brackets, a comma and a space between any two. -/
def quotedList (items : List String) : String :=
  "[" ++ ", ".intercalate (items.map quoted) ++ "]"

example : (quoteChar '\u00AD') = "\\u\x7bad\x7d".toList := by decide +kernel

end Text
end TaintFlow
