/-
Looking for a piece inside a text.
-/
namespace TaintFlow
namespace Text

/-- Whether `piece` occurs in the text as a run of neighbouring characters. -/
def contains (piece : List Char) : List Char → Bool
  | [] => piece.isEmpty
  | c :: rest => piece.isPrefixOf (c :: rest) || contains piece rest

theorem contains_iff_isInfix {piece text : List Char} :
    contains piece text = true ↔ piece <:+: text := by
  induction text with
  | nil => simp [contains]
  | cons c rest ih => simp [contains, ih, List.infix_cons_iff]

/-- The lines of a text.  Only the line feed ends a line, so a text has one line
more than it has line feeds, and the last line may be empty. -/
def lines (text : List Char) : List (List Char) := text.splitOn '\n'

end Text
end TaintFlow
