/-
Edit distance between two texts.

The distance is the least number of single-character insertions, deletions and
substitutions that turn one text into the other.  It is computed in a table whose
row for a beginning of `a` holds the distances from it to the beginnings of `b`,
shortest first.  Only two rows of the table are kept: the last one that is finished,
and one that is written over, entry by entry, and then takes its place.
-/
namespace TaintFlow
namespace Text

/-- The two rows that are kept of the table for a text of `n` characters. -/
structure Rows (n : Nat) where
  /-- The row that was finished last. -/
  finished : Vector Nat (n + 1)
  /-- The row to write over, which holds nothing of use. -/
  spare : Vector Nat (n + 1)

/-- The entries of the row of `c` behind `column`, one for each character that is left.

At an equal character nothing is spent on it.  Otherwise one edit is spent, and the
cheapest of the three ways here is taken: substitute, delete `c`, or insert the
character of the other text. -/
def fillFrom (c : Char) {n : Nat} (above : Vector Nat (n + 1)) (column : Nat) :
    (rest : List Char) → column + rest.length = n → Vector Nat (n + 1) → Vector Nat (n + 1)
  | [], _, row => row
  | d :: rest, h, row =>
    have hcolumn : column + 1 + rest.length = n := by
      rw [← h, List.length_cons]
      omega
    have hlt : column + 1 < n + 1 := by omega
    let entry :=
      if c = d then above[column]
      else 1 + min (min above[column] above[column + 1]) row[column]
    fillFrom c above (column + 1) rest hcolumn (row.set (column + 1) entry)

/-- The row of the next character `c`, with `count` characters before it, is written
over the spare one, and the two rows change places. -/
def Rows.next (b : List Char) (count : Nat) (c : Char) (rows : Rows b.length) : Rows b.length where
  finished := fillFrom c rows.finished 0 b (Nat.zero_add _) (rows.spare.set 0 (count + 1))
  spare := rows.finished

/-- The rows after all characters of `a`, with `count` characters before them. -/
def Rows.run (b : List Char) (count : Nat) (rows : Rows b.length) : List Char → Rows b.length
  | [] => rows
  | c :: a => (rows.next b count c).run b (count + 1) a

/-- No character of `a` yet: every beginning of `b` is reached by inserting it. -/
def Rows.start (n : Nat) : Rows n := ⟨Vector.range (n + 1), Vector.replicate (n + 1) 0⟩

def editDistance (a b : List Char) : Nat :=
  ((Rows.start b.length).run b 0 a).finished[b.length]

example : editDistance "kitten".toList "sitting".toList = 3 := by decide

end Text
end TaintFlow
