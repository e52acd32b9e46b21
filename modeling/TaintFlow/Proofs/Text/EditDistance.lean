/-
The edit distance is the least number of edits.

An edit inserts, deletes or substitutes one character anywhere in a text, and
`Edits n a b` says that `n` edits turn `a` into `b`.  The computed distance is such
a number, and no smaller one is (`editDistance_isLeast`).

The table is understood by a recursion on the last characters of both texts, which
for `fewestEdits` are the first ones.  A row holds what it says for the text read so
far (`RowHolds`), so the last entry is the distance of the texts turned round
(`editDistance_eq`).

The recursion spends nothing on equal first characters and looks at no other way on.
No edit is lost by that, because one more character in front of either text changes
the distance by at most one (`fewestEdits_cons_le`, `fewestEdits_le_cons`).  For the
same reason one edit anywhere changes it by at most one (`Edit.fewestEdits_le`), so
as many edits are needed as it says.
-/
import TaintFlow.Text.EditDistance

namespace TaintFlow
namespace Text

/-! ## Edits -/

/-- One character is inserted, deleted or substituted. -/
inductive Edit : List Char → List Char → Prop where
  | insertion (before : List Char) (c : Char) (behind : List Char) :
      Edit (before ++ behind) (before ++ c :: behind)
  | deletion (before : List Char) (c : Char) (behind : List Char) :
      Edit (before ++ c :: behind) (before ++ behind)
  | substitution (before : List Char) (c d : Char) (behind : List Char) :
      Edit (before ++ c :: behind) (before ++ d :: behind)

/-- So many edits, one after the other, turn the one text into the other. -/
inductive Edits : Nat → List Char → List Char → Prop where
  | done (a : List Char) : Edits 0 a a
  | edit {n : Nat} {a b c : List Char} (hfirst : Edit a b) (hrest : Edits n b c) :
      Edits (n + 1) a c

/-- Characters in front of both texts are left alone. -/
theorem Edit.cons {a b : List Char} (h : Edit a b) (x : Char) : Edit (x :: a) (x :: b) := by
  cases h with
  | insertion before c behind => exact .insertion (x :: before) c behind
  | deletion before c behind => exact .deletion (x :: before) c behind
  | substitution before c d behind => exact .substitution (x :: before) c d behind

theorem Edits.cons {n : Nat} {a b : List Char} (h : Edits n a b) (x : Char) :
    Edits n (x :: a) (x :: b) := by
  induction h with
  | done a => exact .done (x :: a)
  | edit hfirst _ ih => exact .edit (hfirst.cons x) ih

/-- What is one edit stays one with both texts turned round. -/
theorem Edit.reverse {a b : List Char} (h : Edit a b) : Edit a.reverse b.reverse := by
  cases h with
  | insertion before c behind =>
    rw [List.reverse_append, List.reverse_append, List.reverse_cons, List.append_assoc]
    exact .insertion behind.reverse c before.reverse
  | deletion before c behind =>
    rw [List.reverse_append, List.reverse_append, List.reverse_cons, List.append_assoc]
    exact .deletion behind.reverse c before.reverse
  | substitution before c d behind =>
    rw [List.reverse_append, List.reverse_append, List.reverse_cons, List.reverse_cons,
      List.append_assoc, List.append_assoc]
    exact .substitution behind.reverse c d before.reverse

/-- What an edit does is undone by an edit. -/
theorem Edit.symm {a b : List Char} (h : Edit a b) : Edit b a := by
  cases h with
  | insertion before c behind => exact .deletion before c behind
  | deletion before c behind => exact .insertion before c behind
  | substitution before c d behind => exact .substitution before d c behind

theorem Edits.reverse {n : Nat} {a b : List Char} (h : Edits n a b) :
    Edits n a.reverse b.reverse := by
  induction h with
  | done a => exact .done a.reverse
  | edit hfirst _ ih => exact .edit hfirst.reverse ih

/-! ## How the distance is computed -/

/-- The number of edits that the recursion comes to which the table follows. -/
def fewestEdits : List Char → List Char → Nat
  | [], b => b.length
  | c :: a, [] => (c :: a).length
  | c :: a, d :: b =>
    if c = d then fewestEdits a b
    else 1 + min (min (fewestEdits a b) (fewestEdits a (d :: b))) (fewestEdits (c :: a) b)

theorem fewestEdits_nil_left (b : List Char) : fewestEdits [] b = b.length := by
  rw [fewestEdits]

theorem fewestEdits_nil_right (a : List Char) : fewestEdits a [] = a.length := by
  cases a with
  | nil => rw [fewestEdits]
  | cons c a => rw [fewestEdits]

theorem fewestEdits_cons_cons (c d : Char) (a b : List Char) :
    fewestEdits (c :: a) (d :: b) =
      if c = d then fewestEdits a b
      else 1 + min (min (fewestEdits a b) (fewestEdits a (d :: b))) (fewestEdits (c :: a) b) := by
  rw [fewestEdits]

section

variable {b : List Char}

/-- The row holds what it says for a text, the characters of which are `read` from its
end, in the columns up to `last`. -/
def RowHolds (read : List Char) (last : Nat) (row : Vector Nat (b.length + 1)) : Prop :=
  ∀ (column : Nat) (_ : column < b.length + 1), column ≤ last →
    row[column] = fewestEdits read (b.take column).reverse

/-- The entries that are filled in hold what they say, whatever was there. -/
theorem RowHolds.fillFrom {read : List Char} {c : Char} {above row : Vector Nat (b.length + 1)}
    {column : Nat} {rest : List Char} (habove : RowHolds read b.length above)
    (hrow : RowHolds (c :: read) column row) (hrest : b.drop column = rest)
    (h : column + rest.length = b.length) :
    RowHolds (c :: read) b.length (fillFrom c above column rest h row) := by
  induction rest generalizing column row with
  | nil =>
    have hcolumn : column = b.length := h
    rw [Text.fillFrom, ← hcolumn]
    exact hrow
  | cons d rest ih =>
    have hlt : column < b.length := by
      rw [← h, List.length_cons]
      omega
    have htake : (b.take (column + 1)).reverse = d :: (b.take column).reverse := by
      have hd : b[column]? = some d := by rw [← List.head?_drop, hrest, List.head?_cons]
      rw [List.take_add_one, hd, List.reverse_append]
      rfl
    have hdrop : b.drop (column + 1) = rest := by rw [← List.tail_drop, hrest, List.tail_cons]
    refine ih (fun place hplace hle => ?_) hdrop _
    rw [Vector.getElem_set]
    split
    · next heq =>
      -- the three entries around it are those that the recursion looks at
      subst heq
      rw [htake, fewestEdits_cons_cons, ← htake, habove column (by omega) (by omega),
        habove (column + 1) hplace (by omega), hrow column (by omega) (Nat.le_refl column)]
    · exact hrow place hplace (by omega)

/-- A row is the next one, with all that it says, whatever the spare one held. -/
theorem RowHolds.next {read : List Char} {c : Char} {rows : Rows b.length}
    (h : RowHolds read b.length rows.finished) :
    RowHolds (c :: read) b.length (rows.next b read.length c).finished := by
  refine h.fillFrom (fun column hcolumn hle => ?_) List.drop_zero _
  have hzero : column = 0 := Nat.le_zero.mp hle
  subst hzero
  rw [Vector.getElem_set_self, List.take_zero, List.reverse_nil, fewestEdits_nil_right,
    List.length_cons]

theorem RowHolds.run {read : List Char} {rows : Rows b.length}
    (h : RowHolds read b.length rows.finished) (a : List Char) :
    RowHolds (a.reverse ++ read) b.length (rows.run b read.length a).finished := by
  induction a generalizing read rows with
  | nil => exact h
  | cons c a ih =>
    rw [List.reverse_cons, List.append_assoc]
    exact ih h.next

theorem rowHolds_start : RowHolds [] b.length (Rows.start b.length).finished := by
  intro column hcolumn _
  have hle : column ≤ b.length := Nat.le_of_lt_succ hcolumn
  have hentry : (Rows.start b.length).finished[column] = column := Vector.getElem_range hcolumn
  rw [hentry, fewestEdits_nil_left, List.length_reverse, List.length_take, Nat.min_eq_left hle]

/-- The last entry of the table is what the recursion says of the texts turned round. -/
theorem editDistance_eq (a b : List Char) : editDistance a b = fewestEdits a.reverse b.reverse := by
  have hrow := rowHolds_start.run a b.length (Nat.lt_succ_self _) (Nat.le_refl _)
  rw [List.append_nil, List.take_length] at hrow
  exact hrow

end

/-! ## One character in front -/

theorem fewestEdits_comm (a b : List Char) : fewestEdits a b = fewestEdits b a := by
  induction a generalizing b with
  | nil => rw [fewestEdits_nil_left, fewestEdits_nil_right]
  | cons c a iha =>
    induction b with
    | nil => rw [fewestEdits_nil_left, fewestEdits_nil_right]
    | cons d b ihb =>
      rw [fewestEdits_cons_cons, fewestEdits_cons_cons, iha b, iha (d :: b), ihb,
        Nat.min_right_comm]
      simp only [eq_comm]

/-- What one more character in front of `a` does, from what one in front of the other
text does. -/
theorem fewestEdits_cons_le_of_le {a : List Char}
    (h : ∀ d b, fewestEdits a b ≤ fewestEdits a (d :: b) + 1) (c : Char) (b : List Char) :
    fewestEdits (c :: a) b ≤ fewestEdits a b + 1 := by
  cases b with
  | nil =>
    rw [fewestEdits_nil_right, fewestEdits_nil_right]
    exact Nat.le_refl _
  | cons d b =>
    rw [fewestEdits_cons_cons]
    split
    · exact h d b
    · omega

theorem fewestEdits_le_cons_right (a : List Char) (d : Char) (b : List Char) :
    fewestEdits a b ≤ fewestEdits a (d :: b) + 1 := by
  induction a generalizing b d with
  | nil =>
    rw [fewestEdits_nil_left, fewestEdits_nil_left, List.length_cons]
    omega
  | cons c a ih =>
    -- deleting `c` is one way to get to any text
    have hdelete := fewestEdits_cons_le_of_le ih c b
    rw [fewestEdits_cons_cons]
    split
    · exact hdelete
    · have hinsert := ih d b
      omega

theorem fewestEdits_cons_le (c : Char) (a b : List Char) :
    fewestEdits (c :: a) b ≤ fewestEdits a b + 1 :=
  fewestEdits_cons_le_of_le (fewestEdits_le_cons_right a) c b

theorem fewestEdits_le_cons (c : Char) (a b : List Char) :
    fewestEdits a b ≤ fewestEdits (c :: a) b + 1 := by
  rw [fewestEdits_comm a, fewestEdits_comm (c :: a)]
  exact fewestEdits_le_cons_right b c a

/-! ## One edit anywhere -/

/-- Two texts that are about as far from every text still are behind the same
character. -/
theorem fewestEdits_cons_congr {a b : List Char}
    (h : ∀ c, fewestEdits a c ≤ fewestEdits b c + 1) (x : Char) (c : List Char) :
    fewestEdits (x :: a) c ≤ fewestEdits (x :: b) c + 1 := by
  induction c with
  | nil =>
    have hlength := h []
    rw [fewestEdits_nil_right, fewestEdits_nil_right] at hlength ⊢
    exact Nat.succ_le_succ hlength
  | cons y c ih =>
    have hdelete := h (y :: c)
    have hboth := h c
    rw [fewestEdits_cons_cons, fewestEdits_cons_cons]
    split
    · exact hboth
    · omega

theorem fewestEdits_substitute (c d : Char) (a b : List Char) :
    fewestEdits (c :: a) b ≤ fewestEdits (d :: a) b + 1 := by
  induction b with
  | nil =>
    rw [fewestEdits_nil_right, fewestEdits_nil_right]
    exact Nat.le_succ _
  | cons e b ih =>
    have hinsert := fewestEdits_le_cons_right a e b
    have hdelete := fewestEdits_le_cons d a b
    rw [fewestEdits_cons_cons, fewestEdits_cons_cons]
    split <;> split <;> omega

theorem Edit.fewestEdits_le {a b : List Char} (h : Edit a b) (c : List Char) :
    fewestEdits a c ≤ fewestEdits b c + 1 := by
  have hbefore : ∀ {behind other : List Char},
      (∀ c, fewestEdits behind c ≤ fewestEdits other c + 1) → ∀ before c,
        fewestEdits (before ++ behind) c ≤ fewestEdits (before ++ other) c + 1 := by
    intro behind other hbehind before
    induction before with
    | nil => exact hbehind
    | cons x before ih => exact fewestEdits_cons_congr ih x
  cases h with
  | insertion before d behind => exact hbefore (fewestEdits_le_cons d behind) before c
  | deletion before d behind => exact hbefore (fewestEdits_cons_le d behind) before c
  | substitution before d e behind => exact hbefore (fewestEdits_substitute d e behind) before c

/-! ## The least number of edits -/

theorem fewestEdits_self (a : List Char) : fewestEdits a a = 0 := by
  induction a with
  | nil => exact fewestEdits_nil_left []
  | cons c a ih => rw [fewestEdits_cons_cons, if_pos rfl, ih]

theorem fewestEdits_le_of_edits {n : Nat} {a b : List Char} (h : Edits n a b) :
    fewestEdits a b ≤ n := by
  induction h with
  | done a => exact Nat.le_of_eq (fewestEdits_self a)
  | @edit n a b c hfirst _ ih =>
    calc fewestEdits a c ≤ fewestEdits b c + 1 := hfirst.fewestEdits_le c
      _ ≤ n + 1 := Nat.succ_le_succ ih

/-- The way that the computation takes is one of so many edits. -/
theorem edits_fewestEdits (a b : List Char) : Edits (fewestEdits a b) a b := by
  induction a generalizing b with
  | nil =>
    rw [fewestEdits_nil_left]
    induction b with
    | nil => exact .done []
    | cons d b ihb => exact .edit (.insertion [] d []) (ihb.cons d)
  | cons c a iha =>
    induction b with
    | nil =>
      have hrest := iha []
      rw [fewestEdits_nil_right] at hrest ⊢
      exact .edit (.deletion [] c a) hrest
    | cons d b ihb =>
      rw [fewestEdits_cons_cons]
      split
      · next heq => exact heq ▸ (iha b).cons c
      · rw [Nat.add_comm]
        generalize hleast : min (min (fewestEdits a b) _) _ = least
        have hways : least = fewestEdits a b ∨ least = fewestEdits a (d :: b) ∨
            least = fewestEdits (c :: a) b := by omega
        rcases hways with rfl | rfl | rfl
        · exact .edit (.substitution [] c d a) ((iha b).cons d)
        · exact .edit (.deletion [] c a) (iha (d :: b))
        · exact .edit (.insertion [] d (c :: a)) (ihb.cons d)

theorem edits_editDistance (a b : List Char) : Edits (editDistance a b) a b := by
  have hedits := (edits_fewestEdits a.reverse b.reverse).reverse
  rwa [List.reverse_reverse, List.reverse_reverse, ← editDistance_eq] at hedits

theorem editDistance_le_of_edits {n : Nat} {a b : List Char} (h : Edits n a b) :
    editDistance a b ≤ n := by
  rw [editDistance_eq]
  exact fewestEdits_le_of_edits h.reverse

/-- One edit brings a text nearer to any other by one at most. -/
theorem Edit.editDistance_le {a b : List Char} (h : Edit a b) (c : List Char) :
    editDistance a c ≤ editDistance b c + 1 := by
  rw [editDistance_eq, editDistance_eq]
  exact h.reverse.fewestEdits_le c.reverse

/-- So many edits turn the one text into the other, and fewer do not. -/
theorem editDistance_isLeast (a b : List Char) :
    Edits (editDistance a b) a b ∧ ∀ n, Edits n a b → editDistance a b ≤ n := by
  rw [editDistance_eq]
  refine ⟨?_, fun n hedits => fewestEdits_le_of_edits hedits.reverse⟩
  have hedits := (edits_fewestEdits a.reverse b.reverse).reverse
  rwa [List.reverse_reverse, List.reverse_reverse] at hedits

/-- Two edits lead from `flaw` to `lawn`, and one does not. -/
theorem editDistance_isLeast_flaw :
    Edits 2 "flaw".toList "lawn".toList ∧ editDistance "flaw".toList "lawn".toList ≤ 2 ∧
      ¬ Edits 1 "flaw".toList "lawn".toList := by
  obtain ⟨-, hleast⟩ := editDistance_isLeast "flaw".toList "lawn".toList
  have hscript : Edits 2 "flaw".toList "lawn".toList :=
    .edit (.deletion [] 'f' "law".toList) (.edit (.insertion "law".toList 'n' []) (.done _))
  exact ⟨hscript, hleast 2 hscript, fun hone => absurd (hleast 1 hone) (by decide)⟩

end Text
end TaintFlow
