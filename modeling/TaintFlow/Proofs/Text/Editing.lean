/-
Edits of a text.

A text can be edited on one of its lines (`modifyLine`), at one place (`insertAt`)
or at all its line feeds (`withReturns`).  An edit that writes no line feed changes
the lines it is about and leaves the others as they are.

A line is told from the others by what is above it and under it: the lines of the
text are `above ++ raw :: below`, and the row of the line is the length of `above`.
-/
import TaintFlow.Proofs.Text.Trimming

namespace TaintFlow
namespace Text

/-! ## A line among the others -/

theorem exists_lines_around {lines : List (List Char)} {row : Nat} {raw : List Char}
    (h : lines[row]? = some raw) :
    ∃ above below, lines = above ++ raw :: below ∧ above.length = row := by
  obtain ⟨hlt, hraw⟩ := List.getElem?_eq_some_iff.mp h
  refine ⟨lines.take row, lines.drop (row + 1), ?_, ?_⟩
  · rw [← hraw, ← List.drop_eq_getElem_cons hlt, List.take_append_drop]
  · rw [List.length_take, Nat.min_eq_left (Nat.le_of_lt hlt)]

theorem getD_length_append (above : List (List Char)) (raw : List Char)
    (below : List (List Char)) : (above ++ raw :: below).getD above.length [] = raw := by
  rw [List.getD_eq_getElem?_getD, List.getElem?_append_right (Nat.le_refl _), Nat.sub_self,
    List.getElem?_cons_zero, Option.getD_some]

theorem getD_length_append_succ (above : List (List Char)) (raw : List Char)
    (below : List (List Char)) :
    (above ++ raw :: below).getD (above.length + 1) [] = below.headD [] := by
  rw [List.getD_eq_getElem?_getD, List.getElem?_append_right (Nat.le_add_right _ 1),
    Nat.add_sub_cancel_left, List.getElem?_cons_succ, List.headD_eq_head?_getD,
    List.head?_eq_getElem?]

theorem getElem?_length_append (above : List (List Char)) (raw : List Char)
    (below : List (List Char)) : (above ++ raw :: below)[above.length]? = some raw := by
  rw [List.getElem?_append_right (Nat.le_refl _), Nat.sub_self, List.getElem?_cons_zero]

theorem getElem?_length_append_succ (above : List (List Char)) (raw : List Char)
    (below : List (List Char)) : (above ++ raw :: below)[above.length + 1]? = below.head? := by
  rw [List.getElem?_append_right (Nat.le_add_right _ 1), Nat.add_sub_cancel_left,
    List.getElem?_cons_succ, List.head?_eq_getElem?]

theorem modify_length_append (above : List (List Char)) (raw : List Char)
    (below : List (List Char)) (edit : List Char → List Char) :
    (above ++ raw :: below).modify above.length edit = above ++ edit raw :: below := by
  induction above with
  | nil => rfl
  | cons line above ih => exact congrArg (line :: ·) ih

/-! ## Edits of a line -/

/-- The text with another line in place of that of the given row. -/
def modifyLine (row : Nat) (edit : List Char → List Char) (text : String) : String :=
  String.ofList (['\n'].intercalate ((lines text.toList).modify row edit))

/-- The text with one more character, which comes that many characters into the
line of the given row. -/
def insertAt (row column : Nat) (c : Char) (text : String) : String :=
  modifyLine row (fun line => line.take column ++ c :: line.drop column) text

section

variable {text : String} {above below : List (List Char)}

theorem newline_not_mem_of_lines {raw : List Char} (h : lines text.toList = above ++ raw :: below) :
    '\n' ∉ raw := by
  have hraw : raw ∈ lines text.toList := by
    rw [h]
    exact List.mem_append_right _ List.mem_cons_self
  exact newline_not_mem_of_mem_lines hraw

theorem lines_modifyLine {raw : List Char} (h : lines text.toList = above ++ raw :: below)
    (edit : List Char → List Char) (hedit : '\n' ∉ edit raw) :
    lines (modifyLine above.length edit text).toList = above ++ edit raw :: below := by
  have hlines : ∀ line ∈ above ++ raw :: below, '\n' ∉ line := by
    rw [← h]
    exact fun _ => newline_not_mem_of_mem_lines
  rw [List.forall_mem_append, List.forall_mem_cons] at hlines
  rw [modifyLine, String.toList_ofList, h, modify_length_append]
  refine List.splitOn_intercalate '\n' ?_ (List.append_ne_nil_of_right_ne_nil _ (List.cons_ne_nil _ _))
  exact List.forall_mem_append.mpr ⟨hlines.1, List.forall_mem_cons.mpr ⟨hedit, hlines.2.2⟩⟩

theorem lines_insertAt {front back : List Char}
    (h : lines text.toList = above ++ (front ++ back) :: below) {c : Char} (hc : c ≠ '\n') :
    lines (insertAt above.length front.length c text).toList =
      above ++ (front ++ c :: back) :: below := by
  have hraw := newline_not_mem_of_lines h
  have hedit : (front ++ back).take front.length ++ c :: (front ++ back).drop front.length =
      front ++ c :: back := by
    rw [List.take_left, List.drop_left]
  have hnewline : '\n' ∉ front ++ c :: back := by
    simpa [hc.symm] using hraw
  have hlines := lines_modifyLine h
    (fun line => line.take front.length ++ c :: line.drop front.length) (hedit ▸ hnewline)
  rw [hedit] at hlines
  exact hlines

end

/-! ## Carriage returns -/

/-- The text with a carriage return in front of every line feed. -/
def withReturns (text : String) : String :=
  String.ofList (text.toList.flatMap fun c => if c = '\n' then ['\r', '\n'] else [c])

/-- The lines with a carriage return behind each but the last. -/
def returns : List (List Char) → List (List Char)
  | [] => []
  | [last] => [last]
  | raw :: next :: rest => (raw ++ ['\r']) :: returns (next :: rest)

theorem lines_withReturns (text : String) :
    lines (withReturns text).toList = returns (lines text.toList) := by
  rw [withReturns, String.toList_ofList]
  generalize text.toList = chars
  induction chars with
  | nil => rfl
  | cons c chars ih =>
    obtain ⟨first, others, hlines⟩ := List.exists_cons_of_ne_nil (List.splitOn_ne_nil '\n' chars)
    have hlines : lines chars = first :: others := hlines
    rw [List.flatMap_cons]
    by_cases hc : c = '\n'
    · rw [if_pos hc, hc, List.cons_append, List.singleton_append, lines_cons (by decide),
        lines_newline_cons, lines_newline_cons, ih, hlines]
      rfl
    · rw [if_neg hc, List.singleton_append, lines_cons hc, lines_cons hc, ih, hlines]
      cases others <;> rfl

theorem length_returns (lines : List (List Char)) : (returns lines).length = lines.length := by
  induction lines with
  | nil => rfl
  | cons raw rest ih =>
    cases rest with
    | nil => rfl
    | cons next rest => exact congrArg (· + 1) ih

theorem getLastD_returns (lines : List (List Char)) (default : List Char) :
    (returns lines).getLastD default = lines.getLastD default := by
  induction lines generalizing default with
  | nil => rfl
  | cons raw rest ih =>
    cases rest with
    | nil => rfl
    | cons next rest =>
      rw [returns, List.getLastD_cons, ih]
      rfl

theorem any_contains_returns {c : Char} (hc : c ≠ '\r') (lines : List (List Char)) :
    (returns lines).any (·.contains c) = lines.any (·.contains c) := by
  induction lines with
  | nil => rfl
  | cons raw rest ih =>
    cases rest with
    | nil => rfl
    | cons next rest =>
      have hraw : (raw ++ ['\r']).contains c = raw.contains c := by
        rw [Bool.eq_iff_iff, List.contains_iff_mem, List.contains_iff_mem, List.mem_append,
          List.mem_singleton, or_iff_left hc]
      rw [returns, List.any_cons, List.any_cons, hraw, ih]

end Text
end TaintFlow
