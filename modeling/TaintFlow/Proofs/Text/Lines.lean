/-
Lines of a text, and blanks at their ends.

A text is cut at its line feeds and nowhere else: a piece without one goes to the
front of the first line behind it (`lines_append`), and a line feed keeps the lines
on both its sides apart (`lines_append_newline`).  What trimming removes from a line
is blank.
-/
import TaintFlow.Text.Blank
import TaintFlow.Text.Search

namespace TaintFlow
namespace Text

/-! ## Lines -/

theorem lines_nil : lines [] = [[]] := List.splitOn_nil '\n'

theorem lines_newline_cons (text : List Char) : lines ('\n' :: text) = [] :: lines text := by
  rw [lines, List.splitOn, List.splitOnP_cons_eq_if_modifyHead, if_pos (by rfl)]
  rfl

theorem lines_cons {c : Char} (hc : c ≠ '\n') (text : List Char) :
    lines (c :: text) = (lines text).modifyHead (c :: ·) := by
  rw [lines, List.splitOn, List.splitOnP_cons_eq_if_modifyHead, if_neg (by simpa using hc)]
  rfl

theorem lines_append {piece : List Char} (h : '\n' ∉ piece) (text : List Char) :
    lines (piece ++ text) = (lines text).modifyHead (piece ++ ·) := by
  induction piece with
  | nil =>
    show lines text = (lines text).modifyHead id
    rw [List.modifyHead_id]
    rfl
  | cons c piece ih =>
    rw [List.mem_cons, not_or] at h
    rw [List.cons_append, lines_cons (Ne.symm h.1), ih h.2, List.modifyHead_modifyHead]
    rfl

/-- A character other than the line feed stands on a line. -/
theorem exists_mem_lines {c : Char} {text : List Char} (hc : c ≠ '\n') (h : c ∈ text) :
    ∃ line ∈ lines text, c ∈ line := by
  induction text with
  | nil => cases h
  | cons d text ih =>
    by_cases hd : d = '\n'
    · have hmem : c ∈ text := (List.mem_cons.mp h).resolve_left (hd ▸ hc)
      obtain ⟨line, hline, hmem⟩ := ih hmem
      rw [hd, lines_newline_cons]
      exact ⟨line, List.mem_cons_of_mem _ hline, hmem⟩
    · obtain ⟨first, others, hlines⟩ := List.exists_cons_of_ne_nil (List.splitOn_ne_nil '\n' text)
      rw [lines_cons hd, lines, hlines, List.modifyHead_cons]
      rcases List.mem_cons.mp h with heq | hmem
      · exact ⟨d :: first, List.mem_cons_self, heq ▸ List.mem_cons_self⟩
      · obtain ⟨line, hline, hmem⟩ := ih hmem
        rw [lines, hlines] at hline
        rcases List.mem_cons.mp hline with heq | hother
        · exact ⟨d :: first, List.mem_cons_self, List.mem_cons_of_mem d (heq ▸ hmem)⟩
        · exact ⟨line, List.mem_cons_of_mem _ hother, hmem⟩

theorem mem_of_mem_lines {c : Char} {text line : List Char} (hline : line ∈ lines text)
    (h : c ∈ line) : c ∈ text := by
  induction text generalizing line with
  | nil =>
    rw [lines_nil, List.mem_singleton] at hline
    exact hline ▸ h
  | cons d text ih =>
    by_cases hd : d = '\n'
    · rw [hd, lines_newline_cons, List.mem_cons] at hline
      rcases hline with rfl | hline
      · cases h
      · exact List.mem_cons_of_mem d (ih hline h)
    · obtain ⟨first, others, hlines⟩ := List.exists_cons_of_ne_nil (List.splitOn_ne_nil '\n' text)
      have hlines : lines text = first :: others := hlines
      rw [lines_cons hd, hlines, List.modifyHead_cons, List.mem_cons] at hline
      rcases hline with rfl | hline
      · rcases List.mem_cons.mp h with rfl | hmem
        · exact List.mem_cons_self
        · exact List.mem_cons_of_mem d (ih (hlines ▸ List.mem_cons_self) hmem)
      · exact List.mem_cons_of_mem d (ih (hlines ▸ List.mem_cons_of_mem _ hline) h)

theorem lines_of_not_mem {text : List Char} (h : '\n' ∉ text) : lines text = [text] := by
  have happend := lines_append h []
  rw [List.append_nil, lines_nil, List.modifyHead_cons, List.append_nil] at happend
  exact happend

/-- A line feed between two texts keeps their lines apart. -/
theorem lines_append_newline (text rest : List Char) :
    lines (text ++ '\n' :: rest) = lines text ++ lines rest := by
  induction text with
  | nil => rw [List.nil_append, lines_newline_cons, lines_nil, List.singleton_append]
  | cons c text ih =>
    by_cases hc : c = '\n'
    · rw [hc, List.cons_append, lines_newline_cons, lines_newline_cons, ih, List.cons_append]
    · obtain ⟨first, others, hlines⟩ := List.exists_cons_of_ne_nil (List.splitOn_ne_nil '\n' text)
      rw [List.cons_append, lines_cons hc, lines_cons hc, ih, lines, hlines]
      rfl

theorem newline_not_mem_of_mem_lines {text line : List Char} (h : line ∈ lines text) :
    '\n' ∉ line := by
  induction text generalizing line with
  | nil =>
    rw [lines_nil, List.mem_singleton] at h
    exact h ▸ List.not_mem_nil
  | cons c text ih =>
    by_cases hc : c = '\n'
    · rw [hc, lines_newline_cons, List.mem_cons] at h
      rcases h with rfl | h
      · exact List.not_mem_nil
      · exact ih h
    · obtain ⟨first, others, hlines⟩ := List.exists_cons_of_ne_nil (List.splitOn_ne_nil '\n' text)
      have hlines : lines text = first :: others := hlines
      rw [lines_cons hc, hlines, List.modifyHead_cons, List.mem_cons] at h
      rcases h with rfl | h
      · exact List.not_mem_cons_of_ne_of_not_mem (Ne.symm hc) (ih (hlines ▸ List.mem_cons_self))
      · exact ih (hlines ▸ List.mem_cons_of_mem _ h)

theorem length_lines (text : List Char) : (lines text).length = text.count '\n' + 1 := by
  induction text with
  | nil => rfl
  | cons c text ih =>
    by_cases hc : c = '\n'
    · rw [hc, lines_newline_cons, List.length_cons, ih, List.count_cons_self]
    · rw [lines_cons hc, List.length_modifyHead, ih, List.count_cons_of_ne hc]

/-- The lines of some texts that each end in a line feed. -/
theorem lines_join (texts : List String) :
    lines (String.join (texts.map (· ++ "\n"))).toList =
      texts.flatMap (fun text => lines text.toList) ++ [[]] := by
  induction texts with
  | nil => rfl
  | cons text texts ih =>
    have hsplit : (String.join ((text :: texts).map (· ++ "\n"))).toList =
        text.toList ++ '\n' :: (String.join (texts.map (· ++ "\n"))).toList := by
      rw [List.map_cons, String.toList_join, String.toList_join, List.flatMap_cons,
        String.toList_append, List.append_assoc]
      rfl
    rw [hsplit, lines_append_newline, ih, List.flatMap_cons, List.append_assoc]

/-! ## Blanks -/

theorem isAlpha_of_isBlank {c : Char} (h : isBlank c = true) : c.isAlpha = false := by
  have hval : c.val.toNat = c.toNat := rfl
  have halpha : c.isAlpha = (decide (c.val ≥ 'A'.val ∧ c.val ≤ 'Z'.val) ||
      (decide (c.val ≥ 'a'.val) && decide (c.val ≤ 'z'.val))) := rfl
  simp only [isBlank, Bool.or_eq_true, Bool.and_eq_true, decide_eq_true_eq, beq_iff_eq] at h
  simp only [halpha, Bool.or_eq_false_iff, Bool.and_eq_false_iff, decide_eq_false_iff_not,
    ge_iff_le, UInt32.le_iff_toNat_le, hval]
  constructor
  · show ¬ (65 ≤ c.toNat ∧ c.toNat ≤ 90)
    omega
  · show ¬ 97 ≤ c.toNat ∨ ¬ c.toNat ≤ 122
    omega

/-- Behind a text whose end is trimmed there were only blanks. -/
theorem exists_trimEnd_append (text : List Char) :
    ∃ blanks, trimEnd text ++ blanks = text ∧ ∀ c ∈ blanks, isBlank c = true := by
  refine ⟨(text.reverse.takeWhile isBlank).reverse, ?_, fun c hc => ?_⟩
  · rw [trimEnd, ← List.reverse_append, List.takeWhile_append_dropWhile, List.reverse_reverse]
  · exact List.all_eq_true.mp List.all_takeWhile c (List.mem_reverse.mp hc)

end Text
end TaintFlow
