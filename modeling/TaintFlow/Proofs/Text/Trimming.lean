/-
What trimming leaves of a line.

A line is its indent, its trimmed part and blanks (`exists_indent_append_trim`).
So a character that is no blank occurs in the trimmed part as often as in the
line (`count_trim`), and a line with such a character ends, without the blanks at
its end, where its trimmed part ends (`length_trimEnd`).
-/
import TaintFlow.Proofs.Text.Lines

namespace TaintFlow
namespace Text

theorem not_mem_of_blank {c : Char} {blanks : List Char} (h : ∀ d ∈ blanks, isBlank d = true)
    (hc : isBlank c = false) : c ∉ blanks := by
  intro hmem
  rw [h c hmem] at hc
  cases hc

/-! ## One end -/

theorem indent_append_cons {blanks : List Char} (h : ∀ c ∈ blanks, isBlank c = true) {c : Char}
    (hc : isBlank c = false) (rest : List Char) : indent (blanks ++ c :: rest) = blanks.length := by
  rw [indent, List.takeWhile_append_of_pos h, List.takeWhile_cons, hc]
  exact congrArg List.length (List.append_nil blanks)

theorem trimStart_append_cons {blanks : List Char} (h : ∀ c ∈ blanks, isBlank c = true) {c : Char}
    (hc : isBlank c = false) (rest : List Char) : trimStart (blanks ++ c :: rest) = c :: rest := by
  rw [trimStart, List.dropWhile_append_of_pos h, List.dropWhile_cons, hc]
  rfl

/-- Only what is behind a character that is no blank is trimmed at the end. -/
theorem trimEnd_append_cons {c : Char} (hc : isBlank c = false) (before rest : List Char) :
    trimEnd (before ++ c :: rest) = before ++ c :: trimEnd rest := by
  have hdrop : (rest.reverse ++ c :: before.reverse).dropWhile isBlank =
      rest.reverse.dropWhile isBlank ++ c :: before.reverse := by
    rw [List.dropWhile_append]
    split
    · next hempty =>
      rw [List.isEmpty_iff.mp hempty, List.dropWhile_cons, hc]
      rfl
    · rfl
  rw [trimEnd, List.reverse_append, List.reverse_cons, List.append_assoc, List.singleton_append,
    hdrop, List.reverse_append, List.reverse_cons, List.reverse_reverse, List.append_assoc]
  rfl

theorem take_length_trimEnd (text : List Char) :
    text.take (trimEnd text).length = trimEnd text := by
  obtain ⟨blanks, htext, -⟩ := exists_trimEnd_append text
  exact (congrArg (List.take _) htext.symm).trans List.take_left

theorem isBlank_of_mem_drop_length_trimEnd {text : List Char} :
    ∀ c ∈ text.drop (trimEnd text).length, isBlank c = true := by
  obtain ⟨blanks, htext, hblanks⟩ := exists_trimEnd_append text
  have hdrop : text.drop (trimEnd text).length = blanks :=
    (congrArg (List.drop _) htext.symm).trans List.drop_left
  rw [hdrop]
  exact hblanks

theorem length_trimEnd_le (text : List Char) : (trimEnd text).length ≤ text.length := by
  rw [← take_length_trimEnd, List.length_take]
  exact Nat.min_le_right _ _

/-! ## Both ends -/

/-- A line is its indent, its trimmed part, and blanks. -/
theorem exists_indent_append_trim (text : List Char) :
    ∃ before behind, text = before ++ trim text ++ behind ∧ before.length = indent text ∧
      (∀ c ∈ before, isBlank c = true) ∧ ∀ c ∈ behind, isBlank c = true := by
  obtain ⟨behind, hbehind, hblank⟩ := exists_trimEnd_append (trimStart text)
  refine ⟨text.takeWhile isBlank, behind, ?_, rfl, fun c hc => ?_, hblank⟩
  · rw [List.append_assoc, trim, hbehind, trimStart, List.takeWhile_append_dropWhile]
  · exact List.all_eq_true.mp List.all_takeWhile c hc

/-- Trimming takes away no character but blanks. -/
theorem count_trim {c : Char} (hc : isBlank c = false) (text : List Char) :
    (trim text).count c = text.count c := by
  obtain ⟨before, behind, htext, -, hbefore, hbehind⟩ := exists_indent_append_trim text
  have hcount := congrArg (List.count c) htext
  rw [List.count_append, List.count_append,
    List.count_eq_zero.mpr (not_mem_of_blank hbefore hc),
    List.count_eq_zero.mpr (not_mem_of_blank hbehind hc)] at hcount
  omega

theorem mem_trim_iff {c : Char} (hc : isBlank c = false) {text : List Char} :
    c ∈ trim text ↔ c ∈ text := by
  rw [← List.count_pos_iff, ← List.count_pos_iff, count_trim hc]

theorem exists_first_of_mem {c : Char} (hc : isBlank c = false) {text : List Char}
    (hmem : c ∈ text) : ∃ blanks d rest, text = blanks ++ d :: rest ∧
      (∀ b ∈ blanks, isBlank b = true) ∧ isBlank d = false := by
  induction text with
  | nil => cases hmem
  | cons d rest ih =>
    by_cases hd : isBlank d = true
    · have hmem : c ∈ rest := by
        refine (List.mem_cons.mp hmem).resolve_left fun heq => ?_
        rw [heq, hd] at hc
        cases hc
      obtain ⟨blanks, e, behind, rfl, hblanks, he⟩ := ih hmem
      exact ⟨d :: blanks, e, behind, rfl, List.forall_mem_cons.mpr ⟨hd, hblanks⟩, he⟩
    · exact ⟨[], d, rest, rfl, List.forall_mem_nil _, Bool.eq_false_iff.mpr hd⟩

/-! ## Blanks put at an end -/

section

variable {blanks : List Char} (h : ∀ c ∈ blanks, isBlank c = true) (text : List Char)

include h

theorem trim_blanks_append : trim (blanks ++ text) = trim text := by
  rw [trim, trimStart, List.dropWhile_append_of_pos h]
  rfl

theorem indent_blanks_append : indent (blanks ++ text) = indent text + blanks.length := by
  rw [indent, List.takeWhile_append_of_pos h, List.length_append, Nat.add_comm]
  rfl

theorem trimEnd_append_blanks : trimEnd (text ++ blanks) = trimEnd text := by
  have hreverse : ∀ c ∈ blanks.reverse, isBlank c = true := fun c hc =>
    h c (List.mem_reverse.mp hc)
  rw [trimEnd, List.reverse_append, List.dropWhile_append_of_pos hreverse]
  rfl

theorem trim_append_blanks : trim (text ++ blanks) = trim text := by
  rw [trim, trim, trimStart, trimStart, List.dropWhile_append]
  split
  · next hempty =>
    rw [List.isEmpty_iff.mp hempty, ← List.append_nil blanks, List.dropWhile_append_of_pos h]
    rfl
  · exact trimEnd_append_blanks h _

end

/-- What stands behind a line that is not blank leaves its indent alone. -/
theorem indent_append {c : Char} (hc : isBlank c = false) {text : List Char} (hmem : c ∈ text)
    (behind : List Char) : indent (text ++ behind) = indent text := by
  obtain ⟨blanks, d, rest, rfl, hblanks, hd⟩ := exists_first_of_mem hc hmem
  rw [List.append_assoc, List.cons_append, indent_append_cons hblanks hd,
    indent_append_cons hblanks hd]

/-! ## The end of a line that is not blank -/

/-- A line that is not blank is trimmed at its end in one way or the other. -/
theorem trimEnd_eq_append_trim {c : Char} (hc : isBlank c = false) {text : List Char}
    (hmem : c ∈ text) : ∃ blanks, trimEnd text = blanks ++ trim text ∧
      blanks.length = indent text ∧ trimStart (trimEnd text) = trim text := by
  obtain ⟨blanks, d, rest, rfl, hblanks, hd⟩ := exists_first_of_mem hc hmem
  have htrim : trim (blanks ++ d :: rest) = d :: trimEnd rest := by
    rw [trim, trimStart_append_cons hblanks hd]
    exact trimEnd_append_cons hd [] rest
  rw [htrim, trimEnd_append_cons hd, indent_append_cons hblanks hd]
  exact ⟨blanks, rfl, rfl, trimStart_append_cons hblanks hd _⟩

/-- Where a line that is not blank ends without the blanks at its end. -/
theorem length_trimEnd {c : Char} (hc : isBlank c = false) {text : List Char} (hmem : c ∈ text) :
    (trimEnd text).length = indent text + (trim text).length := by
  obtain ⟨blanks, heq, hlength, -⟩ := trimEnd_eq_append_trim hc hmem
  rw [heq, List.length_append, hlength]

end Text
end TaintFlow
