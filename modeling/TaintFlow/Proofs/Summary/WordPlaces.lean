/-
Where the words of a line are.

The scanner finds each run of letters that no letter extends (`mem_wordSpans_iff`),
and finds them from left to right with a character between any two
(`pairwise_wordSpans`).  The words of a row that are reported are those that hold a
piece of a keyword and are none (`misspeltWords_on_row`).
-/
import TaintFlow.Proofs.Summary.Neighbours
import TaintFlow.Proofs.Summary.Slips

namespace TaintFlow
namespace Summary

/-! ## What the scanner finds -/

/-- With no word open, a word is one span, and the scanner goes on behind it. -/
theorem wordSpansFrom_word {before word behind : List Char} (h : WordBetween before word behind)
    (column : Nat) :
    wordSpansFrom column none (word ++ behind) =
      ⟨column, column + word.length⟩ :: wordSpansFrom (column + word.length) none behind := by
  obtain ⟨c, letters, rfl⟩ := List.exists_cons_of_ne_nil h.nonempty
  obtain ⟨hc, hletters⟩ := List.forall_mem_cons.mp h.letters
  have hopen : wordSpansFrom column none (c :: letters ++ behind) =
      wordSpansFrom (column + 1) (some column) (letters ++ behind) := by
    rw [List.cons_append, wordSpansFrom, if_pos hc]
    rfl
  have hlength : column + 1 + letters.length = column + (c :: letters).length := by
    rw [List.length_cons]
    omega
  rw [hopen]
  cases behind with
  | nil => rw [List.append_nil, wordSpansFrom_letters hletters, hlength]; rfl
  | cons d behind =>
    have hd : d.isAlpha = false := h.behind d rfl
    rw [wordSpansFrom_close hletters hd, hlength, wordSpansFrom_step hd]

theorem mem_wordSpans_of_isWord {line : List Char} {span : Span} (h : IsWord line span) :
    span ∈ wordSpans line := by
  obtain ⟨before, word, behind, rfl, hword, rfl⟩ := h
  rw [List.append_assoc, wordSpans]
  rcases List.eq_nil_or_concat' before with rfl | ⟨front, d, rfl⟩
  · rw [List.nil_append, wordSpansFrom_word hword]
    exact List.mem_cons_self
  · have hd : d.isAlpha = false := hword.before d List.getLast?_concat
    have hlength : 0 + front.length + 1 = (front ++ [d]).length := by
      rw [List.length_append, List.length_singleton, Nat.zero_add]
    rw [← List.append_cons, wordSpansFrom_append_cons hd, hlength, wordSpansFrom_word hword]
    exact List.mem_append_right _ List.mem_cons_self

theorem mem_wordSpans_iff {line : List Char} {span : Span} :
    span ∈ wordSpans line ↔ IsWord line span :=
  ⟨isWord_of_mem_wordSpans, mem_wordSpans_of_isWord⟩

theorem mem_closeWord_iff {column : Nat} {opened : Option Nat} {span : Span} :
    span ∈ closeWord column opened ↔ ∃ start, opened = some start ∧ span = ⟨start, column⟩ := by
  rw [closeWord, Option.mem_toList, Option.map_eq_some_iff]
  exact exists_congr fun start => and_congr_right fun _ => eq_comm

/-- No word starts in front of the one that is open, or of the scanner if none is. -/
theorem le_start_of_mem_wordSpansFrom {column : Nat} {opened : Option Nat}
    (hopened : ∀ start, opened = some start → start ≤ column) (text : List Char) :
    ∀ span ∈ wordSpansFrom column opened text, opened.getD column ≤ span.start := by
  have hclose : ∀ column opened, ∀ span ∈ closeWord column opened,
      opened.getD column ≤ span.start := by
    intro column opened span hspan
    obtain ⟨start, rfl, rfl⟩ := mem_closeWord_iff.mp hspan
    exact Nat.le_refl start
  induction text generalizing column opened with
  | nil => exact hclose column opened
  | cons c text ih =>
    rw [wordSpansFrom]
    by_cases hc : c.isAlpha = true
    · have hcolumn : (opened.or (some column)).getD (column + 1) = opened.getD column := by
        cases opened <;> rfl
      rw [if_pos hc, ← hcolumn]
      refine ih fun start hstart => ?_
      cases opened with
      | none => exact Nat.le_succ_of_le (Nat.le_of_eq (Option.some.inj hstart).symm)
      | some _ => exact Nat.le_succ_of_le (hopened start hstart)
    · have hle : opened.getD column ≤ column := by
        cases opened with
        | none => exact Nat.le_refl column
        | some start => exact hopened start rfl
      rw [if_neg hc]
      intro span hspan
      rcases List.mem_append.mp hspan with hspan | hspan
      · exact hclose column opened span hspan
      · have hnone : ∀ start, none = some start → start ≤ column + 1 := by
          intro start hnone
          cases hnone
        have hright : column + 1 ≤ span.start := ih hnone span hspan
        exact Nat.le_trans hle (Nat.le_of_succ_le hright)

theorem pairwise_wordSpansFrom (column : Nat) (opened : Option Nat) (text : List Char) :
    (wordSpansFrom column opened text).Pairwise fun first second => first.stop < second.start := by
  have hclose : ∀ column opened, (closeWord column opened).Pairwise
      fun first second => first.stop < second.start := by
    intro column opened
    cases opened with
    | none => exact .nil
    | some start => exact List.pairwise_singleton _ _
  induction text generalizing column opened with
  | nil => exact hclose column opened
  | cons c text ih =>
    rw [wordSpansFrom]
    by_cases hc : c.isAlpha = true
    · rw [if_pos hc]
      exact ih (column + 1) (opened.or (some column))
    · rw [if_neg hc, List.pairwise_append]
      refine ⟨hclose column opened, ih (column + 1) none, fun first hfirst second hsecond => ?_⟩
      obtain ⟨start, -, rfl⟩ := mem_closeWord_iff.mp hfirst
      have hnone : ∀ start, none = some start → start ≤ column + 1 := by
        intro start hnone
        cases hnone
      exact le_start_of_mem_wordSpansFrom hnone text second hsecond

theorem pairwise_wordSpans (line : List Char) :
    (wordSpans line).Pairwise fun first second => first.stop < second.start :=
  pairwise_wordSpansFrom 0 none line

/-! ## The words that are reported -/

/-- The findings about words on a row are the longest runs of letters of the trimmed
line that hold a piece of a keyword and are none, each of them once, from left to
right.  Each has the columns at which the run stands on the whole line. -/
theorem misspeltWords_on_row (source : String) (row : Nat) (raw : List Char)
    (hrow : (Text.lines source.toList)[row]? = some raw) :
    ∃ words : List Span,
      (∀ word, word ∈ words ↔
        IsWord (Text.trim raw) word ∧ Misspelt (word.text (Text.trim raw))) ∧
      words.Pairwise (fun first second => first.stop < second.start) ∧
      findingsOn .unknownOperation row source = words.map (fun word =>
        .about .unknownOperation ⟨row, (word.shift (Text.indent raw)).start⟩
          ⟨row, (word.shift (Text.indent raw)).stop⟩ (word.text (Text.trim raw))) ∧
      ∀ word ∈ words, IsWord raw (word.shift (Text.indent raw)) ∧
        (word.shift (Text.indent raw)).text raw = word.text (Text.trim raw) := by
  obtain ⟨above, below, hlines, rfl⟩ := Text.exists_lines_around hrow
  obtain ⟨before, behind, hraw, hindent, hbefore, hbehind⟩ := Text.exists_indent_append_trim raw
  have hfindings : findingsOn .unknownOperation above.length source =
      (Line.trimmed above.length raw).wordFindings := by
    rw [findingsOn_eq rfl hlines, Line.filter_findings]
  have hshift : wordSpans raw = (wordSpans (Text.trim raw)).map (Span.shift (Text.indent raw)) := by
    rw [← hindent, ← wordSpans_of_blank hbefore hbehind, ← hraw]
  refine ⟨(wordSpans (Text.trim raw)).filter fun word =>
      Line.isMisspeltKeyword (word.text (Text.trim raw)), fun word => ?_,
    (pairwise_wordSpans _).filter _, ?_, fun word hword => ?_⟩
  · rw [List.mem_filter, mem_wordSpans_iff, isMisspeltKeyword_iff]
  · rw [hfindings, Line.wordFindings]
    refine List.map_congr_left fun word _ => ?_
    show Finding.about _ ⟨_, Text.indent raw + word.start⟩ ⟨_, Text.indent raw + word.stop⟩ _ = _
    rw [Nat.add_comm, Nat.add_comm _ word.stop]
    rfl
  · have hword : word ∈ wordSpans (Text.trim raw) := List.mem_of_mem_filter hword
    refine ⟨mem_wordSpans_iff.mp (hshift ▸ List.mem_map_of_mem hword), ?_⟩
    have htext := Span.text_shift before (Text.trim raw ++ behind) word
    rw [← List.append_assoc, ← hraw, hindent] at htext
    rw [htext, Span.text_append_of_le (mem_wordSpans_iff.mp hword).bounds.2]

/-- Words next to a digit, to a letter with an accent, and to the end of the line. -/
def crowdedWords : String := "\u3000 Sinké2swap_swapTaint1 setsink transitives"

/-- The misspelt words of a crowded second line. -/
theorem misspeltWords_on_row_crowdedWords :
    (Text.lines ("x\n" ++ crowdedWords).toList)[1]? = some crowdedWords.toList ∧
    findingsOn .unknownOperation 1 ("x\n" ++ crowdedWords) =
      [.about .unknownOperation ⟨1, 2⟩ ⟨1, 6⟩ "Sink".toList,
        .about .unknownOperation ⟨1, 8⟩ ⟨1, 12⟩ "swap".toList,
        .about .unknownOperation ⟨1, 32⟩ ⟨1, 43⟩ "transitives".toList] ∧
    ∃ words : List Span,
      (∀ word, word ∈ words ↔ IsWord (Text.trim crowdedWords.toList) word ∧
        Misspelt (word.text (Text.trim crowdedWords.toList))) ∧
      words.Pairwise (fun first second => first.stop < second.start) ∧
      findingsOn .unknownOperation 1 ("x\n" ++ crowdedWords) = words.map (fun word =>
        .about .unknownOperation ⟨1, (word.shift (Text.indent crowdedWords.toList)).start⟩
          ⟨1, (word.shift (Text.indent crowdedWords.toList)).stop⟩
          (word.text (Text.trim crowdedWords.toList))) := by
  have hrow : (Text.lines ("x\n" ++ crowdedWords).toList)[1]? = some crowdedWords.toList := by
    decide +kernel
  obtain ⟨words, hmem, hpairwise, hfindings, -⟩ :=
    misspeltWords_on_row ("x\n" ++ crowdedWords) 1 crowdedWords.toList hrow
  exact ⟨hrow, by decide +kernel, words, hmem, hpairwise, hfindings⟩

end Summary
end TaintFlow
