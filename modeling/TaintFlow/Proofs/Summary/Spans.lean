/-
Spans of a text that is made of pieces.

Both scanners go over a line once and remember no more than the place where the
current key or word was opened.  `Passes` says of a piece that a scanner which
enters it with nothing open leaves it with nothing open, wherever it stands, and
that the spans it finds on the way are good.  Pieces that are passed can be put
together (`Passes.append`), so a line is understood piece by piece.
-/
import TaintFlow.Summary.Span

namespace TaintFlow
namespace Summary

/-- A scanner that stands before the piece with nothing open comes to its end with
nothing open, and finds good spans in it only. -/
def Passes (scan : Nat → List Char → List Span) (good : List Char → Prop) (piece : List Char) :
    Prop :=
  ∀ before behind, ∃ spans,
    scan before.length (piece ++ behind) =
      spans ++ scan (before.length + piece.length) behind ∧
    ∀ span ∈ spans, good (span.text (before ++ piece ++ behind))

section

variable {scan : Nat → List Char → List Span} {good : List Char → Prop}

theorem Passes.nil : Passes scan good [] :=
  fun _ _ => ⟨[], rfl, List.forall_mem_nil _⟩

theorem Passes.append {piece next : List Char} (h : Passes scan good piece)
    (hnext : Passes scan good next) : Passes scan good (piece ++ next) := by
  intro before behind
  obtain ⟨spans, hscan, hgood⟩ := h before (next ++ behind)
  obtain ⟨others, hscan', hgood'⟩ := hnext (before ++ piece) behind
  have hwhole : before ++ (piece ++ next) ++ behind = before ++ piece ++ next ++ behind := by
    rw [← List.append_assoc before]
  refine ⟨spans ++ others, ?_, fun span hspan => ?_⟩
  · rw [List.length_append] at hscan'
    rw [List.append_assoc, hscan, hscan', List.length_append, List.append_assoc, Nat.add_assoc]
  · rw [hwhole]
    rcases List.mem_append.mp hspan with hspan | hspan
    · rw [List.append_assoc]
      exact hgood span hspan
    · exact hgood' span hspan

/-- Characters that a scanner steps over are passed. -/
theorem Passes.of_forall {text : List Char}
    (hstep : ∀ c ∈ text, ∀ column behind, scan column (c :: behind) = scan (column + 1) behind) :
    Passes scan good text := by
  induction text with
  | nil => exact .nil
  | cons c text ih =>
    rw [List.forall_mem_cons] at hstep
    have hfirst : Passes scan good [c] := fun before behind =>
      ⟨[], hstep.1 before.length behind, List.forall_mem_nil _⟩
    exact hfirst.append (ih hstep.2)

/-- A text that is passed has no bad span. -/
theorem Passes.filter_eq_nil {bad : List Char → Bool} {text : List Char}
    (h : Passes scan (bad · = false) text) (hend : ∀ column, scan column [] = []) :
    ((scan 0 text).filter fun span => bad (span.text text)) = [] := by
  obtain ⟨spans, hscan, hgood⟩ := h [] []
  rw [hend, List.append_nil, List.append_nil, List.length_nil] at hscan
  rw [hscan, List.filter_eq_nil_iff]
  intro span hspan
  have hgood : bad (span.text ([] ++ text ++ [])) = false := hgood span hspan
  rw [List.nil_append, List.append_nil] at hgood
  rw [hgood]
  exact Bool.false_ne_true

end

/-- The span of a piece covers the piece. -/
theorem Span.text_append (before piece behind : List Char) :
    Span.text (before ++ piece ++ behind) ⟨before.length, before.length + piece.length⟩ =
      piece := by
  rw [Span.text, List.append_assoc, List.drop_left, Nat.add_sub_cancel_left, List.take_left]

/-- Between texts that are passed, a bad piece that is one span is the one bad
span. -/
theorem Passes.filter_eq_singleton {scan : Nat → List Char → List Span} {bad : List Char → Bool}
    {front piece back : List Char} (hfront : Passes scan (bad · = false) front)
    (hback : Passes scan (bad · = false) back)
    (hpiece : ∀ column behind, scan column (piece ++ behind) =
      ⟨column, column + piece.length⟩ :: scan (column + piece.length) behind)
    (hbad : bad piece = true) (hend : ∀ column, scan column [] = []) :
    ((scan 0 (front ++ piece ++ back)).filter fun span =>
        bad (span.text (front ++ piece ++ back))) =
      [⟨front.length, front.length + piece.length⟩] := by
  obtain ⟨spans, hscan, hgood⟩ := hfront [] (piece ++ back)
  obtain ⟨others, hscan', hgood'⟩ := hback (front ++ piece) []
  rw [hend, List.append_nil, List.append_nil, List.length_append] at hscan'
  rw [List.nil_append, ← List.append_assoc] at hgood
  rw [List.append_nil] at hgood'
  rw [List.length_nil, Nat.zero_add, hpiece, hscan', ← List.append_assoc] at hscan
  rw [hscan, List.filter_append, List.filter_cons, Span.text_append, if_pos hbad,
    List.filter_eq_nil_iff.mpr fun span hspan => Bool.eq_false_iff.mp (hgood span hspan),
    List.filter_eq_nil_iff.mpr fun span hspan => Bool.eq_false_iff.mp (hgood' span hspan)]
  rfl

/-! ## Keys -/

theorem keySpansFrom_step {c : Char} (hless : c ≠ '<') (hgreater : c ≠ '>') (column : Nat)
    (opened : Option Nat) (behind : List Char) :
    keySpansFrom column opened (c :: behind) = keySpansFrom (column + 1) opened behind := by
  rw [keySpansFrom]
  · exact hgreater
  · exact hless

/-- With a key open, everything up to the next `>` belongs to it. -/
theorem keySpansFrom_close {content : List Char} (h : '>' ∉ content) (column start : Nat)
    (behind : List Char) :
    keySpansFrom column (some start) (content ++ '>' :: behind) =
      (if start + 1 < column + content.length then [⟨start, column + content.length + 1⟩]
        else []) ++ keySpansFrom (column + content.length + 1) none behind := by
  induction content generalizing column with
  | nil => rfl
  | cons c content ih =>
    rw [List.mem_cons, not_or] at h
    have hstep : keySpansFrom column (some start) (c :: (content ++ '>' :: behind)) =
        keySpansFrom (column + 1) (some start) (content ++ '>' :: behind) := by
      by_cases hless : c = '<'
      · rw [hless]
        rfl
      · exact keySpansFrom_step hless (Ne.symm h.1) column (some start) _
    have hlength : column + 1 + content.length = column + (c :: content).length := by
      rw [List.length_cons]
      omega
    rw [List.cons_append, hstep, ih h.2, hlength]

/-- A key is one span that covers it. -/
theorem keySpansFrom_key {content : List Char} (hne : content ≠ []) (h : '>' ∉ content)
    (column : Nat) (behind : List Char) :
    keySpansFrom column none ('<' :: content ++ ['>'] ++ behind) =
      ⟨column, column + ('<' :: content ++ ['>']).length⟩ ::
        keySpansFrom (column + ('<' :: content ++ ['>']).length) none behind := by
  have hlength := List.length_pos_iff.mpr hne
  have hspan : column + ('<' :: content ++ ['>']).length = column + 1 + content.length + 1 := by
    rw [List.length_append, List.length_cons, List.length_singleton]
    omega
  show keySpansFrom (column + 1) (some column) (content ++ ['>'] ++ behind) = _
  rw [List.append_assoc, List.singleton_append, keySpansFrom_close h, if_pos (by omega), hspan]
  rfl

/-- A key is passed, if it is a good one. -/
theorem passes_key {good : List Char → Prop} {content : List Char} (hne : content ≠ [])
    (h : '>' ∉ content) (hgood : good ('<' :: content ++ ['>'])) :
    Passes (fun column => keySpansFrom column none) good ('<' :: content ++ ['>']) := by
  intro before behind
  refine ⟨[⟨before.length, before.length + ('<' :: content ++ ['>']).length⟩],
    keySpansFrom_key hne h before.length behind, ?_⟩
  rw [List.forall_mem_singleton, Span.text_append]
  exact hgood

/-! ## Words -/

theorem wordSpansFrom_step {c : Char} (h : c.isAlpha = false) (column : Nat)
    (behind : List Char) :
    wordSpansFrom column none (c :: behind) = wordSpansFrom (column + 1) none behind := by
  rw [wordSpansFrom, h]
  rfl

/-- With a word open, it goes on to the first character that is no letter. -/
theorem wordSpansFrom_close {letters : List Char} (h : ∀ c ∈ letters, c.isAlpha = true) {d : Char}
    (hd : d.isAlpha = false) (column start : Nat) (behind : List Char) :
    wordSpansFrom column (some start) (letters ++ d :: behind) =
      ⟨start, column + letters.length⟩ :: wordSpansFrom (column + letters.length + 1) none behind := by
  induction letters generalizing column with
  | nil =>
    rw [List.nil_append, wordSpansFrom, hd]
    rfl
  | cons c letters ih =>
    rw [List.forall_mem_cons] at h
    rw [List.cons_append, wordSpansFrom, h.1, if_pos rfl, List.length_cons]
    have hlength : column + 1 + letters.length = column + (letters.length + 1) := by omega
    rw [← hlength]
    exact ih h.2 (column + 1)

/-- A word with a character behind it that is no letter is passed, as one span
that covers the word. -/
theorem passes_word {good : List Char → Prop} {word : List Char} (hne : word ≠ [])
    (h : ∀ c ∈ word, c.isAlpha = true) {d : Char} (hd : d.isAlpha = false) (hgood : good word) :
    Passes (fun column => wordSpansFrom column none) good (word ++ [d]) := by
  intro before behind
  obtain ⟨c, letters, rfl⟩ := List.exists_cons_of_ne_nil hne
  rw [List.forall_mem_cons] at h
  refine ⟨[⟨before.length, before.length + (c :: letters).length⟩], ?_, ?_⟩
  · have hopen : wordSpansFrom before.length none (c :: letters ++ [d] ++ behind) =
        wordSpansFrom (before.length + 1) (some before.length) (letters ++ d :: behind) := by
      rw [List.append_assoc, List.cons_append, wordSpansFrom, h.1]
      rfl
    have hlength : before.length + 1 + letters.length = before.length + (c :: letters).length := by
      rw [List.length_cons]
      omega
    show wordSpansFrom before.length none (c :: letters ++ [d] ++ behind) = _
    rw [hopen, wordSpansFrom_close h.2 hd, hlength, List.length_append, List.length_singleton,
      ← Nat.add_assoc]
    rfl
  · rw [List.forall_mem_singleton, List.append_assoc before, List.append_assoc, ← List.append_assoc,
      Span.text_append]
    exact hgood

end Summary
end TaintFlow
