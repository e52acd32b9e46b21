/-
The keys of a line.

A key is opened by the first `<` behind the last `>` in front of it, and closed by
the next `>` (`KeyBetween`).  The scanner finds every key that there is
(`mem_keySpans_of_keyBetween`), and what it finds in them is what `keyContents`
reads, which counts no columns (`map_text_keySpans`).
-/
import Mathlib.Data.List.Basic
import TaintFlow.Proofs.Summary.Scanning

namespace TaintFlow
namespace Summary

/-! ## Numbers in keys -/

theorem isKeyNumber_iff {content : List Char} : isKeyNumber content = true ↔
    ∃ d, d.isDigit = true ∧ (content = [d] ∨ content = ['-', d]) := by
  constructor
  · intro h
    unfold isKeyNumber at h
    split at h
    · next d => exact ⟨d, h, .inl rfl⟩
    · next sign d =>
      rw [Bool.and_eq_true, beq_iff_eq] at h
      exact ⟨d, h.2, .inr (by rw [h.1])⟩
    · cases h
  · rintro ⟨d, hd, rfl | rfl⟩
    · exact hd
    · exact hd

theorem eq_minus_or_isDigit_of_mem {content : List Char} (h : isKeyNumber content = true) {c : Char}
    (hc : c ∈ content) : c = '-' ∨ c.isDigit = true := by
  obtain ⟨d, hd, rfl | rfl⟩ := isKeyNumber_iff.mp h
  · rw [List.mem_singleton.mp hc]
    exact .inr hd
  · refine (List.mem_cons.mp hc).imp_right fun hc => ?_
    rw [List.mem_singleton.mp hc]
    exact hd

/-! ## Where keys are -/

/-- A key between what stands in front of it and a closing bracket.  In front of its
own opening bracket there is none behind the last closing one. -/
structure KeyBetween (before content : List Char) : Prop where
  nonempty : content ≠ []
  closed : '>' ∉ content
  opened : ∃ front gap, before = front ++ gap ∧ (∀ c ∈ front.getLast?, c = '>') ∧
    '<' ∉ gap ∧ '>' ∉ gap

/-- A closing bracket leaves no key open. -/
theorem keySpansFrom_append_greater (column : Nat) (opened : Option Nat)
    (text behind : List Char) :
    ∃ spans, keySpansFrom column opened (text ++ '>' :: behind) =
      spans ++ keySpansFrom (column + text.length + 1) none behind := by
  induction text generalizing column opened with
  | nil => exact ⟨_, keySpansFrom_greater column opened behind⟩
  | cons c text ih =>
    have hcolumn : column + (c :: text).length + 1 = column + 1 + text.length + 1 := by
      rw [List.length_cons]
      omega
    rw [hcolumn, List.cons_append]
    by_cases hgreater : c = '>'
    · obtain ⟨spans, hspans⟩ := ih (column + 1) none
      rw [hgreater, keySpansFrom_greater, hspans, ← List.append_assoc]
      exact ⟨_, rfl⟩
    · by_cases hless : c = '<'
      · rw [hless]
        exact ih (column + 1) (opened.or (some column))
      · rw [keySpansFrom_step hless hgreater]
        exact ih (column + 1) opened

theorem mem_keySpans_of_keyBetween {before content : List Char} (h : KeyBetween before content)
    (behind : List Char) :
    (⟨before.length, before.length + ('<' :: content ++ ['>']).length⟩ : Span) ∈
      keySpans (before ++ ('<' :: content ++ ['>']) ++ behind) := by
  obtain ⟨front, gap, rfl, hfront, hless, hgreater⟩ := h.opened
  have hfresh : ∀ rest, ∃ spans, keySpans (front ++ rest) =
      spans ++ keySpansFrom front.length none rest := by
    intro rest
    rcases List.eq_nil_or_concat' front with rfl | ⟨front, c, rfl⟩
    · exact ⟨[], rfl⟩
    · have hspans := keySpansFrom_append_greater 0 none front rest
      rw [Nat.zero_add] at hspans
      rw [hfront c List.getLast?_concat, List.append_assoc, List.length_append,
        List.length_singleton]
      exact hspans
  obtain ⟨spans, hspans⟩ := hfresh (gap ++ ('<' :: content ++ ['>'] ++ behind))
  have hlength : front.length + gap.length = (front ++ gap).length := List.length_append.symm
  rw [List.append_assoc, List.append_assoc, hspans, keySpansFrom_skip hless hgreater,
    keySpansFrom_key h.nonempty h.closed, hlength]
  exact List.mem_append_right _ List.mem_cons_self

/-! ## What is in keys -/

/-- What was read since the open bracket, with one more character. -/
def extendKey (opened : Option (List Char)) (c : Char) : Option (List Char) :=
  (opened.map (· ++ [c])).or (if c = '<' then some [] else none)

/-- The contents of the keys of a text.  `opened` is what was read since the open
bracket, if one is open. -/
def keyContents (opened : Option (List Char)) : List Char → List (List Char)
  | [] => []
  | c :: rest =>
    if c = '>' then opened.toList.filter (· ≠ []) ++ keyContents none rest
    else keyContents (extendKey opened c) rest

/-- Both scanners have the same bracket of the scanned text open, or none. -/
inductive SameOpen (scanned : List Char) : Option Nat → Option (List Char) → Prop where
  | closed : SameOpen scanned none none
  | opened {before content : List Char} (h : scanned = before ++ '<' :: content) :
      SameOpen scanned (some before.length) (some content)

theorem SameOpen.extend {scanned : List Char} {opened : Option Nat} {content : Option (List Char)}
    (h : SameOpen scanned opened content) (c : Char) :
    SameOpen (scanned ++ [c]) (if c = '<' then opened.or (some scanned.length) else opened)
      (extendKey content c) := by
  cases h with
  | closed =>
    by_cases hc : c = '<'
    · rw [if_pos hc, extendKey, if_pos hc, hc]
      exact .opened rfl
    · rw [if_neg hc, extendKey, if_neg hc]
      exact .closed
  | @opened before content h =>
    have hopened : (if c = '<' then (some before.length).or (some scanned.length)
        else some before.length) = some before.length := by
      split <;> rfl
    rw [hopened]
    exact .opened (by rw [h, List.append_assoc, List.cons_append])

/-- The bracket that a closing one belongs to gives the key that was read since. -/
theorem SameOpen.map_text_closeKey {scanned : List Char} {opened : Option Nat}
    {content : Option (List Char)} (h : SameOpen scanned opened content) (rest : List Char) :
    (closeKey scanned.length opened).map (Span.text (scanned ++ '>' :: rest)) =
      (content.toList.filter (· ≠ [])).map fun content => '<' :: content ++ ['>'] := by
  cases h with
  | closed => rfl
  | @opened before content h =>
    subst h
    have hline : before ++ '<' :: content ++ '>' :: rest =
        before ++ ('<' :: content ++ ['>']) ++ rest := by
      simp
    have hstop : (before ++ '<' :: content).length + 1 =
        before.length + ('<' :: content ++ ['>']).length := by
      simp only [List.length_append, List.length_cons, List.length_nil]
      omega
    by_cases hnil : content = []
    · subst hnil
      rw [closeKey, if_neg (by rw [List.length_append]; exact Nat.lt_irrefl _)]
      rfl
    · have hlength := List.length_pos_iff.mpr hnil
      have hlt : before.length + 1 < (before ++ '<' :: content).length := by
        rw [List.length_append, List.length_cons]
        omega
      rw [closeKey, if_pos hlt, List.map_singleton, hline, hstop, Span.text_append,
        Option.toList_some, List.filter_cons_of_pos (by simpa using hnil), List.filter_nil,
        List.map_singleton]

/-- The scanner of spans finds the keys that `keyContents` reads. -/
theorem map_text_keySpansFrom {scanned : List Char} {opened : Option Nat}
    {content : Option (List Char)} (h : SameOpen scanned opened content) (rest : List Char) :
    (keySpansFrom scanned.length opened rest).map (Span.text (scanned ++ rest)) =
      (keyContents content rest).map fun content => '<' :: content ++ ['>'] := by
  induction rest generalizing scanned opened content with
  | nil => rfl
  | cons c rest ih =>
    have hlength : scanned.length + 1 = (scanned ++ [c]).length := by
      rw [List.length_append, List.length_singleton]
    rw [keyContents]
    by_cases hgreater : c = '>'
    · rw [if_pos hgreater, List.map_append, ← ih .closed, ← hlength, ← List.append_cons]
      subst hgreater
      rw [keySpansFrom_greater, List.map_append, h.map_text_closeKey]
    · have hstep : keySpansFrom scanned.length opened (c :: rest) =
          keySpansFrom (scanned ++ [c]).length
            (if c = '<' then opened.or (some scanned.length) else opened) rest := by
        rw [← hlength]
        by_cases hless : c = '<'
        · rw [if_pos hless, hless]
          rfl
        · rw [if_neg hless, keySpansFrom_step hless hgreater]
      rw [if_neg hgreater, hstep, List.append_cons, ih (h.extend c)]

theorem map_text_keySpans (line : List Char) :
    (keySpans line).map (Span.text line) =
      (keyContents none line).map fun content => '<' :: content ++ ['>'] :=
  @map_text_keySpansFrom [] none none .closed line

end Summary
end TaintFlow
