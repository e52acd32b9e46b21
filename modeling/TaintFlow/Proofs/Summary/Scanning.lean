/-
What the scanners find, wherever a text stands on its line.

Both scanners find the same in a text that stands further to the right, only that
much further to the right (`keySpansFrom_shift`, `wordSpansFrom_shift`), and
blanks around a text change nothing else (`keySpans_of_blank`,
`wordSpans_of_blank`).  A key they find is text in angle brackets
(`isKey_of_mem_keySpans`), and a word is a run of letters that no letter extends
(`isWord_of_mem_wordSpans`).
-/
import TaintFlow.Proofs.Summary.Spans
import TaintFlow.Proofs.Text.Trimming

namespace TaintFlow
namespace Summary

/-! ## Moving a text -/

def Span.shift (columns : Nat) (span : Span) : Span :=
  ⟨span.start + columns, span.stop + columns⟩

theorem Span.text_shift (before : List Char) (line : List Char) (span : Span) :
    (span.shift before.length).text (before ++ line) = span.text line := by
  show ((before ++ line).drop (span.start + before.length)).take
    (span.stop + before.length - (span.start + before.length)) = _
  rw [Nat.add_comm span.start, List.drop_length_add_append, Nat.add_comm span.stop,
    Nat.add_sub_add_left]
  rfl

theorem Span.text_append_of_le {line : List Char} {span : Span} (h : span.stop ≤ line.length)
    (behind : List Char) : span.text (line ++ behind) = span.text line := by
  rcases Nat.lt_or_ge line.length span.start with hlt | hle
  · have hnone : span.stop - span.start = 0 := by omega
    rw [Span.text, Span.text, hnone, List.take_zero, List.take_zero]
  · rw [Span.text, Span.text, List.drop_append_of_le_length hle, List.take_append_of_le_length]
    rw [List.length_drop]
    omega

/-- The key that a closing bracket ends, if there is one. -/
def closeKey (column : Nat) : Option Nat → List Span
  | some start => if start + 1 < column then [⟨start, column + 1⟩] else []
  | none => []

theorem keySpansFrom_greater (column : Nat) (opened : Option Nat) (text : List Char) :
    keySpansFrom column opened ('>' :: text) =
      closeKey column opened ++ keySpansFrom (column + 1) none text := by
  cases opened <;> rfl

theorem mem_closeKey_iff {column : Nat} {opened : Option Nat} {span : Span} :
    span ∈ closeKey column opened ↔
      ∃ start, opened = some start ∧ start + 1 < column ∧ span = ⟨start, column + 1⟩ := by
  cases opened with
  | none => exact ⟨fun h => absurd h List.not_mem_nil, fun ⟨_, h, _⟩ => nomatch h⟩
  | some start =>
    rw [closeKey]
    by_cases hlt : start + 1 < column
    · rw [if_pos hlt, List.mem_singleton]
      refine ⟨fun h => ⟨start, rfl, hlt, h⟩, ?_⟩
      rintro ⟨_, ⟨⟩, -, h⟩
      exact h
    · rw [if_neg hlt]
      refine ⟨fun h => absurd h List.not_mem_nil, ?_⟩
      rintro ⟨_, ⟨⟩, h, -⟩
      exact absurd h hlt

theorem closeKey_shift (columns column : Nat) (opened : Option Nat) :
    closeKey (column + columns) (opened.map (· + columns)) =
      (closeKey column opened).map (Span.shift columns) := by
  cases opened with
  | none => rfl
  | some start =>
    show (if start + columns + 1 < column + columns then _ else _) =
      List.map _ (if start + 1 < column then _ else _)
    by_cases hlt : start + 1 < column
    · rw [if_pos hlt, if_pos (by omega), Nat.add_right_comm column]
      rfl
    · rw [if_neg hlt, if_neg (by omega)]
      rfl

theorem keySpansFrom_shift (columns column : Nat) (opened : Option Nat) (text : List Char) :
    keySpansFrom (column + columns) (opened.map (· + columns)) text =
      (keySpansFrom column opened text).map (Span.shift columns) := by
  induction text generalizing column opened with
  | nil => rfl
  | cons c text ih =>
    have hcolumn : column + columns + 1 = column + 1 + columns := by omega
    by_cases hgreater : c = '>'
    · have hrest := ih (column + 1) none
      rw [hgreater, keySpansFrom_greater, keySpansFrom_greater, closeKey_shift, List.map_append,
        ← hrest, hcolumn]
      rfl
    · by_cases hless : c = '<'
      · rw [hless]
        show keySpansFrom (column + columns + 1) _ text =
          List.map _ (keySpansFrom (column + 1) (opened.or (some column)) text)
        rw [← ih, hcolumn]
        cases opened <;> rfl
      · rw [keySpansFrom_step hless hgreater, keySpansFrom_step hless hgreater, ← ih, hcolumn]

theorem wordSpansFrom_shift (columns column : Nat) (opened : Option Nat) (text : List Char) :
    wordSpansFrom (column + columns) (opened.map (· + columns)) text =
      (wordSpansFrom column opened text).map (Span.shift columns) := by
  have hclose : ∀ column, closeWord (column + columns) (opened.map (· + columns)) =
      (closeWord column opened).map (Span.shift columns) := by
    intro column
    cases opened <;> rfl
  induction text generalizing column opened with
  | nil => exact hclose column
  | cons c text ih =>
    have hcolumn : column + columns + 1 = column + 1 + columns := by omega
    rw [wordSpansFrom, wordSpansFrom, hcolumn]
    by_cases hc : c.isAlpha = true
    · have hopened : (opened.map (· + columns)).or (some (column + columns)) =
          (opened.or (some column)).map (· + columns) := by cases opened <;> rfl
      rw [if_pos hc, if_pos hc, hopened]
      exact ih (column + 1) _ fun column => by cases opened <;> rfl
    · have hnone := ih (column + 1) none fun _ => rfl
      rw [if_neg hc, if_neg hc, List.map_append, hclose, ← hnone]
      rfl

/-! ## Characters around a text -/

/-- What has no bracket is stepped over. -/
theorem keySpansFrom_skip {before : List Char} (hless : '<' ∉ before) (hgreater : '>' ∉ before)
    (column : Nat) (opened : Option Nat) (text : List Char) :
    keySpansFrom column opened (before ++ text) =
      keySpansFrom (column + before.length) opened text := by
  induction before generalizing column with
  | nil => rfl
  | cons c before ih =>
    rw [List.mem_cons, not_or] at hless hgreater
    rw [List.cons_append, keySpansFrom_step (Ne.symm hless.1) (Ne.symm hgreater.1),
      ih hless.2 hgreater.2, List.length_cons, Nat.add_assoc, Nat.add_comm 1]

/-- With no word open, what has no letter is stepped over. -/
theorem wordSpansFrom_skip {before : List Char} (h : before.any Char.isAlpha = false)
    (column : Nat) (text : List Char) :
    wordSpansFrom column none (before ++ text) =
      wordSpansFrom (column + before.length) none text := by
  induction before generalizing column with
  | nil => rfl
  | cons c before ih =>
    rw [List.any_cons, Bool.or_eq_false_iff] at h
    rw [List.cons_append, wordSpansFrom_step h.1, ih h.2, List.length_cons, Nat.add_assoc,
      Nat.add_comm 1]

theorem keySpansFrom_append_of_blank {blanks : List Char}
    (h : ∀ c ∈ blanks, Text.isBlank c = true) (column : Nat) (opened : Option Nat)
    (text : List Char) :
    keySpansFrom column opened (text ++ blanks) = keySpansFrom column opened text := by
  induction text generalizing column opened with
  | nil =>
    have hless := Text.not_mem_of_blank h (c := '<') (by decide)
    have hgreater := Text.not_mem_of_blank h (c := '>') (by decide)
    rw [List.nil_append, ← List.append_nil blanks, keySpansFrom_skip hless hgreater]
    rfl
  | cons c text ih =>
    by_cases hgreater : c = '>'
    · rw [hgreater, List.cons_append, keySpansFrom_greater, keySpansFrom_greater, ih]
    · by_cases hless : c = '<'
      · rw [hless]
        exact ih (column + 1) _
      · rw [List.cons_append, keySpansFrom_step hless hgreater, keySpansFrom_step hless hgreater, ih]

/-- A character that is no letter ends the word that is open. -/
theorem wordSpansFrom_append_cons {c : Char} (hc : c.isAlpha = false) (column : Nat)
    (opened : Option Nat) (text behind : List Char) :
    wordSpansFrom column opened (text ++ c :: behind) =
      wordSpansFrom column opened text ++ wordSpansFrom (column + text.length + 1) none behind := by
  induction text generalizing column opened with
  | nil =>
    show (if c.isAlpha then _ else _) = _
    rw [hc]
    rfl
  | cons d text ih =>
    have hcolumn : column + (d :: text).length + 1 = column + 1 + text.length + 1 := by
      rw [List.length_cons]
      omega
    rw [List.cons_append, wordSpansFrom, wordSpansFrom, hcolumn]
    by_cases hd : d.isAlpha = true
    · rw [if_pos hd, if_pos hd, ih]
    · rw [if_neg hd, if_neg hd, ih, List.append_assoc]

theorem wordSpansFrom_of_any {text : List Char} (h : text.any Char.isAlpha = false) (column : Nat) :
    wordSpansFrom column none text = [] := by
  rw [← List.append_nil text, wordSpansFrom_skip h]
  rfl

theorem wordSpansFrom_letters {letters : List Char} (h : ∀ c ∈ letters, c.isAlpha = true)
    (column start : Nat) :
    wordSpansFrom column (some start) letters = [⟨start, column + letters.length⟩] := by
  induction letters generalizing column with
  | nil => rfl
  | cons c letters ih =>
    rw [List.forall_mem_cons] at h
    rw [wordSpansFrom, if_pos h.1, List.length_cons, Nat.add_comm letters.length, ← Nat.add_assoc]
    exact ih h.2 (column + 1)

/-- Without a letter behind a text there are no words behind it. -/
theorem wordSpansFrom_append_of_any {behind : List Char} (h : behind.any Char.isAlpha = false)
    (column : Nat) (opened : Option Nat) (text : List Char) :
    wordSpansFrom column opened (text ++ behind) = wordSpansFrom column opened text := by
  cases behind with
  | nil => rw [List.append_nil]
  | cons c behind =>
    rw [List.any_cons, Bool.or_eq_false_iff] at h
    rw [wordSpansFrom_append_cons h.1, wordSpansFrom_of_any h.2, List.append_nil]

/-- The only letters of a line are one word of it. -/
theorem wordSpans_of_name {before name behind : List Char} (hbefore : before.any Char.isAlpha = false)
    (hne : name ≠ []) (hname : ∀ c ∈ name, c.isAlpha = true)
    (hbehind : behind.any Char.isAlpha = false) :
    wordSpans (before ++ name ++ behind) = [⟨before.length, before.length + name.length⟩] := by
  obtain ⟨c, letters, rfl⟩ := List.exists_cons_of_ne_nil hne
  rw [List.forall_mem_cons] at hname
  rw [wordSpans, wordSpansFrom_append_of_any hbehind, wordSpansFrom_skip hbefore, wordSpansFrom,
    if_pos hname.1, List.length_cons, Nat.add_comm letters.length, ← Nat.add_assoc, Nat.zero_add]
  exact wordSpansFrom_letters hname.2 _ _

theorem any_isAlpha_of_blank {blanks : List Char} (h : ∀ c ∈ blanks, Text.isBlank c = true) :
    blanks.any Char.isAlpha = false :=
  List.any_eq_false.mpr fun c hc => by rw [Text.isAlpha_of_isBlank (h c hc)]; exact Bool.false_ne_true

section

variable {before behind : List Char} (hbefore : ∀ c ∈ before, Text.isBlank c = true)
  (hbehind : ∀ c ∈ behind, Text.isBlank c = true) (text : List Char)

include hbefore hbehind

theorem keySpans_of_blank :
    keySpans (before ++ text ++ behind) = (keySpans text).map (Span.shift before.length) := by
  have hless := Text.not_mem_of_blank hbefore (c := '<') (by decide)
  have hgreater := Text.not_mem_of_blank hbefore (c := '>') (by decide)
  rw [keySpans, keySpansFrom_append_of_blank hbehind, keySpansFrom_skip hless hgreater]
  exact keySpansFrom_shift before.length 0 none text

theorem wordSpans_of_blank :
    wordSpans (before ++ text ++ behind) = (wordSpans text).map (Span.shift before.length) := by
  rw [wordSpans, wordSpansFrom_append_of_any (any_isAlpha_of_blank hbehind),
    wordSpansFrom_skip (any_isAlpha_of_blank hbefore)]
  exact wordSpansFrom_shift before.length 0 none text

end

/-! ## What is found -/

/-- A key of a line: text in angle brackets that holds no closing one. -/
def IsKey (line : List Char) (span : Span) : Prop :=
  ∃ before content behind, line = before ++ ('<' :: content ++ ['>']) ++ behind ∧ content ≠ [] ∧
    '>' ∉ content ∧ span = ⟨before.length, before.length + ('<' :: content ++ ['>']).length⟩

/-- A word between two stretches of a line: letters that no letter extends. -/
structure WordBetween (before word behind : List Char) : Prop where
  nonempty : word ≠ []
  letters : ∀ c ∈ word, c.isAlpha = true
  before : ∀ c ∈ before.getLast?, c.isAlpha = false
  behind : ∀ c ∈ behind.head?, c.isAlpha = false

def IsWord (line : List Char) (span : Span) : Prop :=
  ∃ before word behind, line = before ++ word ++ behind ∧ WordBetween before word behind ∧
    span = ⟨before.length, before.length + word.length⟩

/- The induction is on what is still to be scanned.  `opened` says where in the
scanned part the opening bracket stands that the next closing one belongs to. -/
theorem isKey_of_mem_keySpansFrom {scanned rest : List Char} {opened : Option Nat}
    (hopened : ∀ start, opened = some start → ∃ before content,
      scanned = before ++ '<' :: content ∧ before.length = start ∧ '>' ∉ content) :
    ∀ span ∈ keySpansFrom scanned.length opened rest, IsKey (scanned ++ rest) span := by
  induction rest generalizing scanned opened with
  | nil => exact List.forall_mem_nil _
  | cons c rest ih =>
    have hlength : scanned.length + 1 = (scanned ++ [c]).length := by
      rw [List.length_append, List.length_singleton]
    rw [List.append_cons]
    by_cases hgreater : c = '>'
    · intro span hspan
      rw [hgreater, keySpansFrom_greater, List.mem_append] at hspan
      rcases hspan with hspan | hspan
      · obtain ⟨start, hstart, hlt, rfl⟩ := mem_closeKey_iff.mp hspan
        obtain ⟨before, content, rfl, rfl, hcontent⟩ := hopened start hstart
        rw [List.length_append, List.length_cons] at hlt
        refine ⟨before, content, rest, ?_, ?_, hcontent, ?_⟩
        · rw [hgreater, List.append_assoc before]
        · intro hnil
          rw [hnil, List.length_nil] at hlt
          omega
        · rw [List.length_append, List.length_append, List.length_cons, List.length_singleton,
            Nat.add_assoc]
      · rw [hlength] at hspan
        exact @ih (scanned ++ [c]) none (fun _ h => nomatch h) span hspan
    · have hmore : ∀ content, '>' ∉ content → '>' ∉ content ++ [c] := by
        intro content hcontent hmem
        rcases List.mem_append.mp hmem with hmem | hmem
        · exact hcontent hmem
        · exact hgreater (List.mem_singleton.mp hmem).symm
      by_cases hless : c = '<'
      · have hstep : keySpansFrom scanned.length opened (c :: rest) =
            keySpansFrom (scanned ++ [c]).length (opened.or (some scanned.length)) rest := by
          rw [hless] at hlength ⊢
          rw [← hlength]
          rfl
        rw [hstep]
        refine ih fun start hstart => ?_
        cases opened with
        | none =>
          rw [Option.none_or, Option.some_inj] at hstart
          exact ⟨scanned, [], by rw [hless], hstart, List.not_mem_nil⟩
        | some _ =>
          obtain ⟨before, content, rfl, hbefore, hcontent⟩ := hopened start hstart
          exact ⟨before, content ++ [c], by rw [List.append_assoc, List.cons_append], hbefore,
            hmore content hcontent⟩
      · rw [keySpansFrom_step hless hgreater, hlength]
        refine ih fun start hstart => ?_
        obtain ⟨before, content, rfl, hbefore, hcontent⟩ := hopened start hstart
        exact ⟨before, content ++ [c], by rw [List.append_assoc, List.cons_append], hbefore,
          hmore content hcontent⟩

theorem isKey_of_mem_keySpans {line : List Char} {span : Span} (h : span ∈ keySpans line) :
    IsKey line span :=
  @isKey_of_mem_keySpansFrom [] line none (fun _ h => nomatch h) span h

/-- The scanned part ends with letters that start at `start`, and no letter is in
front of these. -/
def OpenWord (scanned : List Char) (start : Nat) : Prop :=
  ∃ before word, scanned = before ++ word ∧ before.length = start ∧ word ≠ [] ∧
    (∀ c ∈ word, c.isAlpha = true) ∧ ∀ c ∈ before.getLast?, c.isAlpha = false

theorem isWord_of_mem_closeWord {scanned rest : List Char} {opened : Option Nat}
    (hopened : ∀ start, opened = some start → OpenWord scanned start)
    (hrest : ∀ c ∈ rest.head?, c.isAlpha = false) :
    ∀ span ∈ closeWord scanned.length opened, IsWord (scanned ++ rest) span := by
  intro span hspan
  cases opened with
  | none => cases hspan
  | some start =>
    obtain ⟨before, word, rfl, rfl, hne, hletters, hbefore⟩ := hopened start rfl
    rw [List.mem_singleton.mp hspan, List.length_append]
    exact ⟨before, word, rest, rfl, ⟨hne, hletters, hbefore, hrest⟩, rfl⟩

theorem isWord_of_mem_wordSpansFrom {scanned rest : List Char} {opened : Option Nat}
    (hclosed : opened = none → ∀ c ∈ scanned.getLast?, c.isAlpha = false)
    (hopened : ∀ start, opened = some start → OpenWord scanned start) :
    ∀ span ∈ wordSpansFrom scanned.length opened rest, IsWord (scanned ++ rest) span := by
  induction rest generalizing scanned opened with
  | nil => exact isWord_of_mem_closeWord hopened fun c h => absurd h (Option.not_mem_none c)
  | cons c rest ih =>
    have hlength : scanned.length + 1 = (scanned ++ [c]).length := by
      rw [List.length_append, List.length_singleton]
    by_cases hc : c.isAlpha = true
    · rw [wordSpansFrom, if_pos hc, List.append_cons, hlength]
      refine ih (fun hnone => ?_) fun start hstart => ?_
      · cases opened <;> cases hnone
      · cases opened with
        | none =>
          rw [Option.none_or, Option.some_inj] at hstart
          exact ⟨scanned, [c], rfl, hstart, List.cons_ne_nil c [],
            List.forall_mem_singleton.mpr hc, hclosed rfl⟩
        | some _ =>
          obtain ⟨before, word, rfl, hbefore, -, hletters, hlast⟩ := hopened start hstart
          refine ⟨before, word ++ [c], List.append_assoc _ _ _, hbefore, ?_, ?_, hlast⟩
          · exact List.append_ne_nil_of_right_ne_nil word (List.cons_ne_nil c [])
          · exact List.forall_mem_append.mpr ⟨hletters, List.forall_mem_singleton.mpr hc⟩
    · have hc : c.isAlpha = false := Bool.eq_false_iff.mpr hc
      intro span hspan
      rw [wordSpansFrom, if_neg (Bool.eq_false_iff.mp hc), List.mem_append] at hspan
      rcases hspan with hspan | hspan
      · refine isWord_of_mem_closeWord hopened (fun d hd => ?_) span hspan
        rw [← Option.some_inj.mp hd]
        exact hc
      · rw [hlength] at hspan
        rw [List.append_cons]
        refine @ih (scanned ++ [c]) none (fun _ d hd => ?_)
          (fun _ hsome => absurd hsome.symm (Option.some_ne_none _)) span hspan
        rw [List.getLast?_concat] at hd
        rw [← Option.some_inj.mp hd]
        exact hc

theorem isWord_of_mem_wordSpans {line : List Char} {span : Span} (h : span ∈ wordSpans line) :
    IsWord line span :=
  @isWord_of_mem_wordSpansFrom [] line none (fun _ _ h => nomatch h) (fun _ h => nomatch h) span h

/-! ## What follows from the places -/

theorem IsKey.text_eq {line : List Char} {span : Span} (h : IsKey line span) :
    ∃ content, span.text line = '<' :: content ++ ['>'] ∧ content ≠ [] ∧ '>' ∉ content := by
  obtain ⟨before, content, behind, rfl, hne, hcontent, rfl⟩ := h
  exact ⟨content, Span.text_append _ _ _, hne, hcontent⟩

theorem IsKey.bounds {line : List Char} {span : Span} (h : IsKey line span) :
    span.start < span.stop ∧ span.stop ≤ line.length := by
  obtain ⟨before, content, behind, rfl, -, -, rfl⟩ := h
  simp only [List.length_append, List.length_cons, List.length_nil]
  omega

theorem IsWord.bounds {line : List Char} {span : Span} (h : IsWord line span) :
    span.start < span.stop ∧ span.stop ≤ line.length := by
  obtain ⟨before, word, behind, rfl, hword, rfl⟩ := h
  have hlength := List.length_pos_iff.mpr hword.nonempty
  simp only [List.length_append]
  omega

/-- The words found in a piece of a line are words of the piece. -/
theorem exists_word_of_mem_wordSpansFrom {before piece : List Char} {span : Span}
    (h : span ∈ wordSpansFrom before.length none piece) (behind : List Char) :
    ∃ front word back, piece = front ++ word ++ back ∧ WordBetween front word back ∧
      span.text (before ++ piece ++ behind) = word := by
  have hshift := wordSpansFrom_shift before.length 0 none piece
  rw [Nat.zero_add] at hshift
  obtain ⟨inner, hinner, rfl⟩ := List.mem_map.mp (hshift ▸ h)
  have hword := isWord_of_mem_wordSpans hinner
  have htext : (inner.shift before.length).text (before ++ piece ++ behind) = inner.text piece := by
    rw [List.append_assoc, Span.text_shift, Span.text_append_of_le hword.bounds.2]
  obtain ⟨front, word, back, rfl, hbetween, rfl⟩ := hword
  exact ⟨front, word, back, rfl, hbetween, htext.trans (Span.text_append front word back)⟩

end Summary
end TaintFlow
