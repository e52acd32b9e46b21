/-
What the findings of a text are about.

A topic is a kind and a row.  The topics of a line need no columns: one for a
missing comma, one for parentheses that do not balance, one for each bad key and
one for each misspelt word (`topics_findings`).  So one more mark on a line can
only change what is found about commas, parentheses and braces, as long as it
stands at the start of the line, at its end, or in front of a closing parenthesis.
-/
import TaintFlow.Proofs.Summary.Keys
import TaintFlow.Proofs.Summary.Neighbours

namespace TaintFlow
namespace Summary

/-- The kind of a finding and the row that it starts on. -/
def Finding.topic (finding : Finding) : Finding.Kind × Nat := (finding.kind, finding.start.row)

def topics (findings : List Finding) : List (Finding.Kind × Nat) := findings.map Finding.topic

theorem topics_append (first second : List Finding) :
    topics (first ++ second) = topics first ++ topics second := List.map_append

/-! ## Topics of a line -/

/-- How many keys of a text are no numbers.  `opened` is what was read since the open
bracket, if one is open. -/
def badKeys (opened : Option (List Char)) (text : List Char) : Nat :=
  (keyContents opened text).countP fun content => !isKeyNumber content

def words (line : List Char) : List (List Char) := (wordSpans line).map (Span.text line)

/-- How many words of a line are misspelt keywords. -/
def badWords (line : List Char) : Nat := (words line).countP Line.isMisspeltKeyword

def commaTopics (row : Nat) (raw next : List Char) : List (Finding.Kind × Nat) :=
  if ')' ∈ raw ∧ ',' ∉ raw ∧ '\x7d' ∉ raw ∧ startsOperation (Text.trim next) = true then
    [(.missingComma, row)]
  else []

def parenthesisTopics (row : Nat) (raw : List Char) : List (Finding.Kind × Nat) :=
  if raw.count ')' < raw.count '(' then [(.missingCloseParen, row)]
  else if raw.count '(' < raw.count ')' then [(.missingOpenParen, row)]
  else []

def tokenTopics (row : Nat) (raw : List Char) : List (Finding.Kind × Nat) :=
  List.replicate (badKeys none raw) (.invalidKey, row) ++
    List.replicate (badWords raw) (.unknownOperation, row)

def lineTopics (row : Nat) (raw next : List Char) : List (Finding.Kind × Nat) :=
  commaTopics row raw next ++ (parenthesisTopics row raw ++ tokenTopics row raw)

theorem topics_spanFindings (kind : Finding.Kind) (bad : List Char → Bool) (row : Nat)
    (raw : List Char) (spans : List Span) :
    topics (spanFindings kind bad row raw spans) =
      List.replicate ((spans.map (Span.text raw)).countP bad) (kind, row) := by
  have hconst : ∀ spans : List Span, spans.map (fun _ => (kind, row)) =
      List.replicate spans.length (kind, row) := fun spans => List.map_const'
  rw [topics, spanFindings, List.map_map, List.countP_map, List.countP_eq_length_filter, ← hconst]
  rfl

theorem topics_findings (row : Nat) (raw next : List Char) :
    topics ((Line.trimmed row raw).findings next) = lineTopics row raw next := by
  have hcomma : topics ((Line.trimmed row raw).commaFindings next) = commaTopics row raw next := by
    rw [commaFindings_trimmed, topics, apply_ite (List.map _)]
    rfl
  have hparenthesis : topics (Line.trimmed row raw).parenthesisFindings =
      parenthesisTopics row raw := by
    rw [parenthesisFindings_trimmed, topics, apply_ite (List.map _), apply_ite (List.map _)]
    rfl
  have hinvalid : ∀ content, Line.isInvalidKey ('<' :: content ++ ['>']) = !isKeyNumber content :=
    fun content => congrArg (!isKeyNumber ·) List.dropLast_concat
  have hkeys : topics (Line.trimmed row raw).keyFindings =
      List.replicate (badKeys none raw) (.invalidKey, row) := by
    rw [keyFindings_trimmed, topics_spanFindings, map_text_keySpans, List.countP_map, badKeys]
    exact congrArg (fun bad => List.replicate ((keyContents none raw).countP bad) _)
      (funext hinvalid)
  have hwords : topics (Line.trimmed row raw).wordFindings =
      List.replicate (badWords raw) (.unknownOperation, row) := by
    rw [wordFindings_trimmed, topics_spanFindings]
    rfl
  rw [Line.findings, topics_append, topics_append, topics_append, hcomma, hparenthesis, hkeys,
    hwords, List.append_assoc, List.append_assoc]
  rfl

/-! ## Topics of a text -/

theorem topics_missedBrace (brace : Char) (kind : Finding.Kind) (place : Position)
    (lines : List (List Char)) : topics (missedBrace brace kind place lines) =
      if lines.any (·.contains brace) then [] else [(kind, place.row)] := by
  rw [missedBrace, topics, apply_ite (List.map _)]
  rfl

theorem topics_inspect {source : String} {above below : List (List Char)} {raw : List Char}
    (h : Text.lines source.toList = above ++ raw :: below) :
    topics (inspect source) = topics (findingsOver raw 0 above) ++
      (lineTopics above.length raw (below.headD []) ++
        (topics (lineFindings (above.length + 1) below) ++
          topics (braceFindings (above ++ raw :: below)))) := by
  rw [inspect_eq h, topics_append, topics_append, topics_append, topics_findings]

/-! ## One more mark: keys -/

theorem keyContents_of_not_mem {text : List Char} (h : '>' ∉ text) (opened : Option (List Char)) :
    keyContents opened text = [] := by
  induction text generalizing opened with
  | nil => rfl
  | cons c text ih =>
    rw [List.mem_cons, not_or] at h
    rw [keyContents, if_neg (Ne.symm h.1)]
    exact ih h.2 _

/-- Behind the last closing bracket no key ends. -/
theorem keyContents_append_of_not_mem {back : List Char} (h : '>' ∉ back)
    (opened : Option (List Char)) (front : List Char) :
    keyContents opened (front ++ back) = keyContents opened front := by
  induction front generalizing opened with
  | nil => exact keyContents_of_not_mem h opened
  | cons c front ih =>
    rw [List.cons_append, keyContents, keyContents]
    split <;> rw [ih]

/-- A key with a closing parenthesis in it is bad, whatever else is in it. -/
theorem badKeys_of_mem {content other : List Char} (h : ')' ∈ content) (hother : ')' ∈ other)
    (text : List Char) : badKeys (some content) text = badKeys (some other) text := by
  have hbad : ∀ content : List Char, ')' ∈ content →
      ((some content).toList.filter (· ≠ [])).countP (fun content => !isKeyNumber content) = 1 := by
    intro content hmem
    have hne : content ≠ [] := List.ne_nil_of_mem hmem
    have hnumber : isKeyNumber content = false := Bool.eq_false_iff.mpr fun hnumber =>
      absurd (eq_minus_or_isDigit_of_mem hnumber hmem) (by decide)
    simp [hne, hnumber]
  induction text generalizing content other with
  | nil => rfl
  | cons c text ih =>
    rw [badKeys, badKeys, keyContents, keyContents]
    split
    · rw [List.countP_append, List.countP_append, hbad content h, hbad other hother]
    · exact ih (List.mem_append_left _ h) (List.mem_append_left _ hother)

/-- In front of a closing parenthesis an opening one makes no difference to keys. -/
theorem badKeys_parentheses (opened : Option (List Char)) (front back : List Char) :
    badKeys opened (front ++ '(' :: ')' :: back) = badKeys opened (front ++ ')' :: back) := by
  induction front generalizing opened with
  | nil =>
    cases opened with
    | none => rfl
    | some content =>
      exact badKeys_of_mem (List.mem_append_right _ List.mem_cons_self)
        (List.mem_append_right _ List.mem_cons_self) back
  | cons c front ih =>
    rw [List.cons_append, List.cons_append, badKeys, badKeys, keyContents, keyContents]
    split
    · rw [List.countP_append, List.countP_append]
      exact congrArg _ (ih none)
    · exact ih _

/-! ## One more mark: words -/

/-- A character that is no letter parts the words of a line. -/
theorem words_append_cons {c : Char} (hc : c.isAlpha = false) (front back : List Char) :
    words (front ++ c :: back) = words front ++ words back := by
  have hfront : ∀ span ∈ wordSpans front, span.text (front ++ c :: back) = span.text front :=
    fun span hspan => Span.text_append_of_le (isWord_of_mem_wordSpans hspan).bounds.2 _
  have hlength : 0 + front.length + 1 = (front ++ [c]).length := by
    rw [List.length_append, List.length_singleton, Nat.zero_add]
  have hshift : wordSpansFrom (front ++ [c]).length none back =
      (wordSpans back).map (Span.shift (front ++ [c]).length) := by
    have hmoved := wordSpansFrom_shift (front ++ [c]).length 0 none back
    rw [Nat.zero_add] at hmoved
    exact hmoved
  have hback : ∀ span ∈ wordSpans back, (span.shift (front ++ [c]).length).text
      (front ++ c :: back) = span.text back := by
    intro span _
    rw [List.append_cons]
    exact Span.text_shift (front ++ [c]) back span
  rw [words, wordSpans, wordSpansFrom_append_cons hc, hlength, hshift, List.map_append,
    List.map_map]
  exact congrArg₂ _ (List.map_congr_left hfront) (List.map_congr_left hback)

theorem badWords_append_cons {c : Char} (hc : c.isAlpha = false) (front back : List Char) :
    badWords (front ++ c :: back) = badWords front + badWords back := by
  rw [badWords, words_append_cons hc, List.countP_append]
  rfl

theorem badWords_of_any {text : List Char} (h : text.any Char.isAlpha = false) :
    badWords text = 0 := by
  rw [badWords, words, wordSpans, wordSpansFrom_of_any h]
  rfl

/-! ## One more mark: both -/

section

variable {front back : List Char} (row : Nat)

theorem tokenTopics_congr {raw other : List Char} (hkeys : badKeys none raw = badKeys none other)
    (hwords : badWords raw = badWords other) : tokenTopics row raw = tokenTopics row other := by
  rw [tokenTopics, tokenTopics, hkeys, hwords]

theorem tokenTopics_append_cons_of_blank {c : Char} (hc : c.isAlpha = false) (hgreater : c ≠ '>')
    (hback : ∀ d ∈ back, Text.isBlank d = true) :
    tokenTopics row (front ++ c :: back) = tokenTopics row (front ++ back) := by
  have hbehind : '>' ∉ back := Text.not_mem_of_blank hback (by decide)
  have hletters := any_isAlpha_of_blank hback
  refine tokenTopics_congr row ?_ ?_
  · have hmark : '>' ∉ c :: back := by
      rw [List.mem_cons, not_or]
      exact ⟨Ne.symm hgreater, hbehind⟩
    rw [badKeys, badKeys, keyContents_append_of_not_mem hmark,
      keyContents_append_of_not_mem hbehind]
  · rw [badWords_append_cons hc, badWords_of_any hletters]
    cases back with
    | nil => rw [List.append_nil, Nat.add_zero]
    | cons d back =>
      rw [List.any_cons, Bool.or_eq_false_iff] at hletters
      rw [badWords_append_cons hletters.1, badWords_of_any hletters.2]

theorem tokenTopics_cons {c : Char} (hc : c.isAlpha = false) (hless : c ≠ '<') (hgreater : c ≠ '>')
    (raw : List Char) : tokenTopics row (c :: raw) = tokenTopics row raw := by
  refine tokenTopics_congr row ?_ ?_
  · have hextend : extendKey none c = none := if_neg hless
    rw [badKeys, keyContents, if_neg hgreater, hextend]
    rfl
  · exact (badWords_append_cons hc [] raw).trans (Nat.zero_add _)

theorem tokenTopics_parentheses :
    tokenTopics row (front ++ '(' :: ')' :: back) = tokenTopics row (front ++ ')' :: back) := by
  refine tokenTopics_congr row (badKeys_parentheses none front back) ?_
  have hnone : badWords (')' :: back) = 0 + badWords back :=
    badWords_append_cons (by decide) [] back
  rw [badWords_append_cons (by decide), badWords_append_cons (by decide), hnone, Nat.zero_add]

end

/-! ## One more mark: the start of a line -/

theorem isPrefixOf_append_cons {c : Char} {word : List Char} (h : c ∉ word)
    (front back : List Char) : word.isPrefixOf (front ++ c :: back) = word.isPrefixOf front := by
  induction word generalizing front with
  | nil => rfl
  | cons d word ih =>
    rw [List.mem_cons, not_or] at h
    cases front with
    | nil =>
      show (d == c && word.isPrefixOf back) = false
      rw [beq_false_of_ne (Ne.symm h.1), Bool.false_and]
    | cons e front => exact congrArg (d == e && ·) (ih h.2 front)

/-- Only what stands in front of a character that is no letter can be a keyword. -/
theorem startsOperation_append_cons {c : Char} (hc : c.isAlpha = false) (front back : List Char) :
    startsOperation (front ++ c :: back) = startsOperation front := by
  have hkeywords : ∀ keyword ∈ Operation.keywords, keyword.all Char.isAlpha = true := by decide
  rw [startsOperation, startsOperation, Bool.eq_iff_iff, List.any_eq_true, List.any_eq_true]
  refine exists_congr fun keyword => and_congr_right fun hkeyword => ?_
  have hmem : c ∉ keyword := by
    intro hmem
    rw [List.all_eq_true.mp (hkeywords keyword hkeyword) c hmem] at hc
    cases hc
  rw [isPrefixOf_append_cons hmem]

theorem startsOperation_trimEnd (text : List Char) :
    startsOperation (Text.trimEnd text) = startsOperation text := by
  obtain ⟨blanks, htext, hblanks⟩ := Text.exists_trimEnd_append text
  conv => rhs; rw [← htext]
  cases blanks with
  | nil => rw [List.append_nil]
  | cons d blanks =>
    rw [startsOperation_append_cons (Text.isAlpha_of_isBlank (hblanks d List.mem_cons_self))]

theorem startsOperation_trim_append_cons {c : Char} (hc : c.isAlpha = false)
    (hblank : Text.isBlank c = false) (front back : List Char) :
    startsOperation (Text.trim (front ++ c :: back)) = startsOperation (Text.trim front) := by
  rw [Text.trim, Text.trim, startsOperation_trimEnd, startsOperation_trimEnd, Text.trimStart,
    Text.trimStart, List.dropWhile_append]
  split
  · next hempty =>
    rw [List.isEmpty_iff.mp hempty, List.dropWhile_cons, hblank]
    exact startsOperation_append_cons hc [] back
  · exact startsOperation_append_cons hc _ back

end Summary
end TaintFlow
