/-
The findings of a line, read off the line as it stands.

The inspection judges a line without the blanks at its ends and then adds the
indent to every place.  The same findings come from the whole line with no
trimming at all: the comma (`commaFindings_trimmed`) and the parentheses
(`parenthesisFindings_trimmed`) are missed at the end of the line without its
blanks or at the first closing parenthesis, and keys and words are those of the
whole line (`keyFindings_trimmed`, `wordFindings_trimmed`).
-/
import Mathlib.Data.List.Basic
import TaintFlow.Proofs.Summary.Scanning
import TaintFlow.Summary.Inspection

namespace TaintFlow
namespace Summary

/-- The place behind the last character of a line that is no blank. -/
def lineEnd (row : Nat) (raw : List Char) : Position := ⟨row, (Text.trimEnd raw).length⟩

/-- The findings about the bad ones among some spans of a line. -/
def spanFindings (kind : Finding.Kind) (bad : List Char → Bool) (row : Nat) (raw : List Char)
    (spans : List Span) : List Finding :=
  (spans.filter fun span => bad (span.text raw)).map fun span =>
    .about kind ⟨row, span.start⟩ ⟨row, span.stop⟩ (span.text raw)

theorem mem_spanFindings_iff {kind : Finding.Kind} {bad : List Char → Bool} {row : Nat}
    {raw : List Char} {spans : List Span} {finding : Finding} :
    finding ∈ spanFindings kind bad row raw spans ↔ ∃ span ∈ spans, bad (span.text raw) = true ∧
      finding = .about kind ⟨row, span.start⟩ ⟨row, span.stop⟩ (span.text raw) := by
  rw [spanFindings, List.mem_map]
  constructor
  · rintro ⟨span, hspan, rfl⟩
    obtain ⟨hmem, hbad⟩ := List.mem_filter.mp hspan
    exact ⟨span, hmem, hbad, rfl⟩
  · rintro ⟨span, hmem, hbad, rfl⟩
    exact ⟨span, List.mem_filter.mpr ⟨hmem, hbad⟩, rfl⟩

/-! ## Keys and words -/

/-- Findings at spans of the trimmed line are findings at the same spans of the
line. -/
theorem map_spanFinding_trimmed {kind : Finding.Kind} {bad : List Char → Bool} {row : Nat}
    {raw before behind : List Char} (hraw : raw = before ++ Text.trim raw ++ behind)
    (hlength : before.length = Text.indent raw) {spans : List Span}
    (hspans : ∀ span ∈ spans, span.stop ≤ (Text.trim raw).length) :
    (spans.filter fun span => bad (span.text (Text.trim raw))).map
        ((Line.trimmed row raw).spanFinding kind) =
      spanFindings kind bad row raw (spans.map (Span.shift before.length)) := by
  have htext : ∀ span ∈ spans,
      (span.shift before.length).text raw = span.text (Text.trim raw) := by
    intro span hspan
    conv => lhs; rw [hraw, List.append_assoc, Span.text_shift]
    exact Span.text_append_of_le (hspans span hspan) behind
  rw [spanFindings, List.filter_map, List.map_map]
  have hfilter : spans.filter (fun span => bad (span.text (Text.trim raw))) =
      spans.filter ((fun span => bad (span.text raw)) ∘ Span.shift before.length) :=
    List.filter_congr fun span hspan => congrArg bad (htext span hspan).symm
  rw [hfilter]
  refine List.map_congr_left fun span hspan => ?_
  show Finding.about kind ⟨row, Text.indent raw + span.start⟩ ⟨row, Text.indent raw + span.stop⟩
    (span.text (Text.trim raw)) = Finding.about kind ⟨row, span.start + before.length⟩
      ⟨row, span.stop + before.length⟩ ((span.shift before.length).text raw)
  rw [htext span (List.mem_filter.mp hspan).1, hlength, Nat.add_comm span.start,
    Nat.add_comm span.stop]

theorem keyFindings_trimmed (row : Nat) (raw : List Char) :
    (Line.trimmed row raw).keyFindings =
      spanFindings .invalidKey Line.isInvalidKey row raw (keySpans raw) := by
  obtain ⟨before, behind, hraw, hlength, hbefore, hbehind⟩ := Text.exists_indent_append_trim raw
  have hspans := keySpans_of_blank hbefore hbehind (Text.trim raw)
  rw [← hraw] at hspans
  rw [hspans]
  exact map_spanFinding_trimmed hraw hlength fun span hspan =>
    (isKey_of_mem_keySpans hspan).bounds.2

theorem wordFindings_trimmed (row : Nat) (raw : List Char) :
    (Line.trimmed row raw).wordFindings =
      spanFindings .unknownOperation Line.isMisspeltKeyword row raw (wordSpans raw) := by
  obtain ⟨before, behind, hraw, hlength, hbefore, hbehind⟩ := Text.exists_indent_append_trim raw
  have hspans := wordSpans_of_blank hbefore hbehind (Text.trim raw)
  rw [← hraw] at hspans
  rw [hspans]
  exact map_spanFinding_trimmed hraw hlength fun span hspan =>
    (isWord_of_mem_wordSpans hspan).bounds.2

/-! ## Commas and parentheses -/

theorem finish_trimmed {c : Char} (hc : Text.isBlank c = false) (row : Nat) {raw : List Char}
    (hmem : c ∈ raw) : (Line.trimmed row raw).finish = lineEnd row raw := by
  rw [lineEnd, Text.length_trimEnd hc hmem]
  rfl

theorem commaFindings_trimmed (row : Nat) (raw next : List Char) :
    (Line.trimmed row raw).commaFindings next =
      if ')' ∈ raw ∧ ',' ∉ raw ∧ '\x7d' ∉ raw ∧ startsOperation (Text.trim next) = true then
        [.about .missingComma (lineEnd row raw) (lineEnd row raw) (Text.trim raw)]
      else [] := by
  have hiff : ∀ c, Text.isBlank c = false →
      ((Line.trimmed row raw).text.contains c = true ↔ c ∈ raw) := fun c hc => by
    rw [List.contains_iff_mem]
    exact Text.mem_trim_iff hc
  have hclose := hiff ')' (by decide)
  have hcomma := hiff ',' (by decide)
  have hbrace := hiff '\x7d' (by decide)
  rw [Line.commaFindings]
  simp only [Bool.and_eq_true, Bool.not_eq_true', hclose, ← Bool.not_eq_true, hcomma, hbrace,
    and_assoc]
  by_cases hcond : ')' ∈ raw ∧ ',' ∉ raw ∧ '\x7d' ∉ raw ∧ startsOperation (Text.trim next) = true
  · rw [if_pos hcond, if_pos hcond, ← finish_trimmed (by decide) row hcond.1]
    rfl
  · rw [if_neg hcond, if_neg hcond]

theorem mem_commaFindings_trimmed {row : Nat} {raw next : List Char} {finding : Finding} :
    finding ∈ (Line.trimmed row raw).commaFindings next ↔
      (')' ∈ raw ∧ ',' ∉ raw ∧ '\x7d' ∉ raw ∧ startsOperation (Text.trim next) = true) ∧
        finding = .about .missingComma (lineEnd row raw) (lineEnd row raw) (Text.trim raw) := by
  rw [commaFindings_trimmed]
  split
  · next hcond => rw [List.mem_singleton, and_iff_right hcond]
  · next hcond => exact ⟨fun h => absurd h List.not_mem_nil, fun h => absurd h.1 hcond⟩

/-- The first place of a character parts a line. -/
theorem exists_append_idxOf {c : Char} {raw : List Char} (hmem : c ∈ raw) :
    ∃ front back, raw = front ++ c :: back ∧ c ∉ front ∧ raw.idxOf c = front.length := by
  obtain ⟨front, back, rfl, hfront⟩ := List.eq_append_cons_of_mem hmem
  refine ⟨front, back, rfl, hfront, ?_⟩
  rw [List.idxOf_append_of_notMem hfront, List.idxOf_cons_self, Nat.add_zero]

theorem idxOf_trim {c : Char} (hc : Text.isBlank c = false) {raw : List Char} (hmem : c ∈ raw) :
    Text.indent raw + (Text.trim raw).idxOf c = raw.idxOf c := by
  obtain ⟨before, behind, hraw, hlength, hbefore, -⟩ := Text.exists_indent_append_trim raw
  conv => rhs; rw [hraw]
  rw [List.append_assoc, List.idxOf_append_of_notMem (Text.not_mem_of_blank hbefore hc),
    List.idxOf_append_of_mem ((Text.mem_trim_iff hc).mpr hmem), hlength]

theorem parenthesisFindings_trimmed (row : Nat) (raw : List Char) :
    (Line.trimmed row raw).parenthesisFindings =
      if raw.count ')' < raw.count '(' then
        [.about .missingCloseParen (lineEnd row raw) (lineEnd row raw) (Text.trim raw)]
      else if raw.count '(' < raw.count ')' then
        [.about .missingOpenParen ⟨row, raw.idxOf ')'⟩ ⟨row, raw.idxOf ')' + 1⟩ (Text.trim raw)]
      else [] := by
  have hopens := Text.count_trim (c := '(') (by decide) raw
  have hcloses := Text.count_trim (c := ')') (by decide) raw
  show (if (Text.trim raw).count ')' < (Text.trim raw).count '(' then _ else
    if (Text.trim raw).count '(' < (Text.trim raw).count ')' then _ else _) = _
  rw [hopens, hcloses]
  by_cases hmissing : raw.count ')' < raw.count '('
  · have hmem : '(' ∈ raw := List.count_pos_iff.mp (by omega)
    rw [if_pos hmissing, if_pos hmissing, ← finish_trimmed (by decide) row hmem]
    rfl
  · rw [if_neg hmissing, if_neg hmissing]
    by_cases hmore : raw.count '(' < raw.count ')'
    · have hmem : ')' ∈ raw := List.count_pos_iff.mp (by omega)
      rw [if_pos hmore, if_pos hmore, ← idxOf_trim (by decide) hmem]
      rfl
    · rw [if_neg hmore, if_neg hmore]

theorem mem_parenthesisFindings_trimmed {row : Nat} {raw : List Char} {finding : Finding} :
    finding ∈ (Line.trimmed row raw).parenthesisFindings ↔
      (raw.count ')' < raw.count '(' ∧
        finding = .about .missingCloseParen (lineEnd row raw) (lineEnd row raw) (Text.trim raw)) ∨
      (raw.count '(' < raw.count ')' ∧
        finding = .about .missingOpenParen ⟨row, raw.idxOf ')'⟩ ⟨row, raw.idxOf ')' + 1⟩
          (Text.trim raw)) := by
  rw [parenthesisFindings_trimmed]
  split
  · next hlt =>
    rw [List.mem_singleton, and_iff_right hlt, or_iff_left fun h => Nat.lt_asymm hlt h.1]
  · next hle =>
    rw [or_iff_right fun h => hle h.1]
    split
    · next hlt => rw [List.mem_singleton, and_iff_right hlt]
    · next hge => exact ⟨fun h => absurd h List.not_mem_nil, fun h => absurd h.1 hge⟩

end Summary
end TaintFlow
