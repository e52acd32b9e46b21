/-
Where findings are.

Every finding of a text is on one of its lines, and the characters between its
two ends are the ones it is about (`inspect_placed`): a key or a word with
nothing around it, the first closing parenthesis of the line, or none at all
where something is missed at the end of a line.

A column is the number of characters in front of it.  Where a line is cut to count
them, the cut is given in bytes: those of the indent and those of the trimmed line
up to an offset.  `CutAt` says that so many bytes end between two characters, and
that the column of the offset is the number of characters in them.
-/
import TaintFlow.Proofs.Summary.WholeLine
import TaintFlow.Text.Bytes

namespace TaintFlow
namespace Text

/-! ## Bytes -/

/-- The characters in the first `n` bytes of a text, where no character is cut
there. -/
def bytePrefix? : Nat → List Char → Option (List Char)
  | 0, _ => some []
  | _ + 1, [] => none
  | n + 1, c :: text =>
    if c.utf8Size ≤ n + 1 then (bytePrefix? (n + 1 - c.utf8Size) text).map (c :: ·) else none

theorem byteCount_append (text rest : List Char) :
    byteCount (text ++ rest) = byteCount text + byteCount rest := by
  induction text with
  | nil => exact (Nat.zero_add _).symm
  | cons c text ih =>
    show c.utf8Size + byteCount (text ++ rest) = c.utf8Size + byteCount text + byteCount rest
    omega

theorem bytePrefix?_byteCount (text rest : List Char) :
    bytePrefix? (byteCount text) (text ++ rest) = some text := by
  induction text with
  | nil =>
    cases rest <;> rfl
  | cons c text ih =>
    have hpos := c.utf8Size_pos
    obtain ⟨n, hn⟩ : ∃ n, byteCount (c :: text) = n + 1 :=
      ⟨byteCount (c :: text) - 1, by rw [byteCount]; omega⟩
    have hrest : n + 1 - c.utf8Size = byteCount text := by
      rw [← hn, byteCount]
      omega
    have hle : c.utf8Size ≤ n + 1 := by
      rw [← hn, byteCount]
      omega
    rw [hn, List.cons_append, bytePrefix?, if_pos hle, hrest, ih]
    rfl

end Text

namespace Summary

/-- The byte of a line behind the first `offset` characters of its trimmed part.
The bytes of the indent are those that the line has more than what is left
without it. -/
def byteOf (raw : List Char) (offset : Nat) : Nat :=
  Text.byteCount raw - Text.byteCount (Text.trimStart raw) +
    Text.byteCount ((Text.trim raw).take offset)

/-- Cutting the line at that byte cuts no character, and leaves as many in front
as the column of the offset says. -/
def CutAt (row : Nat) (raw : List Char) (offset : Nat) : Prop :=
  ∃ front, Text.bytePrefix? (byteOf raw offset) raw = some front ∧
    front.length = ((Line.trimmed row raw).position offset).column

/-- No character is cut at any of the bytes at which the inspection of a line cuts
it, or cuts one of its keys. -/
structure CutsWhole (row : Nat) (raw : List Char) : Prop where
  finish : CutAt row raw (Text.trim raw).length
  parenthesis : ')' ∈ raw → CutAt row raw ((Text.trim raw).idxOf ')') ∧
    CutAt row raw ((Text.trim raw).idxOf ')' + 1) ∧
    byteOf raw ((Text.trim raw).idxOf ')' + 1) = byteOf raw ((Text.trim raw).idxOf ')') + 1
  spans : ∀ span ∈ keySpans (Text.trim raw) ++ wordSpans (Text.trim raw),
    CutAt row raw span.start ∧ CutAt row raw span.stop
  contents : ∀ span ∈ keySpans (Text.trim raw),
    Text.bytePrefix? 1 (span.text (Text.trim raw)) = some ['<'] ∧
    Text.bytePrefix? (Text.byteCount (span.text (Text.trim raw)) - 1)
      (span.text (Text.trim raw)) = some ('<' :: keyContent (span.text (Text.trim raw)))

theorem byteOf_eq {raw before behind : List Char} (hraw : raw = before ++ Text.trim raw ++ behind)
    (hlength : before.length = Text.indent raw) (offset : Nat) :
    byteOf raw offset = Text.byteCount (before ++ (Text.trim raw).take offset) := by
  have hstart : Text.trimStart raw = Text.trim raw ++ behind := by
    have htake := Text.indent_append_trimStart raw
    rw [← hlength] at htake
    conv at htake => rhs; rw [hraw, List.append_assoc]
    refine (List.append_inj htake ?_).2
    have hle := congrArg List.length hraw
    rw [List.length_append, List.length_append] at hle
    rw [List.length_take]
    omega
  have hbytes := congrArg Text.byteCount hraw
  rw [List.append_assoc, Text.byteCount_append, ← hstart] at hbytes
  rw [byteOf, Text.byteCount_append]
  omega

theorem cutAt_of_le {row offset : Nat} {raw : List Char} (h : offset ≤ (Text.trim raw).length) :
    CutAt row raw offset := by
  obtain ⟨before, behind, hraw, hlength, -, -⟩ := Text.exists_indent_append_trim raw
  refine ⟨before ++ (Text.trim raw).take offset, ?_, ?_⟩
  · have hwhole : raw = before ++ (Text.trim raw).take offset ++
        ((Text.trim raw).drop offset ++ behind) := by
      rw [List.append_assoc, ← List.append_assoc (List.take _ _), List.take_append_drop,
        ← List.append_assoc]
      exact hraw
    rw [byteOf_eq hraw hlength]
    exact (congrArg (Text.bytePrefix? _) hwhole).trans (Text.bytePrefix?_byteCount _ _)
  · rw [List.length_append, List.length_take, hlength, Nat.min_eq_left h]
    rfl

theorem cutsWhole (row : Nat) (raw : List Char) : CutsWhole row raw where
  finish := cutAt_of_le (Nat.le_refl _)
  parenthesis hmem := by
    have hlt := List.idxOf_lt_length_of_mem ((Text.mem_trim_iff (by decide)).mpr hmem)
    refine ⟨cutAt_of_le (Nat.le_of_lt hlt), cutAt_of_le hlt, ?_⟩
    rw [byteOf, byteOf, List.take_succ_eq_append_getElem hlt, Text.byteCount_append,
      List.getElem_idxOf hlt]
    rfl
  spans span hspan := by
    have hbounds : span.start < span.stop ∧ span.stop ≤ (Text.trim raw).length := by
      rcases List.mem_append.mp hspan with hspan | hspan
      · exact (isKey_of_mem_keySpans hspan).bounds
      · exact (isWord_of_mem_wordSpans hspan).bounds
    exact ⟨cutAt_of_le (Nat.le_trans (Nat.le_of_lt hbounds.1) hbounds.2), cutAt_of_le hbounds.2⟩
  contents span hspan := by
    obtain ⟨content, htext, -, -⟩ := (isKey_of_mem_keySpans hspan).text_eq
    have hcontent : keyContent ('<' :: content ++ ['>']) = content := List.dropLast_concat
    have hbytes : Text.byteCount ('<' :: content ++ ['>']) - 1 = Text.byteCount ('<' :: content) :=
      Nat.sub_eq_of_eq_add (Text.byteCount_append ('<' :: content) ['>'])
    rw [htext, hcontent, hbytes]
    exact ⟨Text.bytePrefix?_byteCount ['<'] (content ++ ['>']), Text.bytePrefix?_byteCount _ _⟩

/-! ## Places -/

/-- The characters of a line between the two ends of a finding. -/
def Finding.marked (finding : Finding) (raw : List Char) : List Char :=
  (raw.drop finding.start.column).take (finding.finish.column - finding.start.column)

/-- What the place of a finding and its text have to do with the line it is on. -/
def Finding.Fits (lines : List (List Char)) (raw : List Char) (finding : Finding) : Prop :=
  match finding.kind with
  | .invalidKey | .unknownOperation =>
    finding.marked raw = finding.code.toList ∧ finding.code.toList ≠ []
  | .missingOpenParen => finding.marked raw = [')'] ∧ ')' ∉ raw.take finding.start.column
  | .missingComma | .missingCloseParen =>
    finding.start = finding.finish ∧
      (∀ c ∈ raw.drop finding.start.column, Text.isBlank c = true) ∧
      finding.code.toList = Text.trimStart (raw.take finding.start.column)
  | .missingOpenBrace => finding.start = ⟨0, 0⟩ ∧ finding.finish = ⟨0, 0⟩
  | .missingClosingBrace =>
    finding.start = ⟨lines.length - 1, raw.length⟩ ∧ finding.finish = finding.start

/-- Both ends of the finding are on the line of the given row. -/
structure Finding.PlacedOn (lines : List (List Char)) (row : Nat) (raw : List Char)
    (finding : Finding) : Prop where
  start_row : finding.start.row = row
  finish_row : finding.finish.row = row
  column_le : finding.start.column ≤ finding.finish.column
  column_le_length : finding.finish.column ≤ raw.length
  fits : finding.Fits lines raw

def Finding.Placed (lines : List (List Char)) (finding : Finding) : Prop :=
  ∃ raw, lines[finding.start.row]? = some raw ∧ finding.PlacedOn lines finding.start.row raw

section

variable {lines : List (List Char)} {row : Nat} {raw next : List Char} {finding : Finding}

/-- What is missed at the end of a line is placed there. -/
theorem placedOn_lineEnd {c : Char} (hc : Text.isBlank c = false) (hmem : c ∈ raw)
    {kind : Finding.Kind} (hkind : kind = .missingComma ∨ kind = .missingCloseParen) :
    (Finding.about kind (lineEnd row raw) (lineEnd row raw) (Text.trim raw)).PlacedOn
      lines row raw := by
  obtain ⟨-, -, -, htrim⟩ := Text.trimEnd_eq_append_trim hc hmem
  have hcode : (String.ofList (Text.trim raw)).toList =
      Text.trimStart (raw.take (Text.trimEnd raw).length) := by
    rw [String.toList_ofList, Text.take_length_trimEnd, htrim]
  refine ⟨rfl, rfl, Nat.le_refl _, Text.length_trimEnd_le raw, ?_⟩
  rcases hkind with rfl | rfl <;>
    exact ⟨rfl, Text.isBlank_of_mem_drop_length_trimEnd, hcode⟩

theorem placedOn_of_mem_commaFindings (h : finding ∈ (Line.trimmed row raw).commaFindings next) :
    finding.PlacedOn lines row raw := by
  obtain ⟨⟨hclose, -⟩, rfl⟩ := mem_commaFindings_trimmed.mp h
  exact placedOn_lineEnd (by decide) hclose (.inl rfl)

theorem placedOn_of_mem_parenthesisFindings
    (h : finding ∈ (Line.trimmed row raw).parenthesisFindings) :
    finding.PlacedOn lines row raw := by
  rcases mem_parenthesisFindings_trimmed.mp h with ⟨hmissing, rfl⟩ | ⟨hmore, rfl⟩
  · have hmem : '(' ∈ raw := List.count_pos_iff.mp (by omega)
    exact placedOn_lineEnd (by decide) hmem (.inr rfl)
  · have hmem : ')' ∈ raw := List.count_pos_iff.mp (by omega)
    obtain ⟨before, behind, rfl, hbefore, hindex⟩ := exists_append_idxOf hmem
    rw [hindex]
    refine ⟨rfl, rfl, Nat.le_succ _, ?_, ?_, ?_⟩
    · show before.length + 1 ≤ (before ++ ')' :: behind).length
      rw [List.length_append, List.length_cons]
      omega
    · show ((before ++ ')' :: behind).drop before.length).take
        (before.length + 1 - before.length) = [')']
      rw [Nat.add_sub_cancel_left, List.drop_left]
      rfl
    · show ')' ∉ (before ++ ')' :: behind).take before.length
      rw [List.take_left]
      exact hbefore

theorem placedOn_of_mem_spanFindings {kind : Finding.Kind}
    (hkind : kind = .invalidKey ∨ kind = .unknownOperation) {bad : List Char → Bool}
    {spans : List Span} (hspans : ∀ span ∈ spans, span.start < span.stop ∧ span.stop ≤ raw.length)
    (h : finding ∈ spanFindings kind bad row raw spans) : finding.PlacedOn lines row raw := by
  obtain ⟨span, hspan, -, rfl⟩ := mem_spanFindings_iff.mp h
  obtain ⟨hlt, hle⟩ := hspans span hspan
  refine ⟨rfl, rfl, Nat.le_of_lt hlt, hle, ?_⟩
  have hcode : (Finding.about kind ⟨row, span.start⟩ ⟨row, span.stop⟩ (span.text raw)).code.toList
      = span.text raw := String.toList_ofList
  have hne : span.text raw ≠ [] := by
    intro hnil
    have hlength := congrArg List.length hnil
    rw [Span.text, List.length_take, List.length_drop, List.length_nil] at hlength
    omega
  rcases hkind with rfl | rfl <;> exact ⟨hcode.symm, fun hnil => hne (hcode.symm.trans hnil)⟩

theorem placedOn_of_mem_findings (h : finding ∈ (Line.trimmed row raw).findings next) :
    finding.PlacedOn lines row raw := by
  rw [Line.findings, List.mem_append, List.mem_append, List.mem_append] at h
  rcases h with ((hcomma | hparenthesis) | hkey) | hword
  · exact placedOn_of_mem_commaFindings hcomma
  · exact placedOn_of_mem_parenthesisFindings hparenthesis
  · rw [keyFindings_trimmed] at hkey
    exact placedOn_of_mem_spanFindings (.inl rfl)
      (fun span hspan => (isKey_of_mem_keySpans hspan).bounds) hkey
  · rw [wordFindings_trimmed] at hword
    exact placedOn_of_mem_spanFindings (.inr rfl)
      (fun span hspan => (isWord_of_mem_wordSpans hspan).bounds) hword

end

/-! ## The text as a whole -/

/-- A finding of the lines is one of a line, given the line after it. -/
theorem exists_line_of_mem_lineFindings {row : Nat} {lines : List (List Char)} {finding : Finding}
    (h : finding ∈ lineFindings row lines) : ∃ index raw next, lines[index]? = some raw ∧
      finding ∈ (Line.trimmed (row + index) raw).findings next := by
  induction lines generalizing row with
  | nil => cases h
  | cons raw rest ih =>
    rcases List.mem_append.mp h with h | h
    · exact ⟨0, raw, rest.headD [], rfl, h⟩
    · obtain ⟨index, other, next, hindex, hfinding⟩ := ih h
      refine ⟨index + 1, other, next, hindex, ?_⟩
      rw [Nat.add_assoc, Nat.add_comm 1] at hfinding
      exact hfinding

theorem placed_of_mem_braceFindings {lines : List (List Char)} (hne : lines ≠ [])
    {finding : Finding} (h : finding ∈ braceFindings lines) : finding.Placed lines := by
  rcases List.mem_append.mp h with h | h
  · split at h
    · cases h
    · rw [List.mem_singleton.mp h]
      obtain ⟨first, rest, rfl⟩ := List.exists_cons_of_ne_nil hne
      exact ⟨first, rfl, rfl, rfl, Nat.le_refl _, Nat.zero_le _, rfl, rfl⟩
  · split at h
    · cases h
    · rw [List.mem_singleton.mp h]
      have hlast : lines[lines.length - 1]? = some (lines.getLastD []) := by
        rw [← List.getLast?_eq_getElem?, List.getLast?_eq_some_getLast hne,
          List.getLastD_eq_getLast?, List.getLast?_eq_some_getLast hne]
        rfl
      exact ⟨_, hlast, rfl, rfl, Nat.le_refl _, Nat.le_refl _, rfl, rfl⟩

theorem placed_of_mem_inspect {source : String} {finding : Finding} (h : finding ∈ inspect source) :
    finding.Placed (Text.lines source.toList) := by
  rcases List.mem_append.mp h with hline | hbrace
  · obtain ⟨index, raw, next, hindex, hfinding⟩ := exists_line_of_mem_lineFindings hline
    rw [Nat.zero_add] at hfinding
    have hplaced : finding.PlacedOn (Text.lines source.toList) index raw :=
      placedOn_of_mem_findings hfinding
    obtain rfl := hplaced.start_row
    exact ⟨raw, hindex, hplaced⟩
  · exact placed_of_mem_braceFindings (List.splitOn_ne_nil '\n' _) hbrace

/-- Every finding of a text is on one of its lines, at the characters that it is
about, and no character is cut on the way there. -/
theorem inspect_placed (source : String) :
    (∀ finding ∈ inspect source, finding.Placed (Text.lines source.toList)) ∧
      ∀ row raw, (Text.lines source.toList)[row]? = some raw → CutsWhole row raw :=
  ⟨fun _ => placed_of_mem_inspect, fun row raw _ => cutsWhole row raw⟩

/-- Its second line starts with blanks of more than one byte, and has such a character in
a key. -/
def wideIndent : String := "\x7b\n\u3000\u00a0swapTaunt(<é>, <2>)\u2003\n\x7d"

theorem inspect_placed_wideIndent :
    Finding.about .invalidKey ⟨1, 12⟩ ⟨1, 15⟩ "<é>".toList ∈ inspect wideIndent ∧
    (Finding.about .invalidKey ⟨1, 12⟩ ⟨1, 15⟩ "<é>".toList).Placed
      (Text.lines wideIndent.toList) ∧
    (Text.lines wideIndent.toList)[1]? = some "\u3000\u00a0swapTaunt(<é>, <2>)\u2003".toList ∧
    CutsWhole 1 "\u3000\u00a0swapTaunt(<é>, <2>)\u2003".toList := by
  have hmem : Finding.about .invalidKey ⟨1, 12⟩ ⟨1, 15⟩ "<é>".toList ∈ inspect wideIndent := by
    decide +kernel
  have hline : (Text.lines wideIndent.toList)[1]? =
      some "\u3000\u00a0swapTaunt(<é>, <2>)\u2003".toList := by
    decide +kernel
  obtain ⟨hplaced, hcuts⟩ := inspect_placed wideIndent
  exact ⟨hmem, hplaced _ hmem, hline, hcuts 1 _ hline⟩

end Summary
end TaintFlow
