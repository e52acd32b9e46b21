/-
Blanks at the ends of a line.

Blanks in front of a line move what is found on it to the right, and blanks behind
it move nothing but a closing brace missed at the end of the text
(`inspect_padded`).  Nothing else about the findings changes, since a line is judged
without the blanks at its ends.  So carriage returns in front of the line feeds
change nothing at all.
-/
import TaintFlow.Proofs.Summary.Layout
import TaintFlow.Proofs.Summary.Neighbours
import TaintFlow.Proofs.Text.Editing

namespace TaintFlow
namespace Summary

/-! ## One line -/

section

variable {blanks : List Char} (h : ∀ c ∈ blanks, Text.isBlank c = true)

include h

theorem trimmed_blanks_append (row : Nat) (raw : List Char) :
    Line.trimmed row (blanks ++ raw) = (Line.trimmed row raw).move 0 blanks.length := by
  rw [Line.trimmed, Text.indent_blanks_append h, Text.trim_blanks_append h]
  rfl

/-- Blanks behind a line can only change the indent of one that is blank, and on
such a line nothing is found. -/
theorem findings_append_blanks (row : Nat) (raw next : List Char) :
    (Line.trimmed row (raw ++ blanks)).findings next = (Line.trimmed row raw).findings next := by
  by_cases hmem : ∃ c ∈ raw, Text.isBlank c = false
  · obtain ⟨c, hc, hblank⟩ := hmem
    rw [Line.trimmed, Text.indent_append hblank hc, Text.trim_append_blanks h]
    rfl
  · have hraw : ∀ c ∈ raw, Text.isBlank c = true := fun c hc =>
      Bool.not_eq_false _ ▸ fun hblank => hmem ⟨c, hc, hblank⟩
    have hnil : Text.trim raw = [] := by
      rw [← List.append_nil raw, Text.trim_blanks_append hraw]
      rfl
    have hpadded : Text.trim (raw ++ blanks) = [] := by
      rw [Text.trim_append_blanks h, hnil]
    rw [Line.findings_of_text_nil hpadded, Line.findings_of_text_nil hnil]

end

/-! ## The end of the text -/

/-- Only on the last line can another line move the end of the text. -/
theorem textEnd_modify (above : List (List Char)) {raw other : List Char}
    (below : List (List Char)) {columns : Nat} (hlength : other.length = raw.length + columns) :
    textEnd (above ++ other :: below) =
      if below = [] then (textEnd (above ++ raw :: below)).move 0 columns
      else textEnd (above ++ raw :: below) := by
  cases below with
  | nil =>
    rw [if_pos rfl, textEnd_eq, textEnd_eq, List.getLastD_nil, List.getLastD_nil, hlength]
    rfl
  | cons next below =>
    rw [if_neg (List.cons_ne_nil _ _), textEnd_eq, textEnd_eq]
    rfl

theorem missedBrace_map {brace : Char} {kind : Finding.Kind} {place other : Position}
    {edit : Finding → Finding}
    (hedit : edit (.about kind place place []) = .about kind other other [])
    (lines : List (List Char)) :
    (missedBrace brace kind place lines).map edit = missedBrace brace kind other lines := by
  rw [missedBrace, missedBrace]
  split
  · rfl
  · rw [List.map_singleton, hedit]

/-- What becomes of a finding if the last line gets that many characters longer at
its end. -/
def Finding.pushedByTail (columns : Nat) (finding : Finding) : Finding :=
  if finding.kind = .missingClosingBrace then finding.move 0 columns else finding

/-- What becomes of a finding if the line of a row is moved right. -/
def Finding.pushedByIndent (row columns : Nat) (finding : Finding) : Finding :=
  if finding.start.row = row ∧ finding.kind ≠ .missingOpenBrace then finding.move 0 columns
  else finding

theorem map_pushedByTail_of_isBrace {findings : List Finding}
    (h : ∀ finding ∈ findings, finding.kind.isBrace = false) (columns : Nat) :
    findings.map (.pushedByTail columns) = findings := by
  refine (List.map_congr_left fun finding hfinding => ?_).trans findings.map_id
  refine if_neg fun hkind => ?_
  have hbrace := h finding hfinding
  rw [hkind] at hbrace
  cases hbrace

theorem map_pushedByIndent_of_ne {row : Nat} {findings : List Finding}
    (h : ∀ finding ∈ findings, finding.start.row ≠ row) (columns : Nat) :
    findings.map (.pushedByIndent row columns) = findings :=
  (List.map_congr_left fun finding hfinding => if_neg fun hrow => h finding hfinding hrow.1).trans
    findings.map_id

theorem map_pushedByIndent_of_eq {row : Nat} {findings : List Finding}
    (h : ∀ finding ∈ findings, finding.start.row = row ∧ finding.kind.isBrace = false)
    (columns : Nat) :
    findings.map (.pushedByIndent row columns) = findings.map (Finding.move 0 columns) := by
  refine List.map_congr_left (f := Finding.pushedByIndent row columns) fun finding hfinding => if_pos ?_
  obtain ⟨hrow, hbrace⟩ := h finding hfinding
  refine ⟨hrow, fun hkind => ?_⟩
  rw [hkind] at hbrace
  cases hbrace

section

variable (above : List (List Char)) {raw other : List Char} (below : List (List Char))
  {columns : Nat} (hlength : other.length = raw.length + columns)
  (hbrace : ∀ brace ∈ ['\x7b', '\x7d'], brace ∈ other ↔ brace ∈ raw)

include hlength hbrace

theorem braceFindings_modify : braceFindings (above ++ other :: below) =
    missedBrace '\x7b' .missingOpenBrace ⟨0, 0⟩ (above ++ raw :: below) ++
      missedBrace '\x7d' .missingClosingBrace
        (if below = [] then (textEnd (above ++ raw :: below)).move 0 columns
          else textEnd (above ++ raw :: below)) (above ++ raw :: below) := by
  rw [List.forall_mem_cons, List.forall_mem_singleton] at hbrace
  rw [braceFindings_eq, missedBrace_congr hbrace.1, missedBrace_congr hbrace.2,
    textEnd_modify above below hlength]

theorem braceFindings_pushedByTail : braceFindings (above ++ other :: below) =
    if below = [] then (braceFindings (above ++ raw :: below)).map (.pushedByTail columns)
    else braceFindings (above ++ raw :: below) := by
  rw [braceFindings_modify above below hlength hbrace, braceFindings_eq, List.map_append]
  by_cases hbelow : below = []
  · rw [if_pos hbelow, if_pos hbelow, missedBrace_map rfl, missedBrace_map rfl]
    rfl
  · rw [if_neg hbelow, if_neg hbelow]

theorem braceFindings_pushedByIndent : braceFindings (above ++ other :: below) =
    (braceFindings (above ++ raw :: below)).map (.pushedByIndent above.length columns) := by
  have hopen : Finding.pushedByIndent above.length columns
      (.about .missingOpenBrace ⟨0, 0⟩ ⟨0, 0⟩ []) = .about .missingOpenBrace ⟨0, 0⟩ ⟨0, 0⟩ [] :=
    if_neg fun h => h.2 rfl
  rw [braceFindings_modify above below hlength hbrace, braceFindings_eq, List.map_append,
    missedBrace_map hopen]
  refine congrArg _ (missedBrace_map ?_ _).symm
  rw [textEnd_eq]
  by_cases hbelow : below = []
  · rw [if_pos hbelow, hbelow]
    exact if_pos ⟨rfl, nofun⟩
  · have hlower : above.length + below.length ≠ above.length := by
      have hpos := List.length_pos_iff.mpr hbelow
      omega
    rw [if_neg hbelow]
    exact if_neg fun h => hlower h.1

end

/-! ## The text as a whole -/

theorem brace_mem_padded_iff {blanks : List Char} (h : ∀ c ∈ blanks, Text.isBlank c = true)
    (raw : List Char) : ∀ brace ∈ ['\x7b', '\x7d'],
      (brace ∈ blanks ++ raw ↔ brace ∈ raw) ∧ (brace ∈ raw ++ blanks ↔ brace ∈ raw) := by
  intro brace hbrace
  have hmark : Text.isBlank brace = false := by
    rcases List.mem_pair.mp hbrace with rfl | rfl <;> decide
  have hnot : brace ∉ blanks := Text.not_mem_of_blank h hmark
  rw [List.mem_append, List.mem_append]
  exact ⟨or_iff_right hnot, or_iff_left hnot⟩

section

variable {source : String} {above below : List (List Char)} {raw : List Char}
  (hlines : Text.lines source.toList = above ++ raw :: below)
  {blanks : List Char} (hblanks : ∀ c ∈ blanks, isInlineBlank c = true)

include hlines hblanks

theorem newline_not_mem_padded : '\n' ∉ blanks ++ raw ∧ '\n' ∉ raw ++ blanks := by
  have hraw := Text.newline_not_mem_of_lines hlines
  have hnewline : '\n' ∉ blanks := fun hmem => (isInlineBlank_iff.mp (hblanks _ hmem)).2 rfl
  rw [List.mem_append, List.mem_append]
  exact ⟨not_or.mpr ⟨hnewline, hraw⟩, not_or.mpr ⟨hraw, hnewline⟩⟩

theorem inspect_blanks_append :
    inspect (Text.modifyLine above.length (blanks ++ ·) source) =
      (inspect source).map (.pushedByIndent above.length blanks.length) := by
  have hblank : ∀ c ∈ blanks, Text.isBlank c = true := fun c hc =>
    (isInlineBlank_iff.mp (hblanks c hc)).1
  have hnext : startsOperation (Text.trim (blanks ++ raw)) = startsOperation (Text.trim raw) := by
    rw [Text.trim_blanks_append hblank]
  have hlength : (blanks ++ raw).length = raw.length + blanks.length := by
    rw [List.length_append, Nat.add_comm]
  have habove : (findingsOver raw 0 above).map (.pushedByIndent above.length blanks.length) =
      findingsOver raw 0 above := by
    refine map_pushedByIndent_of_ne (fun finding hfinding => ?_) _
    obtain ⟨-, hlt, -⟩ := row_of_mem_findingsOver hfinding
    omega
  have hline : ((Line.trimmed above.length raw).findings (below.headD [])).map
        (Finding.pushedByIndent above.length blanks.length) =
      ((Line.trimmed above.length raw).findings (below.headD [])).map (Finding.move 0 blanks.length) := by
    refine map_pushedByIndent_of_eq (fun finding hfinding => ?_) _
    exact ⟨Line.row_of_mem_findings hfinding, Line.isBrace_of_mem_findings hfinding⟩
  have hbelow : (lineFindings (above.length + 1) below).map
        (.pushedByIndent above.length blanks.length) = lineFindings (above.length + 1) below := by
    refine map_pushedByIndent_of_ne (fun finding hfinding => ?_) _
    obtain ⟨hle, -⟩ := row_of_mem_lineFindings hfinding
    omega
  have hbraces := braceFindings_pushedByIndent above below hlength fun brace hbrace =>
    (brace_mem_padded_iff hblank raw brace hbrace).1
  rw [inspect_eq (Text.lines_modifyLine hlines _ (newline_not_mem_padded hlines hblanks).1),
    inspect_eq hlines, List.map_append, List.map_append, List.map_append, habove, hline, hbelow,
    findingsOver_congr hnext, trimmed_blanks_append hblank, Line.findings_move, hbraces]

theorem inspect_append_blanks :
    inspect (Text.modifyLine above.length (· ++ blanks) source) =
      if below = [] then (inspect source).map (.pushedByTail blanks.length)
      else inspect source := by
  have hblank : ∀ c ∈ blanks, Text.isBlank c = true := fun c hc =>
    (isInlineBlank_iff.mp (hblanks c hc)).1
  have hnext : startsOperation (Text.trim (raw ++ blanks)) = startsOperation (Text.trim raw) := by
    rw [Text.trim_append_blanks hblank]
  have hbraces := braceFindings_pushedByTail above below
    (List.length_append : (raw ++ blanks).length = raw.length + blanks.length) fun brace hbrace =>
    (brace_mem_padded_iff hblank raw brace hbrace).2
  have habove : (findingsOver raw 0 above).map (.pushedByTail blanks.length) =
      findingsOver raw 0 above :=
    map_pushedByTail_of_isBrace (fun _ hfinding => (row_of_mem_findingsOver hfinding).2.2) _
  have hline : ((Line.trimmed above.length raw).findings (below.headD [])).map
        (.pushedByTail blanks.length) =
      (Line.trimmed above.length raw).findings (below.headD []) :=
    map_pushedByTail_of_isBrace (fun _ => Line.isBrace_of_mem_findings) _
  have hbelow : (lineFindings (above.length + 1) below).map (.pushedByTail blanks.length) =
      lineFindings (above.length + 1) below :=
    map_pushedByTail_of_isBrace (fun _ hfinding => (row_of_mem_lineFindings hfinding).2) _
  rw [inspect_eq (Text.lines_modifyLine hlines _ (newline_not_mem_padded hlines hblanks).2),
    inspect_eq hlines, List.map_append, List.map_append, List.map_append, habove, hline, hbelow,
    findingsOver_congr hnext, findings_append_blanks hblank, hbraces]
  split <;> rfl

end

/-! ## Carriage returns -/

theorem lineFindings_returns (row : Nat) (lines : List (List Char)) :
    lineFindings row (Text.returns lines) = lineFindings row lines := by
  have hreturn : ∀ c ∈ ['\r'], Text.isBlank c = true := List.forall_mem_singleton.mpr (by decide)
  induction lines generalizing row with
  | nil => rfl
  | cons raw rest ih =>
    cases rest with
    | nil => rfl
    | cons next rest =>
      have hnext : startsOperation (Text.trim ((Text.returns (next :: rest)).headD [])) =
          startsOperation (Text.trim next) := by
        cases rest with
        | nil => rfl
        | cons => exact congrArg startsOperation (Text.trim_append_blanks hreturn next)
      rw [Text.returns, lineFindings, ih, findings_append_blanks hreturn, Line.findings_congr hnext]
      rfl

theorem braceFindings_returns (lines : List (List Char)) :
    braceFindings (Text.returns lines) = braceFindings lines := by
  have hend : textEnd (Text.returns lines) = textEnd lines := by
    rw [textEnd, textEnd, Text.length_returns, Text.getLastD_returns]
  rw [braceFindings_eq, braceFindings_eq, hend, missedBrace, missedBrace, missedBrace, missedBrace,
    Text.any_contains_returns (by decide), Text.any_contains_returns (by decide)]

theorem inspect_withReturns (source : String) :
    inspect (Text.withReturns source) = inspect source := by
  show lineFindings 0 (Text.lines (Text.withReturns source).toList) ++
    braceFindings (Text.lines (Text.withReturns source).toList) = _
  rw [Text.lines_withReturns, lineFindings_returns, braceFindings_returns]
  rfl

/-- Blanks at the ends of lines change the findings in their columns at most: blanks in
front of a line push all that is found on it, and blanks behind the last line push a
missing closing brace.  Carriage returns in front of all line feeds push nothing. -/
theorem inspect_padded (source : String) :
    (∀ row < (Text.lines source.toList).length, ∀ blanks : List Char,
      (∀ c ∈ blanks, isInlineBlank c = true) →
        inspect (Text.modifyLine row (blanks ++ ·) source) =
          (inspect source).map (.pushedByIndent row blanks.length) ∧
        inspect (Text.modifyLine row (· ++ blanks) source) =
          if row + 1 = (Text.lines source.toList).length then
            (inspect source).map (.pushedByTail blanks.length)
          else inspect source) ∧
    inspect (Text.withReturns source) = inspect source := by
  refine ⟨fun row hrow blanks hblanks => ?_, inspect_withReturns source⟩
  obtain ⟨above, below, hlines, rfl⟩ := Text.exists_lines_around (List.getElem?_eq_getElem hrow)
  have hlast : below = [] ↔ above.length + 1 = (Text.lines source.toList).length := by
    rw [hlines, List.length_append, List.length_cons, ← List.length_eq_zero_iff]
    omega
  refine ⟨inspect_blanks_append hlines hblanks, ?_⟩
  rw [inspect_append_blanks hlines hblanks]
  exact if_congr hlast rfl rfl

/-- Blanks of both sorts around the second of three lines. -/
theorem inspect_padded_wideIndent :
    1 < (Text.lines wideIndent.toList).length ∧
    (∀ c ∈ ['\u2003', '\r'], isInlineBlank c = true) ∧
    inspect (Text.modifyLine 1 (['\u2003', '\r'] ++ ·) wideIndent) =
      [.about .invalidKey ⟨1, 14⟩ ⟨1, 17⟩ "<é>".toList,
        .about .unknownOperation ⟨1, 4⟩ ⟨1, 13⟩ "swapTaunt".toList] ∧
    inspect (Text.modifyLine 1 (· ++ ['\u2003', '\r']) wideIndent) = inspect wideIndent := by
  have hrow : 1 < (Text.lines wideIndent.toList).length := by decide +kernel
  have hblanks : ∀ c ∈ ['\u2003', '\r'], isInlineBlank c = true :=
    List.all_eq_true.mp (by decide)
  obtain ⟨hindent, htail⟩ := (inspect_padded wideIndent).1 1 hrow _ hblanks
  exact ⟨hrow, hblanks, hindent.trans (by decide +kernel), htail.trans (if_neg (by decide +kernel))⟩

end Summary
end TaintFlow
