/-
A line among the others.

What is found on a line depends on the line and on one thing about the line under
it: whether an operation starts there.  So the findings of a text are those of the
lines above a line, those of the line, those of the lines under it and the missing
braces (`inspect_eq`), and only the first of these parts looks at the line.

A line that stands elsewhere has the same findings, moved by as many rows and
columns (`Line.findings_move`).
-/
import TaintFlow.Proofs.Summary.Places
import TaintFlow.Proofs.Text.Editing

namespace TaintFlow
namespace Summary

/-! ## Findings of one line -/

/-- A brace is missed in the text as a whole and on no line. -/
def Finding.Kind.isBrace : Finding.Kind → Bool
  | missingOpenBrace | missingClosingBrace => true
  | _ => false

namespace Line

variable {line : Line} {next : List Char} {finding : Finding}

/-- Each check of a line finds what it is for, and finds it on the line. -/
theorem exists_of_mem_findings (h : finding ∈ line.findings next) :
    ∃ kind start stop code, finding = line.finding kind start stop code ∧
      ((kind = .missingComma ∧ finding ∈ line.commaFindings next) ∨
        ((kind = .missingCloseParen ∨ kind = .missingOpenParen) ∧
          finding ∈ line.parenthesisFindings) ∨
        (kind = .invalidKey ∧ finding ∈ line.keyFindings) ∨
        (kind = .unknownOperation ∧ finding ∈ line.wordFindings)) := by
  rw [findings, List.mem_append, List.mem_append, List.mem_append] at h
  rcases h with ((hcomma | hparenthesis) | hkey) | hword
  · have hmem := hcomma
    simp only [commaFindings] at hcomma
    split at hcomma
    · exact ⟨_, _, _, _, List.mem_singleton.mp hcomma, .inl ⟨rfl, hmem⟩⟩
    · cases hcomma
  · have hmem := hparenthesis
    simp only [parenthesisFindings] at hparenthesis
    split at hparenthesis
    · exact ⟨_, _, _, _, List.mem_singleton.mp hparenthesis, .inr (.inl ⟨.inl rfl, hmem⟩)⟩
    · split at hparenthesis
      · exact ⟨_, _, _, _, List.mem_singleton.mp hparenthesis, .inr (.inl ⟨.inr rfl, hmem⟩)⟩
      · cases hparenthesis
  · obtain ⟨span, -, hspan⟩ := List.mem_map.mp hkey
    exact ⟨_, _, _, _, hspan.symm, .inr (.inr (.inl ⟨rfl, hkey⟩))⟩
  · obtain ⟨span, -, hspan⟩ := List.mem_map.mp hword
    exact ⟨_, _, _, _, hspan.symm, .inr (.inr (.inr ⟨rfl, hword⟩))⟩

theorem row_of_mem_findings (h : finding ∈ line.findings next) :
    finding.start.row = line.row := by
  obtain ⟨kind, start, stop, code, rfl, -⟩ := exists_of_mem_findings h
  rfl

theorem isBrace_of_mem_findings (h : finding ∈ line.findings next) :
    finding.kind.isBrace = false := by
  obtain ⟨kind, start, stop, code, rfl, hkind⟩ := exists_of_mem_findings h
  show kind.isBrace = false
  rcases hkind with ⟨rfl, -⟩ | ⟨rfl | rfl, -⟩ | ⟨rfl, -⟩ | ⟨rfl, -⟩ <;> rfl

section

variable (h : finding ∈ line.findings next)

include h

theorem mem_commaFindings_of_kind (hkind : finding.kind = .missingComma) :
    finding ∈ line.commaFindings next := by
  obtain ⟨kind, start, stop, code, rfl, hcheck⟩ := exists_of_mem_findings h
  have hkind : kind = .missingComma := hkind
  simpa [hkind] using hcheck

theorem mem_parenthesisFindings_of_kind
    (hkind : finding.kind = .missingCloseParen ∨ finding.kind = .missingOpenParen) :
    finding ∈ line.parenthesisFindings := by
  obtain ⟨kind, start, stop, code, rfl, hcheck⟩ := exists_of_mem_findings h
  have hkind : kind = .missingCloseParen ∨ kind = .missingOpenParen := hkind
  rcases hkind with hkind | hkind <;> simpa [hkind] using hcheck

theorem mem_keyFindings_of_kind (hkind : finding.kind = .invalidKey) :
    finding ∈ line.keyFindings := by
  obtain ⟨kind, start, stop, code, rfl, hcheck⟩ := exists_of_mem_findings h
  have hkind : kind = .invalidKey := hkind
  simpa [hkind] using hcheck

end

/-- Of the line under a line only the start counts. -/
theorem findings_congr {other : List Char}
    (h : startsOperation (Text.trim next) = startsOperation (Text.trim other)) :
    line.findings next = line.findings other := by
  rw [findings, findings, commaFindings, commaFindings, h]

/-- With nothing under it a line misses no comma. -/
theorem commaFindings_nil : line.commaFindings [] = [] := by
  have hnone : startsOperation (Text.trim []) = false := by decide
  rw [commaFindings, hnone, Bool.and_false]
  rfl

/-- A comma comes in front of what else is found on a line. -/
theorem findings_eq_append :
    line.findings next = line.commaFindings next ++ line.findings [] := by
  rw [findings, findings, commaFindings_nil, List.nil_append, List.append_assoc, List.append_assoc,
    List.append_assoc]

theorem findings_of_text_nil (h : line.text = []) : line.findings next = [] := by
  rw [findings, commaFindings, parenthesisFindings, keyFindings, wordFindings, h]
  rfl

end Line

/-! ## Moving -/

/-- The place that many rows further down and that many columns further right. -/
def Position.move (rows columns : Nat) (position : Position) : Position :=
  ⟨position.row + rows, position.column + columns⟩

def Finding.move (rows columns : Nat) (finding : Finding) : Finding :=
  { finding with
    start := finding.start.move rows columns
    finish := finding.finish.move rows columns }

namespace Line

variable (line : Line) (rows columns : Nat)

def move : Line := { line with row := line.row + rows, indent := line.indent + columns }

theorem finding_move (kind : Finding.Kind) (start stop : Nat) (code : List Char) :
    (line.move rows columns).finding kind start stop code =
      (line.finding kind start stop code).move rows columns := by
  have hposition : ∀ offset, (line.move rows columns).position offset =
      (line.position offset).move rows columns := fun offset =>
    congrArg (Position.mk (line.row + rows)) (Nat.add_right_comm _ _ _)
  rw [finding, hposition, hposition]
  rfl

theorem findings_move (next : List Char) :
    (line.move rows columns).findings next =
      (line.findings next).map (Finding.move rows columns) := by
  have hcomma : (line.move rows columns).commaFindings next =
      (line.commaFindings next).map (Finding.move rows columns) := by
    rw [commaFindings, commaFindings, finding_move, apply_ite (List.map _)]
    rfl
  have hparenthesis : (line.move rows columns).parenthesisFindings =
      line.parenthesisFindings.map (Finding.move rows columns) := by
    simp only [parenthesisFindings, finding_move, apply_ite (List.map _)]
    rfl
  have hspan : ∀ kind, (line.move rows columns).spanFinding kind =
      Finding.move rows columns ∘ line.spanFinding kind := fun kind =>
    funext fun span => finding_move line rows columns kind _ _ _
  have hkeys : (line.move rows columns).keyFindings =
      line.keyFindings.map (Finding.move rows columns) := by
    rw [keyFindings, keyFindings, hspan, List.map_map]
    rfl
  have hwords : (line.move rows columns).wordFindings =
      line.wordFindings.map (Finding.move rows columns) := by
    rw [wordFindings, wordFindings, hspan, List.map_map]
    rfl
  rw [findings, findings, hcomma, hparenthesis, hkeys, hwords, List.map_append, List.map_append,
    List.map_append]

end Line

/-! ## Findings of many lines -/

/-- The findings of lines from `row` on, under which stands one line more. -/
def findingsOver (next : List Char) (row : Nat) : List (List Char) → List Finding
  | [] => []
  | raw :: rest =>
    (Line.trimmed row raw).findings (rest.headD next) ++ findingsOver next (row + 1) rest

theorem findingsOver_congr {next other : List Char}
    (h : startsOperation (Text.trim next) = startsOperation (Text.trim other)) (row : Nat)
    (lines : List (List Char)) : findingsOver next row lines = findingsOver other row lines := by
  induction lines generalizing row with
  | nil => rfl
  | cons raw rest ih =>
    rw [findingsOver, findingsOver, ih]
    cases rest with
    | nil => rw [List.headD_nil, List.headD_nil, Line.findings_congr h]
    | cons => rfl

theorem findingsOver_concat (next : List Char) (row : Nat) (above : List (List Char))
    (raw : List Char) : findingsOver next row (above ++ [raw]) =
      findingsOver raw row above ++ (Line.trimmed (row + above.length) raw).findings next := by
  induction above generalizing row with
  | nil =>
    show (Line.trimmed row raw).findings next ++ [] = _
    rw [List.append_nil]
    rfl
  | cons line above ih =>
    have hnext : (above ++ [raw]).headD next = above.headD raw := by
      cases above <;> rfl
    rw [List.cons_append, findingsOver, ih, hnext, findingsOver, List.length_cons,
      Nat.add_assoc row 1, Nat.add_comm 1, List.append_assoc]

/-- The lines above others see the first of these under them. -/
theorem lineFindings_append (row : Nat) (front back : List (List Char)) :
    lineFindings row (front ++ back) =
      findingsOver (back.headD []) row front ++ lineFindings (row + front.length) back := by
  induction front generalizing row with
  | nil => rfl
  | cons raw front ih =>
    have hnext : (front ++ back).headD [] = front.headD (back.headD []) := by
      cases front <;> rfl
    rw [List.cons_append, lineFindings, ih, hnext, findingsOver, List.length_cons,
      Nat.add_assoc row 1, Nat.add_comm 1, List.append_assoc]

theorem lineFindings_move (rows row : Nat) (lines : List (List Char)) :
    lineFindings (row + rows) lines = (lineFindings row lines).map (Finding.move rows 0) := by
  induction lines generalizing row with
  | nil => rfl
  | cons raw rest ih =>
    rw [lineFindings, lineFindings, List.map_append, ← ih, ← Line.findings_move,
      Nat.add_right_comm]
    rfl

theorem row_of_mem_findingsOver {next : List Char} {row : Nat} {lines : List (List Char)}
    {finding : Finding} (h : finding ∈ findingsOver next row lines) :
    row ≤ finding.start.row ∧ finding.start.row < row + lines.length ∧
      finding.kind.isBrace = false := by
  induction lines generalizing row with
  | nil => cases h
  | cons raw rest ih =>
    rcases List.mem_append.mp h with h | h
    · have hrow : finding.start.row = row := Line.row_of_mem_findings h
      rw [List.length_cons]
      exact ⟨by omega, by omega, Line.isBrace_of_mem_findings h⟩
    · obtain ⟨hle, hlt, hkind⟩ := ih h
      rw [List.length_cons]
      exact ⟨by omega, by omega, hkind⟩

theorem row_of_mem_lineFindings {row : Nat} {lines : List (List Char)} {finding : Finding}
    (h : finding ∈ lineFindings row lines) :
    row ≤ finding.start.row ∧ finding.kind.isBrace = false := by
  have hover := lineFindings_append row lines []
  rw [List.append_nil] at hover
  rw [hover, lineFindings, List.append_nil] at h
  obtain ⟨hle, -, hkind⟩ := row_of_mem_findingsOver h
  exact ⟨hle, hkind⟩

/-! ## The text as a whole -/

/-- The end of the last line. -/
def textEnd (lines : List (List Char)) : Position :=
  ⟨lines.length - 1, (lines.getLastD []).length⟩

theorem textEnd_eq (above : List (List Char)) (raw : List Char) (below : List (List Char)) :
    textEnd (above ++ raw :: below) =
      ⟨above.length + below.length, (below.getLastD raw).length⟩ := by
  have hlast : (above ++ raw :: below).getLastD [] = below.getLastD raw := by
    rw [List.getLastD_eq_getLast?, List.getLast?_append_of_ne_nil above (List.cons_ne_nil raw below),
      List.getLast?_cons, Option.getD_some, List.getLastD_eq_getLast?]
  rw [textEnd, hlast, List.length_append, List.length_cons]
  rfl

/-- What is found, at a given place, when a brace is on no line. -/
def missedBrace (brace : Char) (kind : Finding.Kind) (place : Position)
    (lines : List (List Char)) : List Finding :=
  if lines.any (·.contains brace) then [] else [.about kind place place []]

theorem braceFindings_eq (lines : List (List Char)) :
    braceFindings lines = missedBrace '\x7b' .missingOpenBrace ⟨0, 0⟩ lines ++
      missedBrace '\x7d' .missingClosingBrace (textEnd lines) lines := rfl

section

variable {brace : Char} {kind : Finding.Kind} {place : Position}

theorem missedBrace_of_mem {lines : List (List Char)} {line : List Char} (hline : line ∈ lines)
    (hmem : brace ∈ line) : missedBrace brace kind place lines = [] := by
  rw [missedBrace, if_pos]
  exact List.any_eq_true.mpr ⟨line, hline, List.contains_iff_mem.mpr hmem⟩

theorem missedBrace_of_not_mem {lines : List (List Char)} (h : ∀ line ∈ lines, brace ∉ line) :
    missedBrace brace kind place lines = [.about kind place place []] := by
  rw [missedBrace, if_neg]
  intro hany
  obtain ⟨line, hline, hmem⟩ := List.any_eq_true.mp hany
  exact h line hline (List.contains_iff_mem.mp hmem)

theorem mem_missedBrace_iff {lines : List (List Char)} {finding : Finding} :
    finding ∈ missedBrace brace kind place lines ↔
      finding = .about kind place place [] ∧ ∀ line ∈ lines, brace ∉ line := by
  constructor
  · intro h
    have hnone : ∀ line ∈ lines, brace ∉ line := fun line hline hmem => by
      rw [missedBrace_of_mem hline hmem] at h
      cases h
    rw [missedBrace_of_not_mem hnone] at h
    exact ⟨List.mem_singleton.mp h, hnone⟩
  · rintro ⟨rfl, hnone⟩
    rw [missedBrace_of_not_mem hnone]
    exact List.mem_singleton_self _

/-- On one line others can be written, as long as a brace stays on it or off it. -/
theorem missedBrace_congr {raw other : List Char} (h : brace ∈ raw ↔ brace ∈ other)
    (above below : List (List Char)) :
    missedBrace brace kind place (above ++ raw :: below) =
      missedBrace brace kind place (above ++ other :: below) := by
  have hcontains : raw.contains brace = other.contains brace := by
    rw [Bool.eq_iff_iff, List.contains_iff_mem, List.contains_iff_mem, h]
  rw [missedBrace, missedBrace, List.any_append, List.any_append, List.any_cons, List.any_cons,
    hcontains]

end

theorem isBrace_of_mem_braceFindings {lines : List (List Char)} {finding : Finding}
    (h : finding ∈ braceFindings lines) : finding.kind.isBrace = true := by
  rw [braceFindings_eq, List.mem_append] at h
  rcases h with h | h <;> rw [(mem_missedBrace_iff.mp h).1] <;> rfl

/-- The findings of a text are those of the lines above a line, of the line, of the
lines under it, and the missing braces. -/
theorem inspect_eq {source : String} {above below : List (List Char)} {raw : List Char}
    (h : Text.lines source.toList = above ++ raw :: below) :
    inspect source = findingsOver raw 0 above ++
      ((Line.trimmed above.length raw).findings (below.headD []) ++
        (lineFindings (above.length + 1) below ++ braceFindings (above ++ raw :: below))) := by
  show lineFindings 0 (Text.lines source.toList) ++ braceFindings (Text.lines source.toList) = _
  rw [h, lineFindings_append, Nat.zero_add, lineFindings, List.append_assoc, List.append_assoc]
  rfl

section

variable {source : String} {finding : Finding} (hkind : finding.kind.isBrace = false)

include hkind

/-- What is found on a line, and no brace, is found by the checks of the line. -/
theorem mem_inspect_iff_of_row {above below : List (List Char)} {raw : List Char}
    (h : Text.lines source.toList = above ++ raw :: below)
    (hrow : finding.start.row = above.length) :
    finding ∈ inspect source ↔
      finding ∈ (Line.trimmed above.length raw).findings (below.headD []) := by
  have habove : finding ∉ findingsOver raw 0 above := by
    intro hmem
    obtain ⟨-, hlt, -⟩ := row_of_mem_findingsOver hmem
    omega
  have hbelow : finding ∉ lineFindings (above.length + 1) below := by
    intro hmem
    obtain ⟨hle, -⟩ := row_of_mem_lineFindings hmem
    omega
  have hbrace : finding ∉ braceFindings (above ++ raw :: below) := by
    intro hmem
    rw [isBrace_of_mem_braceFindings hmem] at hkind
    cases hkind
  rw [inspect_eq h, List.mem_append, List.mem_append, List.mem_append, or_iff_right habove,
    or_iff_left (not_or.mpr ⟨hbelow, hbrace⟩)]

/-- A finding that is about no brace is found by the checks of some line. -/
theorem exists_lines_of_mem_inspect (h : finding ∈ inspect source) :
    ∃ above raw below, Text.lines source.toList = above ++ raw :: below ∧
      finding.start.row = above.length ∧
      finding ∈ (Line.trimmed above.length raw).findings (below.headD []) := by
  have hline : finding ∈ lineFindings 0 (Text.lines source.toList) := by
    refine (List.mem_append.mp h).resolve_right fun hmem => ?_
    rw [isBrace_of_mem_braceFindings hmem] at hkind
    cases hkind
  have hover := lineFindings_append 0 (Text.lines source.toList) []
  rw [List.append_nil, lineFindings, List.append_nil] at hover
  rw [hover] at hline
  obtain ⟨-, hlt, -⟩ := row_of_mem_findingsOver hline
  rw [Nat.zero_add] at hlt
  obtain ⟨above, below, hlines, hlength⟩ :=
    Text.exists_lines_around (List.getElem?_eq_getElem hlt)
  exact ⟨above, _, below, hlines, hlength.symm,
    (mem_inspect_iff_of_row hkind hlines hlength.symm).mp h⟩

end

/-! ## Findings of one kind -/

/-- The findings of a kind that are on a row, in the order of the inspection. -/
def findingsOn (kind : Finding.Kind) (row : Nat) (source : String) : List Finding :=
  (inspect source).filter fun finding => finding.kind = kind ∧ finding.start.row = row

/-- The findings of a kind on a line are those that the checks of the line come to. -/
theorem findingsOn_eq {kind : Finding.Kind} (hkind : kind.isBrace = false) {source : String}
    {above below : List (List Char)} {raw : List Char}
    (h : Text.lines source.toList = above ++ raw :: below) :
    findingsOn kind above.length source =
      ((Line.trimmed above.length raw).findings (below.headD [])).filter (·.kind = kind) := by
  have habove : (findingsOver raw 0 above).filter
      (fun finding => finding.kind = kind ∧ finding.start.row = above.length) = [] := by
    refine List.filter_eq_nil_iff.mpr fun finding hfinding => ?_
    obtain ⟨-, hlt, -⟩ := row_of_mem_findingsOver hfinding
    rw [decide_eq_true_iff]
    omega
  have hbelow : (lineFindings (above.length + 1) below).filter
      (fun finding => finding.kind = kind ∧ finding.start.row = above.length) = [] := by
    refine List.filter_eq_nil_iff.mpr fun finding hfinding => ?_
    obtain ⟨hle, -⟩ := row_of_mem_lineFindings hfinding
    rw [decide_eq_true_iff]
    omega
  have hbraces : (braceFindings (above ++ raw :: below)).filter
      (fun finding => finding.kind = kind ∧ finding.start.row = above.length) = [] := by
    refine List.filter_eq_nil_iff.mpr fun finding hfinding => ?_
    have hbrace := isBrace_of_mem_braceFindings hfinding
    rw [decide_eq_true_iff]
    rintro ⟨rfl, -⟩
    rw [hbrace] at hkind
    cases hkind
  rw [findingsOn, inspect_eq h, List.filter_append, List.filter_append, List.filter_append, habove,
    hbelow, hbraces, List.append_nil, List.append_nil, List.nil_append]
  refine List.filter_congr fun finding hfinding => ?_
  have hrow : finding.start.row = above.length := Line.row_of_mem_findings hfinding
  rw [hrow]
  simp only [and_true]

namespace Line

variable {line : Line} {next : List Char} {finding : Finding}

theorem kind_of_mem_commaFindings (h : finding ∈ line.commaFindings next) :
    finding.kind = .missingComma := by
  simp only [commaFindings] at h
  split at h
  · rw [List.mem_singleton.mp h]
    rfl
  · cases h

theorem kind_of_mem_parenthesisFindings (h : finding ∈ line.parenthesisFindings) :
    finding.kind = .missingCloseParen ∨ finding.kind = .missingOpenParen := by
  simp only [parenthesisFindings] at h
  split at h
  · rw [List.mem_singleton.mp h]
    exact .inl rfl
  · split at h
    · rw [List.mem_singleton.mp h]
      exact .inr rfl
    · cases h

theorem kind_of_mem_keyFindings (h : finding ∈ line.keyFindings) :
    finding.kind = .invalidKey := by
  obtain ⟨span, -, rfl⟩ := List.mem_map.mp h
  rfl

theorem kind_of_mem_wordFindings (h : finding ∈ line.wordFindings) :
    finding.kind = .unknownOperation := by
  obtain ⟨span, -, rfl⟩ := List.mem_map.mp h
  rfl

theorem filter_kind {findings : List Finding} {kind other : Finding.Kind}
    (h : ∀ finding ∈ findings, finding.kind = other) :
    findings.filter (·.kind = kind) = if other = kind then findings else [] := by
  split
  · next heq =>
    refine List.filter_eq_self.mpr fun finding hfinding => ?_
    rw [h finding hfinding, heq, decide_eq_true rfl]
  · next hne =>
    refine List.filter_eq_nil_iff.mpr fun finding hfinding => ?_
    rw [h finding hfinding, decide_eq_false hne]
    exact Bool.false_ne_true

/-- Each check of a line gives the findings of its own kinds. -/
theorem filter_findings (line : Line) (next : List Char) (kind : Finding.Kind) :
    (line.findings next).filter (·.kind = kind) =
      match kind with
      | .missingComma => line.commaFindings next
      | .missingCloseParen | .missingOpenParen => line.parenthesisFindings.filter (·.kind = kind)
      | .invalidKey => line.keyFindings
      | .unknownOperation => line.wordFindings
      | .missingOpenBrace | .missingClosingBrace => [] := by
  have hparenthesis : kind ≠ .missingCloseParen → kind ≠ .missingOpenParen →
      line.parenthesisFindings.filter (·.kind = kind) = [] := by
    intro hclose hopen
    refine List.filter_eq_nil_iff.mpr fun finding hfinding => ?_
    rw [decide_eq_true_iff]
    rintro rfl
    exact (kind_of_mem_parenthesisFindings hfinding).elim hclose hopen
  rw [findings, List.filter_append, List.filter_append, List.filter_append,
    filter_kind fun _ => kind_of_mem_commaFindings, filter_kind fun _ => kind_of_mem_keyFindings,
    filter_kind fun _ => kind_of_mem_wordFindings]
  cases kind <;> simp [hparenthesis]

end Line

end Summary
end TaintFlow
