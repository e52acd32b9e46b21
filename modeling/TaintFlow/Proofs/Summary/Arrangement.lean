/-
The findings of a text in order.

A finding has a place in the order of an inspection (`Finding.place`): findings of
lines come before missing braces, those of a line before those of the lines under it,
on a line the check decides, and then the column.  `inspect_arranged` says that the
places of the findings of a text increase strictly, and for each of the checks that
find one thing at most when they find it.

Each check lists its findings from left to right, because the keys and the words of a
line do not overlap; the checks of a line, the lines and the braces come one behind
the other.
-/
import Mathlib.Data.Prod.Lex
import TaintFlow.Proofs.Summary.Joins
import TaintFlow.Proofs.Summary.KeyPlaces
import TaintFlow.Proofs.Summary.WordPlaces

namespace TaintFlow
namespace Summary

/-! ## The order -/

namespace Finding

/-- The part of the order that a kind belongs to: the lines, the opening brace, or the
closing brace. -/
def Kind.part : Kind → Nat
  | missingOpenBrace => 1
  | missingClosingBrace => 2
  | _ => 0

/-- The place of a check among those of a line.  One check finds both sorts of
parentheses. -/
def Kind.check : Kind → Nat
  | missingComma => 0
  | missingCloseParen | missingOpenParen => 1
  | invalidKey => 2
  | unknownOperation => 3
  | missingOpenBrace | missingClosingBrace => 4

/-- The place of a finding in the order of an inspection. -/
def place (finding : Finding) : Nat ×ₗ Nat ×ₗ Nat ×ₗ Nat :=
  toLex (finding.kind.part, toLex (finding.start.row,
    toLex (finding.kind.check, finding.start.column)))

theorem place_lt_iff {first second : Finding} : first.place < second.place ↔
    first.kind.part < second.kind.part ∨ first.kind.part = second.kind.part ∧
      (first.start.row < second.start.row ∨ first.start.row = second.start.row ∧
        (first.kind.check < second.kind.check ∨ first.kind.check = second.kind.check ∧
          first.start.column < second.start.column)) := by
  simp only [place, Prod.Lex.toLex_lt_toLex]

theorem Kind.check_eq_zero_iff {kind : Kind} : kind.check = 0 ↔ kind = .missingComma := by
  cases kind <;> simp [check]

theorem Kind.check_eq_one_iff {kind : Kind} :
    kind.check = 1 ↔ kind = .missingCloseParen ∨ kind = .missingOpenParen := by
  cases kind <;> simp [check]

theorem Kind.part_eq_zero {kind : Kind} (h : kind.isBrace = false) : kind.part = 0 := by
  cases kind with
  | missingOpenBrace => cases h
  | missingClosingBrace => cases h
  | _ => rfl

theorem Kind.part_pos {kind : Kind} (h : kind.isBrace = true) : 0 < kind.part := by
  cases kind with
  | missingOpenBrace => exact Nat.succ_pos 0
  | missingClosingBrace => exact Nat.succ_pos 1
  | _ => cases h

end Finding

/-! ## One line -/

theorem eq_nil_or_singleton {α : Type} {as : List α} (h : as.length ≤ 1) :
    as = [] ∨ ∃ a, as = [a] := by
  cases as with
  | nil => exact .inl rfl
  | cons a as =>
    have hlength : as.length = 0 := Nat.le_zero.mp (Nat.le_of_succ_le_succ h)
    exact .inr ⟨a, congrArg (a :: ·) (List.eq_nil_of_length_eq_zero hlength)⟩

theorem pairwise_of_length_le_one {α : Type} {r : α → α → Prop} {as : List α}
    (h : as.length ≤ 1) : as.Pairwise r := by
  rcases eq_nil_or_singleton h with rfl | ⟨a, rfl⟩
  · exact .nil
  · exact List.pairwise_singleton r a

theorem eq_of_length_le_one {α : Type} {as : List α} (h : as.length ≤ 1) {a b : α}
    (ha : a ∈ as) (hb : b ∈ as) : a = b := by
  rcases eq_nil_or_singleton h with rfl | ⟨c, rfl⟩
  · cases ha
  · rw [List.mem_singleton.mp ha, List.mem_singleton.mp hb]

/-- Elements that are all one make up one element at most, if none comes twice. -/
theorem length_le_one_of_nodup {α : Type} {as : List α} (h : as.Nodup)
    (heq : ∀ a ∈ as, ∀ b ∈ as, a = b) : as.length ≤ 1 := by
  cases as with
  | nil => exact Nat.zero_le 1
  | cons a as =>
    cases as with
    | nil => exact Nat.le_refl 1
    | cons b as =>
      have hab : a = b := heq a List.mem_cons_self b (List.mem_cons_of_mem a List.mem_cons_self)
      exact absurd (hab ▸ List.mem_cons_self) (List.nodup_cons.mp h).1

namespace Line

variable {line : Line} {next : List Char} {first second : Finding}

theorem length_commaFindings_le (line : Line) (next : List Char) :
    (line.commaFindings next).length ≤ 1 := by
  simp only [commaFindings]
  split
  · exact Nat.le_refl 1
  · exact Nat.zero_le 1

theorem length_parenthesisFindings_le (line : Line) : line.parenthesisFindings.length ≤ 1 := by
  simp only [parenthesisFindings]
  split
  · exact Nat.le_refl 1
  · split
    · exact Nat.le_refl 1
    · exact Nat.zero_le 1

/-- On a line an earlier check comes first. -/
theorem place_lt_of_check (hfirst : first ∈ line.findings next)
    (hsecond : second ∈ line.findings next) (h : first.kind.check < second.kind.check) :
    first.place < second.place := by
  have hpart := Finding.Kind.part_eq_zero (isBrace_of_mem_findings hfirst)
  have hpart' := Finding.Kind.part_eq_zero (isBrace_of_mem_findings hsecond)
  have hrow := row_of_mem_findings hfirst
  have hrow' := row_of_mem_findings hsecond
  rw [Finding.place_lt_iff]
  omega

/-- Findings at spans come from left to right as the spans do. -/
theorem pairwise_spanFinding (line : Line) (kind : Finding.Kind) {spans : List Span}
    (h : spans.Pairwise fun left right => left.start < right.start) :
    (spans.map (line.spanFinding kind)).Pairwise fun first second =>
      first.place < second.place := by
  rw [List.pairwise_map]
  refine h.imp fun {left right} hlt => ?_
  rw [Finding.place_lt_iff]
  exact .inr ⟨rfl, .inr ⟨rfl, .inr ⟨rfl, Nat.add_lt_add_left hlt line.indent⟩⟩⟩

theorem pairwise_keyFindings (line : Line) :
    line.keyFindings.Pairwise fun first second => first.place < second.place := by
  have hspans : (keySpans line.text).Pairwise fun left right => left.start < right.start := by
    refine (pairwise_keySpans line.text).imp_of_mem fun {left right} hleft _ hle => ?_
    have hbounds := (isKey_of_mem_keySpans hleft).bounds
    omega
  exact pairwise_spanFinding line _ (hspans.filter _)

theorem pairwise_wordFindings (line : Line) :
    line.wordFindings.Pairwise fun first second => first.place < second.place := by
  have hspans : (wordSpans line.text).Pairwise fun left right => left.start < right.start := by
    refine (pairwise_wordSpans line.text).imp_of_mem fun {left right} hleft _ hlt => ?_
    have hbounds := (isWord_of_mem_wordSpans hleft).bounds
    omega
  exact pairwise_spanFinding line _ (hspans.filter _)

section

variable {finding : Finding}

theorem check_of_mem_commaFindings (h : finding ∈ line.commaFindings next) :
    finding.kind.check = 0 := by
  rw [kind_of_mem_commaFindings h]
  rfl

theorem check_of_mem_parenthesisFindings (h : finding ∈ line.parenthesisFindings) :
    finding.kind.check = 1 := by
  rcases kind_of_mem_parenthesisFindings h with hkind | hkind
  · rw [hkind]
    rfl
  · rw [hkind]
    rfl

theorem check_of_mem_keyFindings (h : finding ∈ line.keyFindings) : finding.kind.check = 2 := by
  rw [kind_of_mem_keyFindings h]
  rfl

theorem check_of_mem_wordFindings (h : finding ∈ line.wordFindings) :
    finding.kind.check = 3 := by
  rw [kind_of_mem_wordFindings h]
  rfl

end

/-- The findings of a line come in the order of the checks, and of one check from left
to right. -/
theorem pairwise_findings (line : Line) (next : List Char) :
    (line.findings next).Pairwise fun first second => first.place < second.place := by
  have hcheck : ∀ first ∈ line.findings next, ∀ second ∈ line.findings next,
      first.kind.check < second.kind.check → first.place < second.place :=
    fun first hfirst second hsecond => place_lt_of_check hfirst hsecond
  have hmem : ∀ finding, finding ∈ line.findings next ↔
      ((finding ∈ line.commaFindings next ∨ finding ∈ line.parenthesisFindings) ∨
        finding ∈ line.keyFindings) ∨ finding ∈ line.wordFindings := fun finding => by
    rw [findings, List.mem_append, List.mem_append, List.mem_append]
  rw [findings, List.pairwise_append, List.pairwise_append, List.pairwise_append]
  refine ⟨⟨⟨pairwise_of_length_le_one (line.length_commaFindings_le next),
      pairwise_of_length_le_one line.length_parenthesisFindings_le, ?_⟩,
    line.pairwise_keyFindings, ?_⟩, line.pairwise_wordFindings, ?_⟩
  · intro first hcomma second hparenthesis
    refine hcheck first ((hmem _).mpr (.inl (.inl (.inl hcomma)))) second
      ((hmem _).mpr (.inl (.inl (.inr hparenthesis)))) ?_
    rw [check_of_mem_commaFindings hcomma, check_of_mem_parenthesisFindings hparenthesis]
    exact Nat.zero_lt_one
  · intro first hfirst second hkey
    rw [List.mem_append] at hfirst
    refine hcheck first ((hmem _).mpr (.inl (.inl hfirst))) second
      ((hmem _).mpr (.inl (.inr hkey))) ?_
    rw [check_of_mem_keyFindings hkey]
    rcases hfirst with hcomma | hparenthesis
    · rw [check_of_mem_commaFindings hcomma]
      exact Nat.zero_lt_two
    · rw [check_of_mem_parenthesisFindings hparenthesis]
      exact Nat.one_lt_two
  · intro first hfirst second hword
    rw [List.mem_append, List.mem_append] at hfirst
    refine hcheck first ((hmem _).mpr (.inl hfirst)) second ((hmem _).mpr (.inr hword)) ?_
    rw [check_of_mem_wordFindings hword]
    rcases hfirst with (hcomma | hparenthesis) | hkey
    · rw [check_of_mem_commaFindings hcomma]
      omega
    · rw [check_of_mem_parenthesisFindings hparenthesis]
      omega
    · rw [check_of_mem_keyFindings hkey]
      omega

/-- Two findings of a check that finds one thing at most are one. -/
theorem eq_of_check (hfirst : first ∈ line.findings next) (hsecond : second ∈ line.findings next)
    (hcheck : first.kind.check = second.kind.check) (hle : first.kind.check ≤ 1) :
    first = second := by
  rcases Nat.le_one_iff_eq_zero_or_eq_one.mp hle with hzero | hone
  · have hkind := Finding.Kind.check_eq_zero_iff.mp hzero
    have hkind' := Finding.Kind.check_eq_zero_iff.mp (hcheck.symm.trans hzero)
    exact eq_of_length_le_one (line.length_commaFindings_le next)
      (mem_commaFindings_of_kind hfirst hkind) (mem_commaFindings_of_kind hsecond hkind')
  · have hkind := Finding.Kind.check_eq_one_iff.mp hone
    have hkind' := Finding.Kind.check_eq_one_iff.mp (hcheck.symm.trans hone)
    exact eq_of_length_le_one line.length_parenthesisFindings_le
      (mem_parenthesisFindings_of_kind hfirst hkind)
      (mem_parenthesisFindings_of_kind hsecond hkind')

end Line

/-! ## Many lines -/

theorem pairwise_lineFindings (row : Nat) (lines : List (List Char)) :
    (lineFindings row lines).Pairwise fun first second => first.place < second.place := by
  induction lines generalizing row with
  | nil => exact .nil
  | cons raw rest ih =>
    rw [lineFindings, List.pairwise_append]
    refine ⟨Line.pairwise_findings _ _, ih (row + 1), ?_⟩
    intro first hfirst second hsecond
    have hpart := Finding.Kind.part_eq_zero (Line.isBrace_of_mem_findings hfirst)
    have hrow : first.start.row = row := Line.row_of_mem_findings hfirst
    obtain ⟨hle, hbrace⟩ := row_of_mem_lineFindings hsecond
    have hpart' := Finding.Kind.part_eq_zero hbrace
    rw [Finding.place_lt_iff]
    omega

theorem length_missedBrace_le (brace : Char) (kind : Finding.Kind) (place : Position)
    (lines : List (List Char)) : (missedBrace brace kind place lines).length ≤ 1 := by
  rw [missedBrace]
  split
  · exact Nat.zero_le 1
  · exact Nat.le_refl 1

theorem pairwise_braceFindings (lines : List (List Char)) :
    (braceFindings lines).Pairwise fun first second => first.place < second.place := by
  rw [braceFindings_eq, List.pairwise_append]
  refine ⟨pairwise_of_length_le_one (length_missedBrace_le _ _ _ _),
    pairwise_of_length_le_one (length_missedBrace_le _ _ _ _), ?_⟩
  intro first hfirst second hsecond
  rw [(mem_missedBrace_iff.mp hfirst).1, (mem_missedBrace_iff.mp hsecond).1, Finding.place_lt_iff]
  exact .inl Nat.one_lt_two

/-- The findings of a text come in their order, each of them once. -/
theorem pairwise_inspect (source : String) :
    (inspect source).Pairwise fun first second => first.place < second.place := by
  refine List.pairwise_append.mpr ⟨pairwise_lineFindings 0 _, pairwise_braceFindings _, ?_⟩
  intro first hfirst second hsecond
  have hpart := Finding.Kind.part_eq_zero (row_of_mem_lineFindings hfirst).2
  have hpart' := Finding.Kind.part_pos (isBrace_of_mem_braceFindings hsecond)
  rw [Finding.place_lt_iff]
  omega

/-! ## Findings on a row -/

/-- Something of the kind is found on the row. -/
def FoundOn (kind : Finding.Kind) (row : Nat) (findings : List Finding) : Prop :=
  ∃ finding ∈ findings, finding.kind = kind ∧ finding.start.row = row

/-- A text has one comma missing on a row at most, and one parenthesis. -/
theorem eq_of_check_of_row {source : String} {first second : Finding}
    (hfirst : first ∈ inspect source) (hsecond : second ∈ inspect source)
    (hrow : first.start.row = second.start.row)
    (hcheck : first.kind.check = second.kind.check) (hle : first.kind.check ≤ 1) :
    first = second := by
  have hbrace : ∀ {kind : Finding.Kind}, kind.check ≤ 1 → kind.isBrace = false := by
    intro kind hle
    cases kind with
    | missingOpenBrace => exact absurd hle (by decide)
    | missingClosingBrace => exact absurd hle (by decide)
    | _ => rfl
  obtain ⟨above, raw, below, hlines, hplace, hfirst⟩ :=
    exists_lines_of_mem_inspect (hbrace hle) hfirst
  have hsecond := (mem_inspect_iff_of_row (hbrace (hcheck ▸ hle)) hlines
    (hrow.symm.trans hplace)).mp hsecond
  exact Line.eq_of_check hfirst hsecond hcheck hle

theorem foundOn_iff {kind : Finding.Kind} (hkind : kind.isBrace = false) {row : Nat}
    {source : String} : FoundOn kind row (inspect source) ↔
      ∃ above raw below, Text.lines source.toList = above ++ raw :: below ∧ above.length = row ∧
        ∃ finding ∈ (Line.trimmed row raw).findings (below.headD []), finding.kind = kind := by
  constructor
  · rintro ⟨finding, hfinding, rfl, rfl⟩
    obtain ⟨above, raw, below, hlines, hrow, hmem⟩ := exists_lines_of_mem_inspect hkind hfinding
    rw [← hrow] at hmem
    exact ⟨above, raw, below, hlines, hrow.symm, finding, hmem, rfl⟩
  · rintro ⟨above, raw, below, hlines, rfl, finding, hmem, rfl⟩
    have hrow : finding.start.row = above.length := Line.row_of_mem_findings hmem
    exact ⟨finding, (mem_inspect_iff_of_row hkind hlines hrow).mpr hmem, rfl, hrow⟩

theorem startsOperation_iff {text : List Char} :
    startsOperation text = true ↔ ∃ op : Operation, op.keyword.toList <+: text := by
  rw [startsOperation, List.any_eq_true]
  constructor
  · rintro ⟨keyword, hkeyword, hprefix⟩
    obtain ⟨op, -, rfl⟩ := List.mem_map.mp hkeyword
    exact ⟨op, List.isPrefixOf_iff_prefix.mp hprefix⟩
  · rintro ⟨op, hprefix⟩
    exact ⟨op.keyword.toList, op.keyword_mem, List.isPrefixOf_iff_prefix.mpr hprefix⟩

theorem foundOn_missingComma_iff {row : Nat} {source : String} :
    FoundOn .missingComma row (inspect source) ↔
      ∃ raw next, (Text.lines source.toList)[row]? = some raw ∧
        (Text.lines source.toList)[row + 1]? = some next ∧
        ')' ∈ Text.trim raw ∧ ',' ∉ Text.trim raw ∧ '\x7d' ∉ Text.trim raw ∧
        ∃ op : Operation, op.keyword.toList <+: Text.trim next := by
  have hclose : ∀ raw, ')' ∈ Text.trim raw ↔ ')' ∈ raw := fun _ => Text.mem_trim_iff (by decide)
  have hcomma : ∀ raw, ',' ∈ Text.trim raw ↔ ',' ∈ raw := fun _ => Text.mem_trim_iff (by decide)
  have hbrace : ∀ raw, '\x7d' ∈ Text.trim raw ↔ '\x7d' ∈ raw := fun _ =>
    Text.mem_trim_iff (by decide)
  rw [foundOn_iff rfl]
  constructor
  · rintro ⟨above, raw, below, hlines, rfl, finding, hmem, hkind⟩
    obtain ⟨⟨hparenthesis, hnone, hopen, hstarts⟩, -⟩ :=
      mem_commaFindings_trimmed.mp (Line.mem_commaFindings_of_kind hmem hkind)
    cases below with
    | nil => exact absurd hstarts (by decide)
    | cons next below =>
      rw [hlines, Text.getElem?_length_append, Text.getElem?_length_append_succ]
      exact ⟨raw, next, rfl, rfl, (hclose raw).mpr hparenthesis, mt (hcomma raw).mp hnone,
        mt (hbrace raw).mp hopen, startsOperation_iff.mp hstarts⟩
  · rintro ⟨raw, next, hraw, hnext, hparenthesis, hnone, hopen, hstarts⟩
    obtain ⟨above, below, hlines, rfl⟩ := Text.exists_lines_around hraw
    rw [hlines, Text.getElem?_length_append_succ] at hnext
    obtain ⟨rest, rfl⟩ := List.head?_eq_some_iff.mp hnext
    obtain ⟨finding, hmem⟩ : ∃ finding,
        finding ∈ (Line.trimmed above.length raw).commaFindings next :=
      ⟨_, mem_commaFindings_trimmed.mpr ⟨⟨(hclose raw).mp hparenthesis,
        mt (hcomma raw).mpr hnone, mt (hbrace raw).mpr hopen,
        startsOperation_iff.mpr hstarts⟩, rfl⟩⟩
    exact ⟨above, raw, next :: rest, hlines, rfl, finding, List.mem_append_left _
      (List.mem_append_left _ (List.mem_append_left _ hmem)),
      Line.kind_of_mem_commaFindings hmem⟩

/-- What is found about parentheses on a row is what the line of the row has too many
of. -/
theorem foundOn_parenthesis_iff {kind : Finding.Kind} {row : Nat} {source : String}
    (hkind : kind = .missingCloseParen ∨ kind = .missingOpenParen) :
    FoundOn kind row (inspect source) ↔
      ∃ raw, (Text.lines source.toList)[row]? = some raw ∧
        ∃ finding ∈ (Line.trimmed row raw).parenthesisFindings, finding.kind = kind := by
  have hbrace : kind.isBrace = false := by
    rcases hkind with rfl | rfl
    · rfl
    · rfl
  rw [foundOn_iff hbrace]
  constructor
  · rintro ⟨above, raw, below, hlines, rfl, finding, hmem, rfl⟩
    rw [hlines, Text.getElem?_length_append]
    exact ⟨raw, rfl, finding, Line.mem_parenthesisFindings_of_kind hmem hkind, rfl⟩
  · rintro ⟨raw, hraw, finding, hmem, rfl⟩
    obtain ⟨above, below, hlines, rfl⟩ := Text.exists_lines_around hraw
    exact ⟨above, raw, below, hlines, rfl, finding, List.mem_append_left _
      (List.mem_append_left _ (List.mem_append_right _ hmem)), rfl⟩

theorem foundOn_missingCloseParen_iff {row : Nat} {source : String} :
    FoundOn .missingCloseParen row (inspect source) ↔
      ∃ raw, (Text.lines source.toList)[row]? = some raw ∧ raw.count ')' < raw.count '(' := by
  rw [foundOn_parenthesis_iff (.inl rfl)]
  refine exists_congr fun raw => and_congr_right fun _ => ?_
  simp only [mem_parenthesisFindings_trimmed]
  constructor
  · rintro ⟨finding, ⟨hlt, -⟩ | ⟨-, rfl⟩, hkind⟩
    · exact hlt
    · cases hkind
  · exact fun hlt => ⟨_, .inl ⟨hlt, rfl⟩, rfl⟩

theorem foundOn_missingOpenParen_iff {row : Nat} {source : String} :
    FoundOn .missingOpenParen row (inspect source) ↔
      ∃ raw, (Text.lines source.toList)[row]? = some raw ∧ raw.count '(' < raw.count ')' := by
  rw [foundOn_parenthesis_iff (.inr rfl)]
  refine exists_congr fun raw => and_congr_right fun _ => ?_
  simp only [mem_parenthesisFindings_trimmed]
  constructor
  · rintro ⟨finding, ⟨-, rfl⟩ | ⟨hlt, -⟩, hkind⟩
    · cases hkind
    · exact hlt
  · exact fun hlt => ⟨_, .inr ⟨hlt, rfl⟩, rfl⟩

/-- A character is on no line when it is nowhere in the text. -/
theorem forall_lines_not_mem_iff {c : Char} (hc : c ≠ '\n') {text : List Char} :
    (∀ line ∈ Text.lines text, c ∉ line) ↔ c ∉ text := by
  constructor
  · intro h hmem
    obtain ⟨line, hline, hmem⟩ := Text.exists_mem_lines hc hmem
    exact h line hline hmem
  · exact fun h line hline hmem => h (Text.mem_of_mem_lines hline hmem)

/-! ## The whole list -/

/-- How the findings of a text are arranged, and when something of a kind that is not
about keys and words is among them. -/
structure Arranged (source : String) (findings : List Finding) : Prop where
  increasing : findings.Pairwise fun first second => first.place < second.place
  nodup : findings.Nodup
  one_comma : ∀ row, (findings.filter fun finding =>
    finding.kind = .missingComma ∧ finding.start.row = row).length ≤ 1
  one_parenthesis : ∀ row, (findings.filter fun finding =>
    (finding.kind = .missingCloseParen ∨ finding.kind = .missingOpenParen) ∧
      finding.start.row = row).length ≤ 1
  missingComma_iff : ∀ row, FoundOn .missingComma row findings ↔
    ∃ raw next, (Text.lines source.toList)[row]? = some raw ∧
      (Text.lines source.toList)[row + 1]? = some next ∧
      ')' ∈ Text.trim raw ∧ ',' ∉ Text.trim raw ∧ '\x7d' ∉ Text.trim raw ∧
      ∃ op : Operation, op.keyword.toList <+: Text.trim next
  missingCloseParen_iff : ∀ row, FoundOn .missingCloseParen row findings ↔
    ∃ raw, (Text.lines source.toList)[row]? = some raw ∧ raw.count ')' < raw.count '('
  missingOpenParen_iff : ∀ row, FoundOn .missingOpenParen row findings ↔
    ∃ raw, (Text.lines source.toList)[row]? = some raw ∧ raw.count '(' < raw.count ')'
  missingOpenBrace_iff :
    (∃ finding ∈ findings, finding.kind = .missingOpenBrace) ↔ '\x7b' ∉ source.toList
  missingClosingBrace_iff :
    (∃ finding ∈ findings, finding.kind = .missingClosingBrace) ↔ '\x7d' ∉ source.toList

theorem nodup_inspect (source : String) : (inspect source).Nodup := by
  refine (pairwise_inspect source).imp fun {first second} hlt heq => ?_
  rw [heq] at hlt
  exact lt_irrefl second.place hlt

/-- Of findings that are on one row and come from one check of these, there is one at
most. -/
theorem length_filter_inspect_le {source : String} {check : Nat} (hle : check ≤ 1)
    {chosen : Finding → Bool} (row : Nat)
    (hchosen : ∀ finding, chosen finding = true → finding.kind.check = check ∧
      finding.start.row = row) : ((inspect source).filter chosen).length ≤ 1 := by
  refine length_le_one_of_nodup ((nodup_inspect source).filter _) ?_
  intro first hfirst second hsecond
  obtain ⟨hfirst, hchoice⟩ := List.mem_filter.mp hfirst
  obtain ⟨hsecond, hchoice'⟩ := List.mem_filter.mp hsecond
  obtain ⟨hcheck, hrow⟩ := hchosen first hchoice
  obtain ⟨hcheck', hrow'⟩ := hchosen second hchoice'
  exact eq_of_check_of_row hfirst hsecond (hrow.trans hrow'.symm) (hcheck.trans hcheck'.symm)
    (hcheck ▸ hle)

/-- The findings of a text increase in their order, and so none comes twice.  A row has
one missing comma at most, and one missing parenthesis, and each kind but those of keys
and words is found exactly where the text calls for it. -/
theorem inspect_arranged (source : String) : Arranged source (inspect source) where
  increasing := pairwise_inspect source
  nodup := nodup_inspect source
  one_comma row := by
    refine length_filter_inspect_le (Nat.zero_le 1) row fun finding hchosen => ?_
    obtain ⟨hkind, hrow⟩ := of_decide_eq_true hchosen
    exact ⟨Finding.Kind.check_eq_zero_iff.mpr hkind, hrow⟩
  one_parenthesis row := by
    refine length_filter_inspect_le (Nat.le_refl 1) row fun finding hchosen => ?_
    obtain ⟨hkind, hrow⟩ := of_decide_eq_true hchosen
    exact ⟨Finding.Kind.check_eq_one_iff.mpr hkind, hrow⟩
  missingComma_iff _ := foundOn_missingComma_iff
  missingCloseParen_iff _ := foundOn_missingCloseParen_iff
  missingOpenParen_iff _ := foundOn_missingOpenParen_iff
  missingOpenBrace_iff :=
    (misses_openBrace_iff source).trans (forall_lines_not_mem_iff (by decide))
  missingClosingBrace_iff :=
    (misses_closingBrace_iff source).trans (forall_lines_not_mem_iff (by decide))

end Summary
end TaintFlow
