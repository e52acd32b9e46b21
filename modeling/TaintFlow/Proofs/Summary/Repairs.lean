/-
Adding what is missed, where it is missed.

A finding about a comma, a parenthesis or a brace names a mark to be added.  Put
at the place that the finding starts at, the mark takes this finding away and
leaves the others: their kinds, their rows and their order
(`topics_inspect_repaired`).  With parentheses it is one step of several when more
than one is missed, and a closing parenthesis can be what a line lacked to be an
operation with no comma behind it.
-/
import TaintFlow.Proofs.Summary.Topics
import TaintFlow.Summary.Suggestion

namespace TaintFlow
namespace Summary

namespace Finding

/-- The mark that a finding of the kind says to add. -/
def Kind.mark : Kind → Option Char
  | missingComma => some ','
  | missingCloseParen => some ')'
  | missingOpenParen => some '('
  | missingOpenBrace => some '\x7b'
  | missingClosingBrace => some '\x7d'
  | invalidKey | unknownOperation => none

/-- The text with the mark at the place where the finding starts. -/
def repaired (finding : Finding) (source : String) : String :=
  match finding.kind.mark with
  | some c => Text.insertAt finding.start.row finding.start.column c source
  | none => source

end Finding

/-! ## Topics of one kind -/

section

variable {kind : Finding.Kind} (place row : Nat) (raw : List Char)

theorem not_mem_commaTopics (h : kind ≠ .missingComma) (next : List Char) :
    (kind, place) ∉ commaTopics row raw next := by
  intro hmem
  rw [commaTopics] at hmem
  split at hmem
  · exact h (congrArg Prod.fst (List.mem_singleton.mp hmem))
  · cases hmem

theorem not_mem_parenthesisTopics (h : kind ∉ [.missingCloseParen, .missingOpenParen]) :
    (kind, place) ∉ parenthesisTopics row raw := by
  simp only [List.mem_cons, List.not_mem_nil, or_false, not_or] at h
  intro hmem
  rw [parenthesisTopics] at hmem
  split at hmem
  · exact h.1 (congrArg Prod.fst (List.mem_singleton.mp hmem))
  · split at hmem
    · exact h.2 (congrArg Prod.fst (List.mem_singleton.mp hmem))
    · cases hmem

theorem not_mem_tokenTopics (h : kind ∉ [.invalidKey, .unknownOperation]) :
    (kind, place) ∉ tokenTopics row raw := by
  simp only [List.mem_cons, List.not_mem_nil, or_false, not_or] at h
  intro hmem
  rcases List.mem_append.mp hmem with hmem | hmem
  · exact h.1 (congrArg Prod.fst (List.eq_of_mem_replicate hmem))
  · exact h.2 (congrArg Prod.fst (List.eq_of_mem_replicate hmem))

end

/-! ## One more mark on a line -/

section

variable {front back : List Char} {c : Char} (row : Nat)

theorem mem_append_cons_of_ne {d : Char} (hd : c ≠ d) :
    d ∈ front ++ c :: back ↔ d ∈ front ++ back :=
  List.perm_middle.mem_iff.trans (List.mem_cons.trans (or_iff_right (Ne.symm hd)))

theorem count_append_cons_of_ne {d : Char} (hd : c ≠ d) :
    (front ++ c :: back).count d = (front ++ back).count d :=
  (List.perm_middle.count_eq d).trans (List.count_cons_of_ne hd)

theorem count_append_cons_self : (front ++ c :: back).count c = (front ++ back).count c + 1 :=
  (List.perm_middle.count_eq c).trans List.count_cons_self

theorem parenthesisTopics_append_cons (hopen : c ≠ '(') (hclose : c ≠ ')') :
    parenthesisTopics row (front ++ c :: back) = parenthesisTopics row (front ++ back) := by
  rw [parenthesisTopics, parenthesisTopics, count_append_cons_of_ne hopen,
    count_append_cons_of_ne hclose]

theorem commaTopics_append_cons (hclose : c ≠ ')') (hcomma : c ≠ ',') (hbrace : c ≠ '\x7d')
    (next : List Char) :
    commaTopics row (front ++ c :: back) next = commaTopics row (front ++ back) next := by
  simp only [commaTopics, mem_append_cons_of_ne hclose, mem_append_cons_of_ne hcomma,
    mem_append_cons_of_ne hbrace]

/-- Under the last line no operation starts. -/
theorem commaTopics_nil (raw : List Char) : commaTopics row raw [] = [] :=
  if_neg fun h => absurd h.2.2.2 (by decide)

/-- A closing parenthesis can leave a line lacking a comma that lacked none before. -/
theorem commaTopics_append_close (front back next : List Char) :
    commaTopics row (front ++ ')' :: back) next = commaTopics row (front ++ back) next ++
      if ')' ∉ front ++ back ∧ ',' ∉ front ++ back ∧ '\x7d' ∉ front ++ back ∧
          startsOperation (Text.trim next) = true then
        [(.missingComma, row)]
      else [] := by
  have hclose : ')' ∈ front ++ ')' :: back := List.mem_append_right _ List.mem_cons_self
  have hcomma : ',' ∈ front ++ ')' :: back ↔ ',' ∈ front ++ back :=
    mem_append_cons_of_ne (by decide)
  have hbrace : '\x7d' ∈ front ++ ')' :: back ↔ '\x7d' ∈ front ++ back :=
    mem_append_cons_of_ne (by decide)
  simp only [commaTopics, hcomma, hbrace]
  by_cases hmem : ')' ∈ front ++ back
  · simp only [hclose, hmem, not_true_eq_false, false_and, if_false, List.append_nil]
  · simp only [hclose, hmem, not_false_eq_true, false_and, true_and, if_false, List.nil_append]

theorem parenthesisTopics_append_close
    (h : (front ++ back).count ')' < (front ++ back).count '(') :
    parenthesisTopics row (front ++ ')' :: back) =
      if (front ++ back).count '(' = (front ++ back).count ')' + 1 then []
      else [(.missingCloseParen, row)] := by
  rw [parenthesisTopics, count_append_cons_self, count_append_cons_of_ne (by decide)]
  by_cases hone : (front ++ back).count '(' = (front ++ back).count ')' + 1
  · rw [if_pos hone, if_neg (by omega), if_neg (by omega)]
  · rw [if_neg hone, if_pos (by omega)]

theorem parenthesisTopics_append_open
    (h : (front ++ back).count '(' < (front ++ back).count ')') :
    parenthesisTopics row (front ++ '(' :: back) =
      if (front ++ back).count ')' = (front ++ back).count '(' + 1 then []
      else [(.missingOpenParen, row)] := by
  rw [parenthesisTopics, count_append_cons_self, count_append_cons_of_ne (by decide)]
  by_cases hone : (front ++ back).count ')' = (front ++ back).count '(' + 1
  · rw [if_pos hone, if_neg (by omega), if_neg (by omega)]
  · rw [if_neg hone, if_neg (by omega), if_pos (by omega)]

theorem missedBrace_append_cons_self (kind : Finding.Kind) (place : Position)
    (above below : List (List Char)) :
    missedBrace c kind place (above ++ (front ++ c :: back) :: below) = [] :=
  missedBrace_of_mem (List.mem_append_right _ List.mem_cons_self)
    (List.mem_append_right _ List.mem_cons_self)

/-- Another mark on a line leaves open whether a brace is missed. -/
theorem topics_missedBrace_append_cons {brace : Char} (hbrace : c ≠ brace) (kind : Finding.Kind)
    {place other : Position} (hrow : place.row = other.row) (above below : List (List Char)) :
    topics (missedBrace brace kind place (above ++ (front ++ c :: back) :: below)) =
      topics (missedBrace brace kind other (above ++ (front ++ back) :: below)) := by
  rw [missedBrace_congr (mem_append_cons_of_ne hbrace), topics_missedBrace, topics_missedBrace,
    hrow]

theorem topics_braceFindings_append_cons (hopen : c ≠ '\x7b') (hclose : c ≠ '\x7d')
    (above below : List (List Char)) :
    topics (braceFindings (above ++ (front ++ c :: back) :: below)) =
      topics (braceFindings (above ++ (front ++ back) :: below)) := by
  have hrow : (textEnd (above ++ (front ++ c :: back) :: below)).row =
      (textEnd (above ++ (front ++ back) :: below)).row := by
    rw [textEnd_eq, textEnd_eq]
  rw [braceFindings_eq, braceFindings_eq, topics_append, topics_append,
    topics_missedBrace_append_cons hopen _ rfl, topics_missedBrace_append_cons hclose _ hrow]

end

/-! ## One more mark in a text -/

section

variable {findings : List Finding} {finding : Finding}

theorem not_mem_topics_of_row (h : ∀ other ∈ findings, other.start.row ≠ finding.start.row) :
    finding.topic ∉ topics findings := by
  intro hmem
  obtain ⟨other, hother, htopic⟩ := List.mem_map.mp hmem
  exact h other hother (congrArg Prod.snd htopic)

theorem not_mem_topics_of_kind (h : ∀ other ∈ findings, other.kind ≠ finding.kind) :
    finding.topic ∉ topics findings := by
  intro hmem
  obtain ⟨other, hother, htopic⟩ := List.mem_map.mp hmem
  exact h other hother (congrArg Prod.fst htopic)

theorem not_mem_topics_of_isBrace (h : ∀ other ∈ findings, other.kind.isBrace = false)
    (hkind : finding.kind.isBrace = true) : finding.topic ∉ topics findings := by
  refine not_mem_topics_of_kind fun other hother hsame => ?_
  rw [← hsame, h other hother] at hkind
  cases hkind

end

/-- The topics of a list tell where one is that occurs once. -/
theorem topics_around {before behind : List Finding} {finding : Finding}
    {first second : List (Finding.Kind × Nat)}
    (h : topics (before ++ finding :: behind) = first ++ finding.topic :: second)
    (hfirst : finding.topic ∉ first) (hsecond : finding.topic ∉ second) :
    topics before = first ∧ topics behind = second := by
  rw [topics_append] at h
  obtain ⟨hbefore, -, hbehind⟩ := (List.append_cons_inj_of_notMem hfirst hsecond).mp h.symm
  exact ⟨hbefore.symm, hbehind.symm⟩

section

variable {source : String} {above below : List (List Char)} {front back : List Char} {c : Char}
  (hlines : Text.lines source.toList = above ++ (front ++ back) :: below)

include hlines

/-- A mark that is no part of a key or of a word changes the topics of its line
and whether a brace is missed. -/
theorem topics_insertAt (hc : c ≠ '\n')
    (hstarts : above ≠ [] → startsOperation (Text.trim (front ++ c :: back)) =
      startsOperation (Text.trim (front ++ back))) :
    topics (inspect (Text.insertAt above.length front.length c source)) =
      topics (findingsOver (front ++ back) 0 above) ++
        (lineTopics above.length (front ++ c :: back) (below.headD []) ++
          (topics (lineFindings (above.length + 1) below) ++
            topics (braceFindings (above ++ (front ++ c :: back) :: below)))) := by
  have habove : findingsOver (front ++ c :: back) 0 above =
      findingsOver (front ++ back) 0 above := by
    cases above with
    | nil => rfl
    | cons line above => exact findingsOver_congr (hstarts (List.cons_ne_nil _ _)) 0 _
  rw [topics_inspect (Text.lines_insertAt hlines hc), habove]

/-- Where a finding about a line is among the topics, and what stands there when
the line has one more mark. -/
theorem topics_insertAt_of_line {before behind : List Finding} {finding : Finding}
    (h : inspect source = before ++ finding :: behind) (hrow : finding.start.row = above.length)
    (hkind : finding.kind.isBrace = false) {first middle second : List (Finding.Kind × Nat)}
    (hline : lineTopics above.length (front ++ back) (below.headD []) =
      first ++ finding.topic :: second)
    (hfirst : finding.topic ∉ first) (hsecond : finding.topic ∉ second)
    (hedited : lineTopics above.length (front ++ c :: back) (below.headD []) =
      first ++ (middle ++ second))
    (hc : c ∉ ['\n', '\x7b', '\x7d'])
    (hstarts : startsOperation (Text.trim (front ++ c :: back)) =
      startsOperation (Text.trim (front ++ back))) :
    topics (inspect (Text.insertAt above.length front.length c source)) =
      topics before ++ (middle ++ topics behind) := by
  -- the row tells the finding from those of other lines, the kind from missing braces
  have habove : finding.topic ∉ topics (findingsOver (front ++ back) 0 above) := by
    refine not_mem_topics_of_row fun other hother => ?_
    obtain ⟨-, hlt, -⟩ := row_of_mem_findingsOver hother
    omega
  have hbelow : finding.topic ∉ topics (lineFindings (above.length + 1) below) := by
    refine not_mem_topics_of_row fun other hother => ?_
    obtain ⟨hle, -⟩ := row_of_mem_lineFindings hother
    omega
  have hbrace : finding.topic ∉ topics (braceFindings (above ++ (front ++ back) :: below)) := by
    refine not_mem_topics_of_kind fun other hother hsame => ?_
    rw [← hsame, isBrace_of_mem_braceFindings hother] at hkind
    cases hkind
  have hall := topics_inspect hlines
  rw [h, hline, List.append_assoc, List.cons_append, ← List.append_assoc] at hall
  obtain ⟨hbefore, hbehind⟩ := topics_around hall
    (fun hmem => (List.mem_append.mp hmem).elim habove hfirst)
    (fun hmem => (List.mem_append.mp hmem).elim hsecond fun hmem =>
      (List.mem_append.mp hmem).elim hbelow hbrace)
  simp only [List.mem_cons, List.not_mem_nil, or_false, not_or] at hc
  rw [topics_insertAt hlines hc.1 fun _ => hstarts, hedited,
    topics_braceFindings_append_cons hc.2.1 hc.2.2, hbefore, hbehind]
  simp only [List.append_assoc]

/-- The topic of the parentheses of a line comes behind that of its comma and in
front of those of its keys and words. -/
theorem topics_insertAt_of_parenthesis {before behind : List Finding} {finding : Finding}
    (h : inspect source = before ++ finding :: behind) (hrow : finding.start.row = above.length)
    (hkind : finding.kind = .missingCloseParen ∨ finding.kind = .missingOpenParen)
    {commas : List (Finding.Kind × Nat)}
    (hparens : parenthesisTopics above.length (front ++ back) = [finding.topic])
    (hcommas : commaTopics above.length (front ++ c :: back) (below.headD []) =
      commaTopics above.length (front ++ back) (below.headD []) ++ commas)
    (htokens : tokenTopics above.length (front ++ c :: back) =
      tokenTopics above.length (front ++ back))
    (hc : c ∉ ['\n', '\x7b', '\x7d'])
    (hstarts : startsOperation (Text.trim (front ++ c :: back)) =
      startsOperation (Text.trim (front ++ back))) :
    topics (inspect (Text.insertAt above.length front.length c source)) = topics before ++
      (commas ++ parenthesisTopics above.length (front ++ c :: back) ++ topics behind) := by
  have hbrace : finding.kind.isBrace = false := by
    rcases hkind with hkind | hkind <;> rw [hkind] <;> rfl
  have hfirst : finding.topic ∉ commaTopics above.length (front ++ back) (below.headD []) := by
    refine not_mem_commaTopics _ _ _ ?_ _
    rcases hkind with hkind | hkind <;> rw [hkind] <;> decide
  have hsecond : finding.topic ∉ tokenTopics above.length (front ++ back) := by
    refine not_mem_tokenTopics _ _ _ ?_
    rcases hkind with hkind | hkind <;> rw [hkind] <;> decide
  have hline : lineTopics above.length (front ++ back) (below.headD []) =
      commaTopics above.length (front ++ back) (below.headD []) ++
        finding.topic :: tokenTopics above.length (front ++ back) := by
    rw [lineTopics, hparens]
    rfl
  refine topics_insertAt_of_line hlines h hrow hbrace hline hfirst hsecond ?_ hc hstarts
  rw [lineTopics, hcommas, htokens, List.append_assoc, List.append_assoc]

/-- Where a finding about a brace is among the topics, and what stands there when
the brace is no longer missed. -/
theorem topics_insertAt_of_brace {before behind : List Finding} {finding : Finding}
    (h : inspect source = before ++ finding :: behind) (hkind : finding.kind.isBrace = true)
    (hline : lineTopics above.length (front ++ c :: back) (below.headD []) =
      lineTopics above.length (front ++ back) (below.headD []))
    {first second : List (Finding.Kind × Nat)}
    (hbraces : topics (braceFindings (above ++ (front ++ back) :: below)) =
      first ++ finding.topic :: second)
    (hfirst : finding.topic ∉ first) (hsecond : finding.topic ∉ second)
    (hedited : topics (braceFindings (above ++ (front ++ c :: back) :: below)) = first ++ second)
    (hc : c ≠ '\n')
    (hstarts : above ≠ [] → startsOperation (Text.trim (front ++ c :: back)) =
      startsOperation (Text.trim (front ++ back))) :
    topics (inspect (Text.insertAt above.length front.length c source)) =
      topics before ++ topics behind := by
  have habove : finding.topic ∉ topics (findingsOver (front ++ back) 0 above) :=
    not_mem_topics_of_isBrace (fun _ hother => (row_of_mem_findingsOver hother).2.2) hkind
  have hraw : finding.topic ∉
      topics ((Line.trimmed above.length (front ++ back)).findings (below.headD [])) :=
    not_mem_topics_of_isBrace (fun _ => Line.isBrace_of_mem_findings) hkind
  have hbelow : finding.topic ∉ topics (lineFindings (above.length + 1) below) :=
    not_mem_topics_of_isBrace (fun _ hother => (row_of_mem_lineFindings hother).2) hkind
  rw [topics_findings] at hraw
  have hall := topics_inspect hlines
  rw [h, hbraces, ← List.append_assoc, ← List.append_assoc, ← List.append_assoc] at hall
  have hfront : finding.topic ∉ topics (findingsOver (front ++ back) 0 above) ++
      lineTopics above.length (front ++ back) (below.headD []) ++
      topics (lineFindings (above.length + 1) below) ++ first := by
    simp only [List.mem_append, not_or]
    exact ⟨⟨⟨habove, hraw⟩, hbelow⟩, hfirst⟩
  obtain ⟨hbefore, hbehind⟩ := topics_around hall hfront hsecond
  rw [topics_insertAt hlines hc hstarts, hline, hedited, hbefore, hbehind]
  simp only [List.append_assoc]

end

/-! ## The mark of a finding -/

theorem exists_append_lineEnd (row : Nat) (raw : List Char) :
    ∃ front back, raw = front ++ back ∧ (∀ c ∈ back, Text.isBlank c = true) ∧
      lineEnd row raw = ⟨row, front.length⟩ := by
  obtain ⟨back, hraw, hback⟩ := Text.exists_trimEnd_append raw
  exact ⟨Text.trimEnd raw, back, hraw.symm, hback, rfl⟩

/-- A mark in front of the blanks at the end of a line does not change how the
line starts. -/
theorem startsOperation_trim_mark {c : Char} (hc : c.isAlpha = false)
    (hblank : Text.isBlank c = false) {back : List Char} (hback : ∀ c ∈ back, Text.isBlank c = true)
    (front : List Char) : startsOperation (Text.trim (front ++ c :: back)) =
      startsOperation (Text.trim (front ++ back)) := by
  rw [startsOperation_trim_append_cons hc hblank, Text.trim_append_blanks hback]

theorem Finding.repaired_eq {finding : Finding} {c : Char} (h : finding.kind.mark = some c)
    (source : String) : finding.repaired source =
      Text.insertAt finding.start.row finding.start.column c source := by
  rw [repaired, h]

section

variable {source : String} {before behind : List Finding} {finding : Finding}
  (h : inspect source = before ++ finding :: behind)

include h

theorem mem_inspect_of_eq : finding ∈ inspect source := by
  rw [h]
  exact List.mem_append_right _ List.mem_cons_self

theorem topics_with_comma (hkind : finding.kind = .missingComma) :
    topics (inspect (finding.repaired source)) = topics before ++ topics behind := by
  have hbrace : finding.kind.isBrace = false := by
    rw [hkind]
    rfl
  obtain ⟨above, raw, below, hlines, hrow, hmem⟩ :=
    exists_lines_of_mem_inspect hbrace (mem_inspect_of_eq h)
  obtain ⟨hcond, hfinding⟩ :=
    mem_commaFindings_trimmed.mp (Line.mem_commaFindings_of_kind hmem hkind)
  obtain ⟨front, back, rfl, hback, hend⟩ := exists_append_lineEnd above.length raw
  have hstart : finding.start = ⟨above.length, front.length⟩ := by
    rw [hfinding, ← hend]
    rfl
  have htopic : finding.topic = (.missingComma, above.length) := Prod.ext hkind hrow
  have hline : lineTopics above.length (front ++ back) (below.headD []) =
      [] ++ finding.topic :: (parenthesisTopics above.length (front ++ back) ++
        tokenTopics above.length (front ++ back)) := by
    rw [lineTopics, commaTopics, if_pos hcond, htopic]
    rfl
  have hedited : lineTopics above.length (front ++ ',' :: back) (below.headD []) =
      [] ++ ([] ++ (parenthesisTopics above.length (front ++ back) ++
        tokenTopics above.length (front ++ back))) := by
    have hthere : ',' ∈ front ++ ',' :: back := List.mem_append_right _ List.mem_cons_self
    rw [lineTopics, commaTopics, if_neg fun hcond => hcond.2.1 hthere,
      parenthesisTopics_append_cons _ (by decide) (by decide),
      tokenTopics_append_cons_of_blank _ (by decide) (by decide) hback]
    rfl
  have hsecond : finding.topic ∉ parenthesisTopics above.length (front ++ back) ++
      tokenTopics above.length (front ++ back) := by
    rw [htopic, List.mem_append, not_or]
    exact ⟨not_mem_parenthesisTopics _ _ _ (by decide), not_mem_tokenTopics _ _ _ (by decide)⟩
  rw [Finding.repaired_eq (c := ',') (by rw [hkind]; rfl), hstart]
  exact topics_insertAt_of_line hlines h hrow hbrace hline List.not_mem_nil hsecond hedited
    (by decide) (startsOperation_trim_mark (by decide) (by decide) hback front)

theorem topics_with_closeParen (hkind : finding.kind = .missingCloseParen) :
    let raw := (Text.lines source.toList).getD finding.start.row []
    let next := (Text.lines source.toList).getD (finding.start.row + 1) []
    topics (inspect (finding.repaired source)) = topics before ++
      (((if ')' ∉ raw ∧ ',' ∉ raw ∧ '\x7d' ∉ raw ∧ startsOperation (Text.trim next) = true then
          [(.missingComma, finding.start.row)] else []) ++
        if raw.count '(' = raw.count ')' + 1 then [] else [finding.topic]) ++ topics behind) := by
  have hbrace : finding.kind.isBrace = false := by
    rw [hkind]
    rfl
  obtain ⟨above, raw, below, hlines, hrow, hmem⟩ :=
    exists_lines_of_mem_inspect hbrace (mem_inspect_of_eq h)
  have hparenthesis := mem_parenthesisFindings_trimmed.mp
    (Line.mem_parenthesisFindings_of_kind hmem (.inl hkind))
  obtain ⟨hlt, hfinding⟩ := hparenthesis.resolve_right fun hopen => by
    rw [hopen.2] at hkind
    cases hkind
  obtain ⟨front, back, rfl, hback, hend⟩ := exists_append_lineEnd above.length raw
  have hstart : finding.start = ⟨above.length, front.length⟩ := by
    rw [hfinding, ← hend]
    rfl
  have htopic : finding.topic = (.missingCloseParen, above.length) := Prod.ext hkind hrow
  have hparens : parenthesisTopics above.length (front ++ back) = [finding.topic] := by
    rw [parenthesisTopics, if_pos hlt, htopic]
  have hrepair := topics_insertAt_of_parenthesis hlines h hrow (.inl hkind) hparens
    (commaTopics_append_close above.length front back _)
    (tokenTopics_append_cons_of_blank _ (by decide) (by decide) hback) (by decide)
    (startsOperation_trim_mark (by decide) (by decide) hback front)
  rw [parenthesisTopics_append_close _ hlt, ← htopic] at hrepair
  rw [hlines, hrow, Text.getD_length_append, Text.getD_length_append_succ,
    Finding.repaired_eq (c := ')') (by rw [hkind]; rfl), hstart]
  exact hrepair

theorem topics_with_openParen (hkind : finding.kind = .missingOpenParen) :
    let raw := (Text.lines source.toList).getD finding.start.row []
    topics (inspect (finding.repaired source)) =
      if raw.count ')' = raw.count '(' + 1 then topics before ++ topics behind
      else topics (inspect source) := by
  have hbrace : finding.kind.isBrace = false := by
    rw [hkind]
    rfl
  obtain ⟨above, raw, below, hlines, hrow, hmem⟩ :=
    exists_lines_of_mem_inspect hbrace (mem_inspect_of_eq h)
  have hparenthesis := mem_parenthesisFindings_trimmed.mp
    (Line.mem_parenthesisFindings_of_kind hmem (.inr hkind))
  obtain ⟨hlt, hfinding⟩ := hparenthesis.resolve_left fun hclose => by
    rw [hclose.2] at hkind
    cases hkind
  obtain ⟨front, back, rfl, -, hindex⟩ :=
    exists_append_idxOf (List.count_pos_iff.mp (Nat.zero_lt_of_lt hlt))
  have hstart : finding.start = ⟨above.length, front.length⟩ := by
    rw [hfinding, ← hindex]
    rfl
  have htopic : finding.topic = (.missingOpenParen, above.length) := Prod.ext hkind hrow
  have hparens : parenthesisTopics above.length (front ++ ')' :: back) = [finding.topic] := by
    rw [parenthesisTopics, if_neg (Nat.lt_asymm hlt), if_pos hlt, htopic]
  have hcommas : commaTopics above.length (front ++ '(' :: ')' :: back) (below.headD []) =
      commaTopics above.length (front ++ ')' :: back) (below.headD []) ++ [] := by
    rw [commaTopics_append_cons _ (by decide) (by decide) (by decide), List.append_nil]
  have hstarts : startsOperation (Text.trim (front ++ '(' :: ')' :: back)) =
      startsOperation (Text.trim (front ++ ')' :: back)) := by
    rw [startsOperation_trim_append_cons (by decide) (by decide),
      startsOperation_trim_append_cons (by decide) (by decide)]
  have hrepair := topics_insertAt_of_parenthesis hlines h hrow (.inr hkind) hparens hcommas
    (tokenTopics_parentheses _) (by decide) hstarts
  rw [parenthesisTopics_append_open _ hlt, ← htopic, List.nil_append] at hrepair
  rw [Finding.repaired_eq (c := '(') (by rw [hkind]; rfl), hstart, hrepair, hlines,
    Text.getD_length_append]
  by_cases hone : (front ++ ')' :: back).count ')' = (front ++ ')' :: back).count '(' + 1
  · rw [if_pos hone]
    exact (if_pos hone).symm
  · rw [if_neg hone, h, topics_append]
    exact (if_neg hone).symm

theorem mem_braceFindings_of_kind (hkind : finding.kind.isBrace = true) :
    finding ∈ braceFindings (Text.lines source.toList) := by
  refine (List.mem_append.mp (mem_inspect_of_eq h)).resolve_left fun hmem => ?_
  rw [(row_of_mem_lineFindings hmem).2] at hkind
  cases hkind

theorem topics_with_openBrace (hkind : finding.kind = .missingOpenBrace) :
    topics (inspect (finding.repaired source)) = topics before ++ topics behind := by
  have hbrace : finding.kind.isBrace = true := by
    rw [hkind]
    rfl
  obtain ⟨raw, below, hlines⟩ :=
    List.exists_cons_of_ne_nil (List.splitOn_ne_nil '\n' source.toList)
  have hlines : Text.lines source.toList = [] ++ ([] ++ raw) :: below := hlines
  have hmem := mem_braceFindings_of_kind h hbrace
  rw [hlines, braceFindings_eq, List.mem_append, mem_missedBrace_iff, mem_missedBrace_iff] at hmem
  obtain ⟨hfinding, hnone⟩ := hmem.resolve_right fun hclosing => by
    rw [hclosing.1] at hkind
    cases hkind
  have hline : lineTopics 0 ([] ++ '\x7b' :: raw) (below.headD []) =
      lineTopics 0 ([] ++ raw) (below.headD []) := by
    have htokens : tokenTopics 0 ([] ++ '\x7b' :: raw) = tokenTopics 0 ([] ++ raw) :=
      tokenTopics_cons 0 (by decide) (by decide) (by decide) raw
    rw [lineTopics, lineTopics, commaTopics_append_cons _ (by decide) (by decide) (by decide),
      parenthesisTopics_append_cons _ (by decide) (by decide), htokens]
  have hclosing : finding.topic ∉ topics (missedBrace '\x7d' .missingClosingBrace
      (textEnd ([] ++ ([] ++ raw) :: below)) ([] ++ ([] ++ raw) :: below)) := by
    refine not_mem_topics_of_kind fun other hother => ?_
    rw [hkind, (mem_missedBrace_iff.mp hother).1]
    exact nofun
  have hbraces : topics (braceFindings ([] ++ ([] ++ raw) :: below)) =
      [] ++ finding.topic :: topics (missedBrace '\x7d' .missingClosingBrace
        (textEnd ([] ++ ([] ++ raw) :: below)) ([] ++ ([] ++ raw) :: below)) := by
    rw [braceFindings_eq, missedBrace_of_not_mem hnone, ← hfinding]
    rfl
  have hedited : topics (braceFindings ([] ++ ([] ++ '\x7b' :: raw) :: below)) =
      [] ++ topics (missedBrace '\x7d' .missingClosingBrace
        (textEnd ([] ++ ([] ++ raw) :: below)) ([] ++ ([] ++ raw) :: below)) := by
    have hrow : (textEnd ([] ++ ([] ++ '\x7b' :: raw) :: below)).row =
        (textEnd ([] ++ ([] ++ raw) :: below)).row := by
      rw [textEnd_eq, textEnd_eq]
    rw [braceFindings_eq, missedBrace_append_cons_self, topics_append,
      topics_missedBrace_append_cons (by decide) _ hrow]
    rfl
  rw [Finding.repaired_eq (c := '\x7b') (by rw [hkind]; rfl), hfinding]
  exact topics_insertAt_of_brace hlines h hbrace hline hbraces List.not_mem_nil hclosing hedited
    (by decide) fun habove => absurd rfl habove

theorem topics_with_closingBrace (hkind : finding.kind = .missingClosingBrace) :
    topics (inspect (finding.repaired source)) = topics before ++ topics behind := by
  have hbrace : finding.kind.isBrace = true := by
    rw [hkind]
    rfl
  obtain ⟨above, last, hlines⟩ := (List.eq_nil_or_concat' _).resolve_left
    (List.splitOn_ne_nil '\n' source.toList)
  have hlines : Text.lines source.toList = above ++ (last ++ []) :: [] := by
    rw [List.append_nil]
    exact hlines
  have hmem := mem_braceFindings_of_kind h hbrace
  rw [hlines, braceFindings_eq, List.mem_append, mem_missedBrace_iff, mem_missedBrace_iff] at hmem
  obtain ⟨hfinding, hnone⟩ := hmem.resolve_left fun hopen => by
    rw [hopen.1] at hkind
    cases hkind
  have hline : lineTopics above.length (last ++ '\x7d' :: []) [] =
      lineTopics above.length (last ++ []) [] := by
    rw [lineTopics, lineTopics, commaTopics_nil, commaTopics_nil,
      parenthesisTopics_append_cons _ (by decide) (by decide),
      tokenTopics_append_cons_of_blank _ (by decide) (by decide) (List.forall_mem_nil _)]
  have hopen : finding.topic ∉ topics (missedBrace '\x7b' .missingOpenBrace ⟨0, 0⟩
      (above ++ (last ++ []) :: [])) := by
    refine not_mem_topics_of_kind fun other hother => ?_
    rw [hkind, (mem_missedBrace_iff.mp hother).1]
    exact nofun
  have hbraces : topics (braceFindings (above ++ (last ++ []) :: [])) =
      topics (missedBrace '\x7b' .missingOpenBrace ⟨0, 0⟩ (above ++ (last ++ []) :: [])) ++
        [finding.topic] := by
    rw [braceFindings_eq, missedBrace_of_not_mem hnone, ← hfinding, topics_append]
    rfl
  have hedited : topics (braceFindings (above ++ (last ++ '\x7d' :: []) :: [])) =
      topics (missedBrace '\x7b' .missingOpenBrace ⟨0, 0⟩ (above ++ (last ++ []) :: [])) ++ [] := by
    rw [braceFindings_eq, missedBrace_append_cons_self, topics_append,
      topics_missedBrace_append_cons (by decide) _ rfl]
    rfl
  have hplace : finding.start = ⟨above.length, last.length⟩ := by
    rw [hfinding, textEnd_eq, List.append_nil]
    rfl
  rw [Finding.repaired_eq (c := '\x7d') (by rw [hkind]; rfl), hplace]
  exact topics_insertAt_of_brace hlines h hbrace hline hbraces hopen List.not_mem_nil hedited
    (by decide) fun _ =>
      startsOperation_trim_mark (by decide) (by decide) (List.forall_mem_nil _) last

end

/-- Adding the mark of a finding where it starts takes the finding away and leaves
the others, with their kinds, rows and order.  Only if more than one parenthesis is
missed on the line, the finding stays; and a closing parenthesis can show that the
line lacks a comma. -/
theorem topics_inspect_repaired {source : String} {before behind : List Finding}
    {finding : Finding} (h : inspect source = before ++ finding :: behind) :
    let raw := (Text.lines source.toList).getD finding.start.row []
    let next := (Text.lines source.toList).getD (finding.start.row + 1) []
    (finding.kind ∈ [.missingComma, .missingOpenBrace, .missingClosingBrace] →
      topics (inspect (finding.repaired source)) = topics before ++ topics behind) ∧
    (finding.kind = .missingOpenParen → topics (inspect (finding.repaired source)) =
      if raw.count ')' = raw.count '(' + 1 then topics before ++ topics behind
      else topics (inspect source)) ∧
    (finding.kind = .missingCloseParen → topics (inspect (finding.repaired source)) =
      topics before ++
        (((if ')' ∉ raw ∧ ',' ∉ raw ∧ '\x7d' ∉ raw ∧ startsOperation (Text.trim next) = true then
            [(.missingComma, finding.start.row)] else []) ++
          if raw.count '(' = raw.count ')' + 1 then [] else [finding.topic]) ++
        topics behind)) := by
  refine ⟨fun hkind => ?_, topics_with_openParen h, topics_with_closeParen h⟩
  simp only [List.mem_cons, List.not_mem_nil, or_false] at hkind
  rcases hkind with hkind | hkind | hkind
  · exact topics_with_comma h hkind
  · exact topics_with_openBrace h hkind
  · exact topics_with_closingBrace h hkind

/-- Two calls without braces.  When the first one is closed, it lacks a comma. -/
def unclosed : String := "sanitize(<1>\n setSinkk(<12>)"

theorem topics_inspect_repaired_unclosed :
    let finding : Finding := .about .missingCloseParen ⟨0, 12⟩ ⟨0, 12⟩ "sanitize(<1>".toList
    let behind : List Finding := [.about .invalidKey ⟨1, 10⟩ ⟨1, 14⟩ "<12>".toList,
      .about .unknownOperation ⟨1, 1⟩ ⟨1, 9⟩ "setSinkk".toList,
      .about .missingOpenBrace ⟨0, 0⟩ ⟨0, 0⟩ [], .about .missingClosingBrace ⟨1, 15⟩ ⟨1, 15⟩ []]
    inspect unclosed = [] ++ finding :: behind ∧
      topics (inspect (finding.repaired unclosed)) = (.missingComma, 0) :: topics behind := by
  intro finding behind
  have hinspect : inspect unclosed = [] ++ finding :: behind := by decide +kernel
  obtain ⟨-, -, hclose⟩ := topics_inspect_repaired hinspect
  exact ⟨hinspect, (hclose rfl).trans (by decide +kernel)⟩

end Summary
end TaintFlow
