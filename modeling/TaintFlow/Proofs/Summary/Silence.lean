/-
The inspection is silent on well-formed summaries.

The main statement is `inspect_eq_nil_of_layout`: whatever the calls are and
wherever blanks and line feeds stand between them, nothing is found.  A line of
such a text is woven, so its parentheses balance, its keys are numbers in range
and its words are no misspelt keywords.  A line that closes a call and has no
comma owes one (`Woven.eq_true_of_comma_not_mem`), and a line that starts with an
operation follows one that owes none (`Woven.eq_false_of_startsOperation`), so a
comma that stands on a line of its own is not missed.
-/
import TaintFlow.Proofs.Summary.Spans
import TaintFlow.Proofs.Summary.Woven
import TaintFlow.Summary.Inspection

namespace TaintFlow
namespace Summary

/-! ## Commas -/

/-- Without a comma in it, a text that closes a call, or that a comma is owed in
front of, owes a comma at its end. -/
theorem Woven.eq_true_of_comma_not_mem {owed last : Bool} {text : List Char}
    (h : Woven owed text last) (hcomma : ',' ∉ text) (howed : owed = true ∨ ')' ∈ text) :
    last = true := by
  induction h with
  | nil => exact howed.resolve_right List.not_mem_nil
  | filler hc _ ih =>
    have hclose := ne_of_isFiller (d := ')') hc (by decide)
    rw [List.mem_cons, not_or] at hcomma
    rw [List.mem_cons] at howed
    exact ih hcomma.2 (howed.imp_right (·.resolve_left hclose.symm))
  | comma => exact absurd List.mem_cons_self hcomma
  | call _ _ ih =>
    rw [List.mem_append, not_or] at hcomma
    exact ih hcomma.2 (.inl rfl)

theorem exists_cons_of_startsOperation {text : List Char} (h : startsOperation text = true) :
    ∃ c behind, text = c :: behind ∧ c.isAlpha = true := by
  obtain ⟨keyword, hkeyword, hprefix⟩ := List.any_eq_true.mp h
  obtain ⟨op, -, rfl⟩ := List.mem_map.mp hkeyword
  obtain ⟨behind, rfl⟩ := List.isPrefixOf_iff_prefix.mp hprefix
  obtain ⟨c, letters, hletters, hc⟩ := op.keyword_eq_cons
  rw [hletters]
  exact ⟨c, _, rfl, hc⟩

/-- A text that starts with an operation has a comma in front of it. -/
theorem Woven.eq_false_of_startsOperation {owed last : Bool} {text : List Char}
    (h : Woven owed text last) (hstarts : startsOperation text = true) : owed = false := by
  obtain ⟨c, behind, htext, hc⟩ := exists_cons_of_startsOperation hstarts
  cases h with
  | nil => cases htext
  | filler hfiller =>
    cases htext
    rw [isAlpha_of_isFiller hfiller] at hc
    cases hc
  | comma =>
    cases htext
    exact absurd hc (by decide)
  | call => rfl

/-! ## Parentheses -/

/-- A call has one pair of parentheses. -/
theorem CallText.count_parenthesis {call : Call} {text : List Char} (h : CallText call text) :
    text.count '(' = 1 ∧ text.count ')' = 1 := by
  have hmarks : ∀ mark ∈ ['(', ')'], isInlineBlank mark = false ∧
      (∀ keyword ∈ Operation.keywords, keyword.count mark = 0) ∧
      (∀ text ∈ keyTexts, text.count mark = 0) ∧
      ['('].count mark + [')'].count mark = 1 ∧ [','].count mark = 0 :=
    List.forall_mem_cons.mpr ⟨by decide, List.forall_mem_singleton.mpr (by decide)⟩
  have hone : ∀ mark ∈ ['(', ')'], text.count mark = 1 := by
    intro mark hmark
    obtain ⟨hblank, hkeyword, hkey, hpair, hcomma⟩ := hmarks mark hmark
    rw [Spread.count_eq h hblank, List.count_flatten, Call.tokens, List.map_cons, List.sum_cons,
      hkeyword _ call.op.keyword_mem]
    cases call with
    | setSink key | sanitize key =>
      simp [Call.argumentTokens, Call.keys, hkey _ key.text_mem]
      omega
    | transitive first second | swapTaint first second =>
      simp [Call.argumentTokens, Call.keys, hkey _ first.text_mem, hkey _ second.text_mem]
      omega
  exact ⟨hone '(' (by decide), hone ')' (by decide)⟩

theorem Woven.count_parens_eq {owed last : Bool} {text : List Char} (h : Woven owed text last) :
    text.count '(' = text.count ')' := by
  induction h with
  | nil => rfl
  | filler hc _ ih =>
    have hopen := ne_of_isFiller (d := '(') hc (by decide)
    have hclose := ne_of_isFiller (d := ')') hc (by decide)
    rw [List.count_cons_of_ne hopen, List.count_cons_of_ne hclose, ih]
  | comma _ ih => rw [List.count_cons_of_ne (by decide), List.count_cons_of_ne (by decide), ih]
  | call hcall _ ih =>
    obtain ⟨hopens, hcloses⟩ := hcall.count_parenthesis
    rw [List.count_append, List.count_append, hopens, hcloses, ih]

/-! ## Keys and words -/

section

variable {scan : Nat → List Char → List Span} {good : List Char → Prop}

theorem Spread.passes {between : Char → Bool} {tokens : List (List Char)} {text : List Char}
    (h : Spread between tokens text)
    (hbetween : ∀ gap : List Char, gap.all between = true → Passes scan good gap)
    (htokens : ∀ token ∈ tokens, Passes scan good token) : Passes scan good text := by
  induction h with
  | last => exact htokens _ List.mem_cons_self
  | cons gap hgap _ ih =>
    rw [List.forall_mem_cons] at htokens
    exact (htokens.1.append (hbetween gap hgap)).append (ih htokens.2)

/-- What is passed one call and one other character at a time. -/
theorem Woven.passes {owed last : Bool} {text : List Char} (h : Woven owed text last)
    (hmarks : ∀ c, isFiller c = true ∨ c = ',' → Passes scan good [c])
    (hcalls : ∀ call written, CallText call written → Passes scan good written) :
    Passes scan good text := by
  induction h with
  | nil => exact .nil
  | filler hc _ ih => exact (hmarks _ (.inl hc)).append ih
  | comma _ ih => exact (hmarks _ (.inr rfl)).append ih
  | call hcall _ ih => exact (hcalls _ _ hcall).append ih

end

theorem passes_keys_of_not_mem {text : List Char} {good : List Char → Prop} (hless : '<' ∉ text)
    (hgreater : '>' ∉ text) : Passes (fun column => keySpansFrom column none) good text :=
  .of_forall fun _ hc column behind =>
    keySpansFrom_step (ne_of_mem_of_not_mem hc hless) (ne_of_mem_of_not_mem hc hgreater) column none
      behind

theorem passes_words_of_any {text : List Char} {good : List Char → Prop}
    (h : text.any Char.isAlpha = false) :
    Passes (fun column => wordSpansFrom column none) good text :=
  .of_forall fun c hc column behind =>
    wordSpansFrom_step (Bool.eq_false_iff.mpr (List.any_eq_false.mp h c hc)) column behind

theorem passes_keys_of_inlineBlank {gap : List Char} {good : List Char → Prop}
    (hgap : gap.all isInlineBlank = true) :
    Passes (fun column => keySpansFrom column none) good gap := by
  have hnone : ∀ d, isInlineBlank d = false → d ∉ gap := by
    intro d hd hmem
    rw [List.all_eq_true.mp hgap d hmem] at hd
    cases hd
  exact passes_keys_of_not_mem (hnone '<' (by decide)) (hnone '>' (by decide))

theorem Call.passes_keys_of_mem_tokens (call : Call) : ∀ token ∈ call.tokens,
    Passes (fun column => keySpansFrom column none) (Line.isInvalidKey · = false) token := by
  have hkey : ∀ text ∈ keyTexts, text = '<' :: keyContent text ++ ['>'] ∧ keyContent text ≠ [] ∧
      '>' ∉ keyContent text ∧ Line.isInvalidKey text = false := by decide
  have hmark : ∀ mark ∈ [['('], [','], [')']], '<' ∉ mark ∧ '>' ∉ mark := by decide
  have hkeyword : ∀ keyword ∈ Operation.keywords, '<' ∉ keyword ∧ '>' ∉ keyword := by decide
  rw [tokens, List.forall_mem_cons]
  obtain ⟨hless, hgreater⟩ := hkeyword _ call.op.keyword_mem
  refine ⟨passes_keys_of_not_mem hless hgreater, call.forall_argumentTokens ?_ ?_⟩
  · exact fun mark hmem => passes_keys_of_not_mem (hmark mark hmem).1 (hmark mark hmem).2
  · intro text htext
    obtain ⟨heq, hne, hcontent, hgood⟩ := hkey text htext
    rw [heq] at hgood ⊢
    exact passes_key hne hcontent hgood

theorem CallText.passes_keys {call : Call} {text : List Char} (h : CallText call text) :
    Passes (fun column => keySpansFrom column none) (Line.isInvalidKey · = false) text :=
  Spread.passes h (fun _ => passes_keys_of_inlineBlank) call.passes_keys_of_mem_tokens

/-- Behind the keyword of a call there is no letter. -/
theorem CallText.any_isAlpha_eq {call : Call} {gap arguments : List Char}
    (hgap : gap.all isInlineBlank = true) (h : Spread isInlineBlank call.argumentTokens arguments) :
    (gap ++ arguments).any Char.isAlpha = false := by
  have htokens : ∀ token ∈ call.argumentTokens, token.any Char.isAlpha = false :=
    call.forall_argumentTokens (by decide) (by decide)
  rw [List.any_eq_false]
  intro c hc hletter
  have hblank : isInlineBlank c = false := by
    rw [Bool.eq_false_iff]
    intro hblank
    rw [Text.isAlpha_of_isBlank (isInlineBlank_iff.mp hblank).1] at hletter
    cases hletter
  rcases List.mem_append.mp hc with hc | hc
  · rw [List.all_eq_true.mp hgap c hc] at hblank
    cases hblank
  · obtain ⟨token, htoken, hmem⟩ := h.exists_token_of_mem hc hblank
    exact List.any_eq_false.mp (htokens token htoken) c hmem hletter

theorem CallText.passes_words {call : Call} {text : List Char} (h : CallText call text) :
    Passes (fun column => wordSpansFrom column none) (Line.isMisspeltKeyword · = false) text := by
  have hkeyword : ∀ keyword ∈ Operation.keywords, keyword ≠ [] ∧
      keyword.all Char.isAlpha = true ∧ Line.isMisspeltKeyword keyword = false := by decide
  obtain ⟨hne, hletters, hgood⟩ := hkeyword _ call.op.keyword_mem
  obtain ⟨gap, arguments, rfl, hgap, harguments⟩ := h.exists_append
  have htail := any_isAlpha_eq hgap harguments
  have htailne : gap ++ arguments ≠ [] := by
    intro hnil
    have hmem := harguments.mem List.mem_cons_self (List.mem_singleton_self '(')
    rw [(List.append_eq_nil_iff.mp hnil).2] at hmem
    cases hmem
  -- The character behind the keyword ends the word.
  obtain ⟨d, behind, htext⟩ := List.exists_cons_of_ne_nil htailne
  rw [htext, List.any_cons, Bool.or_eq_false_iff] at htail
  rw [htext, List.append_cons]
  exact (passes_word hne (List.all_eq_true.mp hletters) htail.1 hgood).append
    (passes_words_of_any htail.2)

theorem Woven.passes_keys {owed last : Bool} {text : List Char} (h : Woven owed text last) :
    Passes (fun column => keySpansFrom column none) (Line.isInvalidKey · = false) text := by
  refine h.passes (fun c hc => ?_) fun _ _ hcall => hcall.passes_keys
  rcases hc with hc | rfl
  · have hless := ne_of_isFiller (d := '<') hc (by decide)
    have hgreater := ne_of_isFiller (d := '>') hc (by decide)
    exact passes_keys_of_not_mem (List.mem_singleton.not.mpr hless.symm)
      (List.mem_singleton.not.mpr hgreater.symm)
  · exact passes_keys_of_not_mem (by decide) (by decide)

theorem Woven.passes_words {owed last : Bool} {text : List Char} (h : Woven owed text last) :
    Passes (fun column => wordSpansFrom column none) (Line.isMisspeltKeyword · = false) text := by
  refine h.passes (fun c hc => passes_words_of_any ?_) fun _ _ hcall => hcall.passes_words
  rw [List.any_cons, List.any_nil, Bool.or_false]
  rcases hc with hc | rfl
  · exact isAlpha_of_isFiller hc
  · rfl

/-! ## Lines -/

section

variable {line : Line} {owed last : Bool}

theorem commaFindings_eq_nil (h : Woven owed line.text last) {next : List Char}
    (hnext : startsOperation (Text.trim next) = true → last = false) :
    line.commaFindings next = [] := by
  refine if_neg fun hcond => ?_
  simp only [Bool.and_eq_true, Bool.not_eq_true', List.contains_eq_mem, decide_eq_true_eq,
    decide_eq_false_iff_not] at hcond
  obtain ⟨⟨⟨hclose, hcomma⟩, -⟩, hstarts⟩ := hcond
  have htrue := h.eq_true_of_comma_not_mem hcomma (.inr hclose)
  rw [hnext hstarts] at htrue
  cases htrue

theorem parenthesisFindings_eq_nil (h : Woven owed line.text last) :
    line.parenthesisFindings = [] := by
  have hcount := h.count_parens_eq
  exact (if_neg (by omega)).trans (if_neg (by omega))

theorem keyFindings_eq_nil (h : Woven owed line.text last) : line.keyFindings = [] := by
  have hnone := h.passes_keys.filter_eq_nil fun _ => rfl
  exact (congrArg _ hnone).trans List.map_nil

theorem wordFindings_eq_nil (h : Woven owed line.text last) : line.wordFindings = [] := by
  have hnone := h.passes_words.filter_eq_nil fun _ => rfl
  exact (congrArg _ hnone).trans List.map_nil

end

/-- Nothing is wrong with a woven line, if the line after it starts with an
operation only where no comma is owed. -/
theorem findings_eq_nil {owed last : Bool} {raw next : List Char} (row : Nat)
    (h : Woven owed raw last) (hnext : startsOperation (Text.trim next) = true → last = false) :
    (Line.trimmed row raw).findings next = [] := by
  have htrim : Woven owed (Line.trimmed row raw).text last := h.trim
  rw [Line.findings, commaFindings_eq_nil htrim hnext, parenthesisFindings_eq_nil htrim,
    keyFindings_eq_nil htrim, wordFindings_eq_nil htrim]
  rfl

theorem WovenLines.headD {owed : Bool} {lines : List (List Char)} (h : WovenLines owed lines) :
    ∃ last, Woven owed (lines.headD []) last := by
  cases h with
  | last h => exact ⟨_, h⟩
  | cons h _ => exact ⟨_, h⟩

theorem lineFindings_eq_nil {owed : Bool} {lines : List (List Char)} (h : WovenLines owed lines)
    (row : Nat) : lineFindings row lines = [] := by
  induction h generalizing row with
  | last h =>
    rw [lineFindings, lineFindings, List.headD_nil,
      findings_eq_nil row h fun hstarts => absurd hstarts (by decide)]
    rfl
  | cons h hlines ih =>
    obtain ⟨last, hhead⟩ := hlines.headD
    rw [lineFindings, findings_eq_nil row h fun hstarts =>
      hhead.trim.eq_false_of_startsOperation hstarts, ih]
    rfl

/-! ## The text as a whole -/

theorem braceFindings_eq_nil {text : List Char} (hopen : '\x7b' ∈ text) (hclose : '\x7d' ∈ text) :
    braceFindings (Text.lines text) = [] := by
  have hany : ∀ {c : Char}, c ≠ '\n' → c ∈ text → (Text.lines text).any (·.contains c) = true := by
    intro c hc hmem
    obtain ⟨line, hline, hmem⟩ := Text.exists_mem_lines hc hmem
    exact List.any_eq_true.mpr ⟨line, hline, List.contains_iff_mem.mpr hmem⟩
  rw [braceFindings, hany (by decide) hopen, hany (by decide) hclose]
  rfl

theorem LayoutText.braces_mem {calls : List Call} {text : List Char} (h : LayoutText calls text) :
    '\x7b' ∈ text ∧ '\x7d' ∈ text := by
  obtain ⟨before, behind, hcalls, hbefore, hbody, hbehind⟩ := h
  have hopen := hbody.mem List.mem_cons_self (List.mem_singleton_self '\x7b')
  have hclose := hbody.mem (List.mem_cons_of_mem _ List.mem_concat_self)
    (List.mem_singleton_self '\x7d')
  exact ⟨List.mem_append_left _ (List.mem_append_right _ hopen),
    List.mem_append_left _ (List.mem_append_right _ hclose)⟩

/-- Nothing is found in a summary with each operation on one line, wherever else
its lines end. -/
theorem inspect_eq_nil_of_layout {calls : List Call} {source : String}
    (h : LayoutText calls source.toList) : inspect source = [] := by
  obtain ⟨last, hwoven⟩ := h.woven
  obtain ⟨hopen, hclose⟩ := h.braces_mem
  show lineFindings 0 (Text.lines source.toList) ++ braceFindings (Text.lines source.toList) = []
  rw [lineFindings_eq_nil hwoven.lines, braceFindings_eq_nil hopen hclose]
  rfl

/-- Three calls for a layout. -/
def scatteredCalls : List Call :=
  [.setSink ⟨0, by decide, by decide⟩,
    .transitive ⟨1, by decide, by decide⟩ ⟨-1, by decide, by decide⟩,
    .sanitize ⟨9, by decide, by decide⟩]

/-- The calls with a comma on a line of its own and one in front of a call, among
blanks of several kinds. -/
def scatteredText : String :=
  "\u3000\x7b setSink( <0> )\n,\u0085\ntransitive (<1>,\t<-1>)\n, sanitize(<9>)\r\n\x7d\n"

theorem layoutText_scattered : LayoutText scatteredCalls scatteredText.toList := by
  have hsink : CallText (.setSink ⟨0, by decide, by decide⟩) "setSink( <0> )".toList :=
    .cons [] (by decide) (.cons [' '] (by decide) (.cons [' '] (by decide) .last))
  have htransitive : CallText (.transitive ⟨1, by decide, by decide⟩ ⟨-1, by decide, by decide⟩)
      "transitive (<1>,\t<-1>)".toList :=
    .cons [' '] (by decide) (.cons [] (by decide) (.cons [] (by decide)
      (.cons ['\t'] (by decide) (.cons [] (by decide) .last))))
  have hsanitize : CallText (.sanitize ⟨9, by decide, by decide⟩) "sanitize(<9>)".toList :=
    .cons [] (by decide) (.cons [] (by decide) (.cons [] (by decide) .last))
  have hlayout := LayoutText.braced ['\u3000'] ['\n']
    (.cons hsink (.cons htransitive (.cons hsanitize .nil))) (by decide)
    (.cons [' '] (by decide) (.cons ['\n'] (by decide) (.cons ['\u0085', '\n'] (by decide)
      (.cons ['\n'] (by decide) (.cons [' '] (by decide)
        (.cons ['\r', '\n'] (by decide) .last)))))) (by decide)
  refine Eq.subst (motive := LayoutText scatteredCalls) ?_ hlayout
  decide +kernel

theorem inspect_eq_nil_of_layout_scattered :
    LayoutText scatteredCalls scatteredText.toList ∧ inspect scatteredText = [] :=
  ⟨layoutText_scattered, inspect_eq_nil_of_layout layoutText_scattered⟩

end Summary
end TaintFlow
