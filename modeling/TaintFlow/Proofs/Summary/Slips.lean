/-
One slip in one call.

A call on a line of its own is written with one slip: a parenthesis is left out, a
key is no number in range, or its name is a word that only resembles a keyword.
Each slip is found, exactly once and at its place, and nothing else is
(`Sheet.inspect_slip`).

The three checks of a line are looked at one by one for a line between two
margins, and then each slip is put on the row of a sheet.
-/
import TaintFlow.Proofs.Summary.Around
import TaintFlow.Proofs.Summary.Keys
import TaintFlow.Proofs.Summary.Rows

namespace TaintFlow
namespace Summary

/-! ## A line with a slip on it -/

namespace Margin

variable (margin : Margin) (comma : Bool)

theorem any_isAlpha : margin.lead.any Char.isAlpha = false ∧
    (margin.behind comma).any Char.isAlpha = false := by
  have hletter : ∀ c : Char, c.isAlpha = true → isInlineBlank c = false ∧ c ≠ ',' := by
    intro c hc
    refine ⟨Bool.eq_false_iff.mpr fun hblank => ?_, ?_⟩
    · rw [Text.isAlpha_of_isBlank (isInlineBlank_iff.mp hblank).1] at hc
      cases hc
    · rintro rfl
      exact absurd hc (by decide)
  constructor
  · refine List.any_eq_false.mpr fun c hmem hc => ?_
    exact (margin.not_mem comma (hletter c hc).1 fun _ => (hletter c hc).2).1 hmem
  · refine List.any_eq_false.mpr fun c hmem hc => ?_
    exact (margin.not_mem comma (hletter c hc).1 fun _ => (hletter c hc).2).2 hmem

theorem passesKeys : PassesKeys margin.lead ∧ PassesKeys (margin.behind comma) := by
  have hless := margin.not_mem comma (c := '<') (by decide) fun _ => by decide
  have hgreater := margin.not_mem comma (c := '>') (by decide) fun _ => by decide
  exact ⟨passes_keys_of_not_mem hless.1 hgreater.1, passes_keys_of_not_mem hless.2 hgreater.2⟩

theorem count_line {c : Char} (hc : isInlineBlank c = false) (hcomma : c ≠ ',') (text : List Char) :
    (margin.line text comma).count c = text.count c := by
  obtain ⟨hlead, hbehind⟩ := margin.not_mem comma hc fun _ => hcomma
  rw [line, List.count_append, List.count_append, List.count_eq_zero.mpr hlead,
    List.count_eq_zero.mpr hbehind, Nat.zero_add, Nat.add_zero]

end Margin

section

variable {margin : Margin} {comma : Bool} {row : Nat}

/-! ### Parentheses -/

theorem parenthesisFindings_line_of_eq {text : List Char} (h : text.count '(' = text.count ')') :
    (Line.trimmed row (margin.line text comma)).parenthesisFindings = [] := by
  rw [parenthesisFindings_trimmed, margin.count_line comma (by decide) (by decide),
    margin.count_line comma (by decide) (by decide), if_neg (by omega), if_neg (by omega)]

theorem parenthesisFindings_line_of_lt {text : List Char} (h : text.count ')' < text.count '(') :
    (Line.trimmed row (margin.line text comma)).parenthesisFindings =
      [.about .missingCloseParen (lineEnd row (margin.line text comma))
        (lineEnd row (margin.line text comma)) (Text.trim (margin.line text comma))] := by
  rw [parenthesisFindings_trimmed, margin.count_line comma (by decide) (by decide),
    margin.count_line comma (by decide) (by decide), if_pos h]

theorem parenthesisFindings_line_of_gt {front back : List Char} (hfront : ')' ∉ front)
    (h : (front ++ ')' :: back).count '(' < (front ++ ')' :: back).count ')') :
    (Line.trimmed row (margin.line (front ++ ')' :: back) comma)).parenthesisFindings =
      [.about .missingOpenParen ⟨row, margin.lead.length + front.length⟩
        ⟨row, margin.lead.length + (front.length + 1)⟩
        (Text.trim (margin.line (front ++ ')' :: back) comma))] := by
  have hlead := (margin.not_mem comma (c := ')') (by decide) fun _ => by decide).1
  have hindex : (margin.line (front ++ ')' :: back) comma).idxOf ')' =
      margin.lead.length + front.length := by
    rw [Margin.line, List.append_assoc, List.append_assoc, List.idxOf_append_of_notMem hlead,
      List.idxOf_append_of_notMem hfront, List.cons_append, List.idxOf_cons_self, Nat.add_zero]
  rw [parenthesisFindings_trimmed, margin.count_line comma (by decide) (by decide),
    margin.count_line comma (by decide) (by decide), if_neg (by omega), if_pos h, hindex,
    Nat.add_assoc]

/-! ### Keys -/

theorem keyFindings_line_eq_nil {text : List Char} (h : PassesKeys text) :
    (Line.trimmed row (margin.line text comma)).keyFindings = [] := by
  have hline : PassesKeys (margin.line text comma) :=
    ((margin.passesKeys comma).1.append h).append (margin.passesKeys comma).2
  rw [keyFindings_trimmed, spanFindings, keySpans]
  exact (congrArg _ (hline.filter_eq_nil fun _ => rfl)).trans List.map_nil

/-- A key between sound ones that is no number is the one finding about keys. -/
theorem keyFindings_line_of_bad {front key back : List Char} (hfront : PassesKeys front)
    (hback : PassesKeys back) (hne : key ≠ []) (hgreater : '>' ∉ key)
    (hbad : isKeyNumber key = false) :
    (Line.trimmed row (margin.line (front ++ '<' :: (key ++ '>' :: back)) comma)).keyFindings =
      [.about .invalidKey ⟨row, margin.lead.length + front.length⟩
        ⟨row, margin.lead.length + (front.length + ('<' :: key ++ ['>']).length)⟩
        ('<' :: key ++ ['>'])] := by
  have hline : margin.line (front ++ '<' :: (key ++ '>' :: back)) comma =
      margin.lead ++ front ++ ('<' :: key ++ ['>']) ++ (back ++ margin.behind comma) := by
    simp [Margin.line]
  have hinvalid : Line.isInvalidKey ('<' :: key ++ ['>']) = true := by
    have hcontent : keyContent ('<' :: key ++ ['>']) = key := List.dropLast_concat
    rw [Line.isInvalidKey, hcontent, hbad]
    rfl
  have hone := Passes.filter_eq_singleton ((margin.passesKeys comma).1.append hfront)
    (hback.append (margin.passesKeys comma).2) (keySpansFrom_key hne hgreater) hinvalid fun _ => rfl
  rw [keyFindings_trimmed, hline, spanFindings, keySpans, hone, List.map_singleton,
    Span.text_append, List.length_append, Nat.add_assoc]

/-! ### Words -/

/-- A word that is like a keyword and is none. -/
def Misspelt (word : List Char) : Prop :=
  (∃ fragment ∈ Operation.fragments, fragment <:+: word) ∧ word ∉ Operation.keywords

theorem isMisspeltKeyword_iff {word : List Char} :
    Line.isMisspeltKeyword word = true ↔ Misspelt word := by
  rw [Line.isMisspeltKeyword, Misspelt, Bool.and_eq_true, List.any_eq_true, Bool.not_eq_true',
    ← Bool.not_eq_true, List.contains_iff_mem]
  simp only [Text.contains_iff_isInfix]

theorem spanFindings_eq_nil {kind : Finding.Kind} {bad : List Char → Bool} {raw : List Char}
    {spans : List Span} (h : ∀ span ∈ spans, bad (span.text raw) = false) :
    spanFindings kind bad row raw spans = [] := by
  rw [spanFindings, List.filter_eq_nil_iff.mpr fun span hspan => Bool.eq_false_iff.mp (h span hspan)]
  rfl

/-- All that is found about words is whether the name of the call is misspelt. -/
theorem wordFindings_line_of_name {name rest : List Char} (hne : name ≠ [])
    (hname : ∀ c ∈ name, c.isAlpha = true) (hrest : rest.any Char.isAlpha = false) :
    (Line.trimmed row (margin.line (name ++ rest) comma)).wordFindings =
      if Line.isMisspeltKeyword name = true then
        [.about .unknownOperation ⟨row, margin.lead.length⟩ ⟨row, margin.lead.length + name.length⟩
          name]
      else [] := by
  obtain ⟨hlead, hbehind⟩ := margin.any_isAlpha comma
  have hline : margin.line (name ++ rest) comma =
      margin.lead ++ name ++ (rest ++ margin.behind comma) := by
    simp [Margin.line]
  have hrest : (rest ++ margin.behind comma).any Char.isAlpha = false := by
    rw [List.any_append, hrest, hbehind]
    rfl
  rw [wordFindings_trimmed, hline, wordSpans_of_name hlead hne hname hrest, spanFindings, List.filter_cons, Span.text_append]
  split
  · rw [List.filter_nil, List.map_singleton, Span.text_append]
  · rfl

theorem Call.name_spec (call : Call) : call.op.keyword.toList ≠ [] ∧
    (∀ c ∈ call.op.keyword.toList, c.isAlpha = true) ∧
    Line.isMisspeltKeyword call.op.keyword.toList = false := by
  have hkeyword : ∀ keyword ∈ Operation.keywords, keyword ≠ [] ∧
      keyword.all Char.isAlpha = true ∧ Line.isMisspeltKeyword keyword = false := by decide
  obtain ⟨hne, hletters, hsound⟩ := hkeyword _ call.op.keyword_mem
  exact ⟨hne, List.all_eq_true.mp hletters, hsound⟩

theorem wordFindings_line_eq_nil (call : Call) {rest : List Char}
    (hrest : rest.any Char.isAlpha = false) :
    (Line.trimmed row (margin.line (call.op.keyword.toList ++ rest) comma)).wordFindings = [] := by
  obtain ⟨hne, hname, hsound⟩ := call.name_spec
  rw [wordFindings_line_of_name hne hname hrest, hsound]
  rfl

/-- A key without a misspelt keyword in it adds no finding about words. -/
theorem wordFindings_line_of_key (call : Call) {gap key back : List Char}
    (hgap : gap.any Char.isAlpha = false) (hback : back.any Char.isAlpha = false)
    (hkey : ∀ before word behind, key = before ++ word ++ behind → WordBetween before word behind →
      ¬ Misspelt word) :
    (Line.trimmed row (margin.line (call.op.keyword.toList ++ gap ++ '<' :: (key ++ '>' :: back))
      comma)).wordFindings = [] := by
  obtain ⟨hne, hname, hsound⟩ := call.name_spec
  generalize call.op.keyword.toList = name at hne hname hsound
  obtain ⟨hlead, hbehind⟩ := margin.any_isAlpha comma
  have hline : margin.line (name ++ gap ++ '<' :: (key ++ '>' :: back)) comma =
      margin.lead ++ name ++ gap ++ '<' :: (key ++ '>' :: (back ++ margin.behind comma)) := by
    simp [Margin.line]
  have hrest : (back ++ margin.behind comma).any Char.isAlpha = false := by
    rw [List.any_append, hback, hbehind]
    rfl
  rw [wordFindings_trimmed, hline]
  refine spanFindings_eq_nil fun span hspan => ?_
  rw [wordSpans, wordSpansFrom_append_cons (by decide), wordSpansFrom_append_cons (by decide),
    wordSpansFrom_of_any hrest, List.append_nil, List.mem_append] at hspan
  rcases hspan with hspan | hspan
  · have hspan : span ∈ wordSpans (margin.lead ++ name ++ gap) := hspan
    rw [wordSpans_of_name hlead hne hname hgap, List.mem_singleton] at hspan
    rw [hspan, List.append_assoc (margin.lead ++ name), Span.text_append]
    exact hsound
  · have hcolumn : 0 + (margin.lead ++ name ++ gap).length + 1 =
        (margin.lead ++ name ++ gap ++ ['<']).length := by
      simp only [List.length_append, List.length_singleton, Nat.zero_add]
    rw [hcolumn] at hspan
    obtain ⟨before, word, behind, hsplit, hword, htext⟩ :=
      exists_word_of_mem_wordSpansFrom hspan ('>' :: (back ++ margin.behind comma))
    rw [List.append_cons, ← List.append_assoc, htext]
    exact Bool.eq_false_iff.mpr fun hbad =>
      hkey before word behind hsplit hword (isMisspeltKeyword_iff.mp hbad)

end

/-! ## A sheet with a slip on it -/

/-- What stands by mistake in place of the number of a key, without any further
slip in it. -/
structure BadKey (key : List Char) : Prop where
  nonempty : key ≠ []
  plain : '>' ∉ key ∧ '\n' ∉ key ∧ '(' ∉ key ∧ ')' ∉ key
  not_number : ¬ ∃ d, d.isDigit = true ∧ (key = [d] ∨ key = ['-', d])
  words : ∀ before word behind, key = before ++ word ++ behind → WordBetween before word behind →
    ¬ Misspelt word

/-- What stands by mistake in place of the name of a call. -/
structure BadName (name : List Char) : Prop where
  letters : ∀ c ∈ name, c.isAlpha = true
  misspelt : Misspelt name

theorem BadName.ne_nil {name : List Char} (h : BadName name) : name ≠ [] := by
  have hfragments : ∀ fragment ∈ Operation.fragments, fragment ≠ [] := by decide
  obtain ⟨⟨fragment, hfragment, hinfix⟩, -⟩ := h.misspelt
  rintro rfl
  exact hfragments fragment hfragment (List.infix_nil.mp hinfix)

/-- A name has none of the marks of a call. -/
theorem not_mem_of_letters {name : List Char} (h : ∀ c ∈ name, c.isAlpha = true) {c : Char}
    (hc : c.isAlpha = false) : c ∉ name := by
  intro hmem
  rw [h c hmem] at hc
  cases hc

namespace Sheet

variable {sheet : Sheet}

def trimmed (sheet : Sheet) (text : List Char) : Line := Line.trimmed sheet.index (sheet.line text)

/-- No comma is missed behind the row: it has one, or the closing brace comes
next. -/
theorem commaFindings_trimmed_eq_nil (text : List Char) :
    (sheet.trimmed text).commaFindings sheet.next = [] := by
  rw [trimmed, commaFindings_trimmed, if_neg]
  rintro ⟨-, hcomma, -, hstarts⟩
  by_cases hbehind : sheet.behind = []
  · have hnext : sheet.next = sheet.closing.line ['\x7d'] false := by
      rw [next, hbehind]
      rfl
    have hwoven : Woven true sheet.next true := by
      rw [hnext]
      exact Woven.margin (.filler (by decide) .nil) sheet.closing false
    exact absurd (hwoven.trim.eq_false_of_startsOperation hstarts) (by decide)
  · refine hcomma ?_
    have hlast : (!sheet.behind.isEmpty) = true := by
      rw [Bool.not_eq_true', ← Bool.not_eq_true, List.isEmpty_iff]
      exact hbehind
    show ',' ∈ sheet.row.toMargin.line text (!sheet.behind.isEmpty)
    rw [hlast]
    refine List.mem_append_right _ (List.mem_append_right _ (List.mem_append_left _ ?_))
    exact List.mem_singleton_self ','

section

variable (hrows : ∀ row ∈ sheet.rows, row.IsCall) {text front middle content back : List Char}

include hrows

/-- What is found on a sheet, whatever text stands on its row. -/
theorem inspect_eq (htext : '\n' ∉ text) : inspect (sheet.source text) =
    (sheet.trimmed text).parenthesisFindings ++ (sheet.trimmed text).keyFindings ++
      (sheet.trimmed text).wordFindings := by
  rw [rows, List.forall_mem_append, List.forall_mem_cons] at hrows
  have hcomma : (Line.trimmed sheet.index (sheet.line text)).commaFindings sheet.next = [] :=
    commaFindings_trimmed_eq_nil text
  rw [inspect_source hrows.1 hrows.2.2 htext, Line.findings, hcomma]
  rfl

theorem callText_row (h : sheet.row.text = text) : CallText sheet.row.call text := by
  rw [← h]
  exact hrows sheet.row (List.mem_append_right _ List.mem_cons_self)

/-- The keys and the name of a call stay sound without one of its parentheses. -/
theorem inspect_without_parenthesis {mark : Char} (hmark : mark ∈ ['(', ')'])
    (h : sheet.row.text = front ++ mark :: back) :
    inspect (sheet.source (front ++ back)) =
      (sheet.trimmed (front ++ back)).parenthesisFindings := by
  have hcall := callText_row hrows h
  have hnewline : '\n' ∉ front ++ back := fun hmem =>
    hcall.newline_not_mem (((List.sublist_cons_self mark back).append_left front).subset hmem)
  have hkeys : (sheet.trimmed (front ++ back)).keyFindings = [] := by
    obtain ⟨hpass, hpass'⟩ := CallText.around_parenthesis hmark hcall
    exact keyFindings_line_eq_nil (hpass.append hpass')
  have hwords : (sheet.trimmed (front ++ back)).wordFindings = [] := by
    have hletter : ∀ mark ∈ ['(', ')'], mark.isAlpha = false :=
      List.forall_mem_cons.mpr ⟨by decide, List.forall_mem_singleton.mpr (by decide)⟩
    obtain ⟨gap, hfront, hgap, hrest⟩ := hcall.exists_name (hletter mark hmark)
    rw [hfront, List.append_assoc]
    refine wordFindings_line_eq_nil sheet.row.call ?_
    rw [List.any_append, hgap, hrest]
    rfl
  rw [inspect_eq hrows hnewline, hkeys, hwords, List.append_nil, List.append_nil]

/-- Without its opening parenthesis a call has one closing parenthesis too many. -/
theorem inspect_without_open (h : sheet.row.text = front ++ '(' :: (middle ++ ')' :: back)) :
    inspect (sheet.source (front ++ middle ++ ')' :: back)) =
      [.about .missingOpenParen (sheet.place (front ++ middle).length)
        (sheet.place ((front ++ middle).length + 1))
        (Text.trim (sheet.line (front ++ middle ++ ')' :: back)))] := by
  obtain ⟨hopens, hcloses⟩ := (callText_row hrows h).count_parenthesis
  simp only [List.count_append, List.count_cons, Char.reduceBEq, Bool.false_eq_true, reduceIte]
    at hopens hcloses
  have hless : (front ++ middle ++ ')' :: back).count '(' <
      (front ++ middle ++ ')' :: back).count ')' := by
    simp only [List.count_append, List.count_cons, Char.reduceBEq, Bool.false_eq_true, reduceIte]
    omega
  have hbefore : ')' ∉ front ++ middle := by
    rw [← List.count_eq_zero, List.count_append]
    omega
  have hothers := inspect_without_parenthesis hrows (by decide) h
  rw [← List.append_assoc] at hothers
  exact hothers.trans (parenthesisFindings_line_of_gt hbefore hless)

/-- Without its closing parenthesis a call leaves its line with one too few. -/
theorem inspect_without_close (h : sheet.row.text = front ++ ')' :: back) :
    inspect (sheet.source (front ++ back)) =
      [.about .missingCloseParen (lineEnd sheet.index (sheet.line (front ++ back)))
        (lineEnd sheet.index (sheet.line (front ++ back)))
        (Text.trim (sheet.line (front ++ back)))] := by
  obtain ⟨hopens, hcloses⟩ := (callText_row hrows h).count_parenthesis
  simp only [List.count_append, List.count_cons, Char.reduceBEq, Bool.false_eq_true, reduceIte]
    at hopens hcloses
  have hless : (front ++ back).count ')' < (front ++ back).count '(' := by
    simp only [List.count_append]
    omega
  exact (inspect_without_parenthesis hrows (by decide) h).trans
    (parenthesisFindings_line_of_lt hless)

/-- A key that is no number in range is found from bracket to bracket. -/
theorem inspect_with_key (h : sheet.row.text = front ++ '<' :: (content ++ '>' :: back))
    (hcontent : '>' ∉ content) {key : List Char} (hkey : BadKey key) :
    inspect (sheet.source (front ++ '<' :: (key ++ '>' :: back))) =
      [.about .invalidKey (sheet.place front.length)
        (sheet.place (front.length + ('<' :: key ++ ['>']).length)) ('<' :: key ++ ['>'])] := by
  have hcall := callText_row hrows h
  obtain ⟨hgreater, hkeyline, hkeyopen, hkeyclose⟩ := hkey.plain
  obtain ⟨hsound, hpass, hpass'⟩ := hcall.around_key hcontent
  have hnewline : '\n' ∉ front ++ '<' :: (key ++ '>' :: back) := by
    have hwhole := hcall.newline_not_mem
    simp only [List.mem_append, List.mem_cons, not_or] at hwhole ⊢
    exact ⟨hwhole.1, hwhole.2.1, hkeyline, hwhole.2.2.2⟩
  have hnone : ∀ text ∈ keyTexts, text.count '(' = 0 ∧ text.count ')' = 0 := by decide
  obtain ⟨hnoopen, hnoclose⟩ := hnone _ hsound
  obtain ⟨hopens, hcloses⟩ := hcall.count_parenthesis
  simp only [List.count_append, List.count_cons, List.count_nil, Char.reduceBEq,
    Bool.false_eq_true, reduceIte] at hopens hcloses hnoopen hnoclose
  have hbalanced : (front ++ '<' :: (key ++ '>' :: back)).count '(' =
      (front ++ '<' :: (key ++ '>' :: back)).count ')' := by
    simp only [List.count_append, List.count_cons, Char.reduceBEq, Bool.false_eq_true, reduceIte,
      List.count_eq_zero.mpr hkeyopen, List.count_eq_zero.mpr hkeyclose]
    omega
  have hparens : (sheet.trimmed (front ++ '<' :: (key ++ '>' :: back))).parenthesisFindings = [] :=
    parenthesisFindings_line_of_eq hbalanced
  have hkeys : (sheet.trimmed (front ++ '<' :: (key ++ '>' :: back))).keyFindings = _ :=
    keyFindings_line_of_bad hpass hpass' hkey.nonempty hgreater
      (Bool.eq_false_iff.mpr fun hnumber => hkey.not_number (isKeyNumber_iff.mp hnumber))
  have hwords : (sheet.trimmed (front ++ '<' :: (key ++ '>' :: back))).wordFindings = [] := by
    obtain ⟨gap, hfront, hgap, hrest⟩ := hcall.exists_name (by decide)
    rw [List.any_append, List.any_cons, Bool.or_eq_false_iff, Bool.or_eq_false_iff] at hrest
    rw [hfront]
    exact wordFindings_line_of_key sheet.row.call hgap hrest.2.2 hkey.words
  rw [inspect_eq hrows hnewline, hparens, hkeys, hwords]
  rfl

/-- A name that only resembles a keyword is found, as far as it goes. -/
theorem inspect_with_name (h : sheet.row.text = sheet.row.call.op.keyword.toList ++ back)
    {name : List Char} (hname : BadName name) :
    inspect (sheet.source (name ++ back)) =
      [.about .unknownOperation (sheet.place 0) (sheet.place name.length) name] := by
  have hcall := callText_row hrows h
  obtain ⟨hrest, hpass⟩ := hcall.behind_name
  have hletter : ∀ c : Char, c.isAlpha = false → c ∉ name := fun _ =>
    not_mem_of_letters hname.letters
  have hnewline : '\n' ∉ name ++ back := by
    have hwhole := hcall.newline_not_mem
    rw [List.mem_append, not_or] at hwhole ⊢
    exact ⟨hletter '\n' (by decide), hwhole.2⟩
  have hnone : ∀ keyword ∈ Operation.keywords, keyword.count '(' = 0 ∧ keyword.count ')' = 0 := by
    decide
  obtain ⟨hnoopen, hnoclose⟩ := hnone _ sheet.row.call.op.keyword_mem
  obtain ⟨hopens, hcloses⟩ := hcall.count_parenthesis
  rw [List.count_append] at hopens hcloses
  have hbalanced : (name ++ back).count '(' = (name ++ back).count ')' := by
    rw [List.count_append, List.count_append, List.count_eq_zero.mpr (hletter '(' (by decide)),
      List.count_eq_zero.mpr (hletter ')' (by decide))]
    omega
  have hparens : (sheet.trimmed (name ++ back)).parenthesisFindings = [] :=
    parenthesisFindings_line_of_eq hbalanced
  have hkeys : (sheet.trimmed (name ++ back)).keyFindings = [] :=
    keyFindings_line_eq_nil ((passes_keys_of_not_mem (hletter '<' (by decide))
      (hletter '>' (by decide))).append hpass)
  have hwords : (sheet.trimmed (name ++ back)).wordFindings = _ :=
    (wordFindings_line_of_name hname.ne_nil hname.letters hrest).trans
      (if_pos (isMisspeltKeyword_iff.mpr hname.misspelt))
  rw [inspect_eq hrows hnewline, hparens, hkeys, hwords]
  rfl

end

/-- Of a sheet with a slip in one call, that slip is found at its place, and
nothing else is. -/
theorem inspect_slip {sheet : Sheet} (hrows : ∀ row ∈ sheet.rows, row.IsCall) :
    (∀ front middle back, sheet.row.text = front ++ '(' :: (middle ++ ')' :: back) →
      inspect (sheet.source (front ++ middle ++ ')' :: back)) =
        [.about .missingOpenParen (sheet.place (front ++ middle).length)
          (sheet.place ((front ++ middle).length + 1))
          (Text.trim (sheet.line (front ++ middle ++ ')' :: back)))]) ∧
    (∀ front back, sheet.row.text = front ++ ')' :: back →
      inspect (sheet.source (front ++ back)) =
        [.about .missingCloseParen (lineEnd sheet.index (sheet.line (front ++ back)))
          (lineEnd sheet.index (sheet.line (front ++ back)))
          (Text.trim (sheet.line (front ++ back)))]) ∧
    (∀ front content back key, sheet.row.text = front ++ '<' :: (content ++ '>' :: back) →
      '>' ∉ content → BadKey key →
      inspect (sheet.source (front ++ '<' :: (key ++ '>' :: back))) =
        [.about .invalidKey (sheet.place front.length)
          (sheet.place (front.length + ('<' :: key ++ ['>']).length)) ('<' :: key ++ ['>'])]) ∧
    ∀ back name, sheet.row.text = sheet.row.call.op.keyword.toList ++ back → BadName name →
      inspect (sheet.source (name ++ back)) =
        [.about .unknownOperation (sheet.place 0) (sheet.place name.length) name] :=
  ⟨fun _ _ _ => inspect_without_open hrows, fun _ _ => inspect_without_close hrows,
    fun _ _ _ _ h hcontent => inspect_with_key hrows h hcontent,
    fun _ _ h => inspect_with_name hrows h⟩

/-- Three calls, the second of them between blanks of several kinds. -/
def ferry : Sheet where
  opening := .ofChars [] [] ['\r']
  before := [⟨.ofChars ['\t'] [] [], .setSink (.above 1), "setSink(<0>)".toList⟩]
  row := ⟨.ofChars ['\u3000', ' '] [' '] ['\u0085'], .transitive (.above 2) (.above 0),
    "transitive (<1>, <-1> )".toList⟩
  behind := [⟨.ofChars [] [] [], .sanitize (.above 10), "sanitize(<9>)".toList⟩]
  closing := .ofChars [] [] [' ']

theorem isCall_ferry : ∀ row ∈ ferry.rows, row.IsCall := by
  have hsink : CallText (.setSink (.above 1)) "setSink(<0>)".toList :=
    .cons [] (by decide) (.cons [] (by decide) (.cons [] (by decide) .last))
  have htransitive : CallText (.transitive (.above 2) (.above 0))
      "transitive (<1>, <-1> )".toList :=
    .cons [' '] (by decide) (.cons [] (by decide) (.cons [] (by decide)
      (.cons [' '] (by decide) (.cons [' '] (by decide) .last))))
  have hsanitize : CallText (.sanitize (.above 10)) "sanitize(<9>)".toList :=
    .cons [] (by decide) (.cons [] (by decide) (.cons [] (by decide) .last))
  exact List.forall_mem_cons.mpr ⟨hsink, List.forall_mem_cons.mpr ⟨htransitive,
    List.forall_mem_singleton.mpr hsanitize⟩⟩

/-- A key too short to hold a misspelt keyword. -/
theorem badKey_short : BadKey "x<é".toList where
  nonempty := by decide
  plain := by decide
  not_number := by
    rintro ⟨d, -, hone | htwo⟩
    · have hlength : 3 = 1 := congrArg List.length hone
      omega
    · have hlength : 3 = 2 := congrArg List.length htwo
      omega
  words := by
    rintro before word behind hkey - ⟨⟨fragment, hfragment, hinfix⟩, -⟩
    have hlong : ∀ fragment ∈ Operation.fragments, 4 ≤ fragment.length := by decide
    have hlength : "x<é".toList.length = (before ++ word ++ behind).length := congrArg _ hkey
    rw [List.length_append, List.length_append] at hlength
    have hthree : "x<é".toList.length = 3 := by decide
    have := hlong fragment hfragment
    have := hinfix.length_le
    omega

theorem badName_swapTaunt : BadName "swapTaunt".toList where
  letters := List.all_eq_true.mp (by decide)
  misspelt := isMisspeltKeyword_iff.mp (by decide)

/-- Each slip in the second of the three calls. -/
theorem inspect_slip_ferry :
    (∀ row ∈ ferry.rows, row.IsCall) ∧
    inspect (ferry.source ("transitive ".toList ++ "<1>, <-1> ".toList ++ [')'])) =
      [.about .missingOpenParen ⟨2, 23⟩ ⟨2, 24⟩ "transitive <1>, <-1> ) ,".toList] ∧
    inspect (ferry.source ("transitive (<1>, <-1> ".toList ++ [])) =
      [.about .missingCloseParen ⟨2, 26⟩ ⟨2, 26⟩ "transitive (<1>, <-1>  ,".toList] ∧
    BadKey "x<é".toList ∧
    inspect (ferry.source ("transitive (<1>, ".toList ++ '<' :: ("x<é".toList ++ '>' :: " )".toList))) =
      [.about .invalidKey ⟨2, 19⟩ ⟨2, 24⟩ "<x<é>".toList] ∧
    BadName "swapTaunt".toList ∧
    inspect (ferry.source ("swapTaunt".toList ++ " (<1>, <-1> )".toList)) =
      [.about .unknownOperation ⟨2, 2⟩ ⟨2, 11⟩ "swapTaunt".toList] := by
  obtain ⟨hopen, hclose, hkey, hname⟩ := inspect_slip isCall_ferry
  refine ⟨isCall_ferry, ?_, ?_, badKey_short, ?_, badName_swapTaunt, ?_⟩
  · exact (hopen "transitive ".toList "<1>, <-1> ".toList [] (by decide)).trans (by decide +kernel)
  · exact (hclose "transitive (<1>, <-1> ".toList [] (by decide)).trans (by decide +kernel)
  · exact (hkey "transitive (<1>, ".toList "-1".toList " )".toList "x<é".toList (by decide)
      (by decide) badKey_short).trans (by decide +kernel)
  · exact (hname " (<1>, <-1> )".toList "swapTaunt".toList (by decide) badName_swapTaunt).trans
      (by decide +kernel)

end Sheet

end Summary
end TaintFlow
