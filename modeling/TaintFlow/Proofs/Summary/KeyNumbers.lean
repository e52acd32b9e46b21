/-
Numbers in keys: what the inspection accepts, and what the grammar does.

The grammar of summaries lists the numbers of a key one by one, from -1 to 9
(`Bundled.mem_keyTexts_iff`).  The inspection asks for one digit, perhaps after a
minus sign.  So it reports every key that the grammar has no number for, but for
those with a minus sign in front of a digit other than 1
(`keyReported_iff`, `not_keyReported_iff_not_mem_keyTexts`).
-/
import TaintFlow.Artifact.Bundled
import TaintFlow.Proofs.Summary.Keys
import TaintFlow.Proofs.Summary.Neighbours
import TaintFlow.Proofs.Summary.WholeLine

namespace TaintFlow

/-! ## Numbers of the grammar -/

/-- What stands under the field of that name in a tree. -/
def Rule.field? (rule : Rule) (name : String) : Option Rule :=
  (rule.walk.find? fun node => node.fieldName = some name).bind Rule.content

/-- The fixed texts among the members of a rule. -/
def Rule.fixedTexts (rule : Rule) : List String := rule.members.filterMap Rule.stringValue

/-- The fixed texts that a grammar has for the number of a key. -/
def Grammar.keyTexts (grammar : Grammar) : List String :=
  (((grammar.rule? "key").bind (·.field? "number")).map Rule.fixedTexts).getD []

namespace Bundled

theorem keyTexts_grammar : grammar.keyTexts = keyNumbers := by decide +kernel

theorem keyNumbers_eq :
    keyNumbers = (List.range 11).map fun i : Nat => toString ((i : Int) - 1) := by
  decide +kernel

/-- The grammar has the numbers from -1 to 9, in decimal digits. -/
theorem mem_keyTexts_iff {text : String} :
    text ∈ grammar.keyTexts ↔ ∃ n : Int, -1 ≤ n ∧ n ≤ 9 ∧ text = toString n := by
  rw [keyTexts_grammar, keyNumbers_eq, List.mem_map]
  constructor
  · rintro ⟨i, hi, rfl⟩
    rw [List.mem_range] at hi
    exact ⟨i - 1, by omega, by omega, rfl⟩
  · rintro ⟨n, hge, hle, rfl⟩
    refine ⟨(n + 1).toNat, List.mem_range.mpr (by omega), ?_⟩
    rw [Int.toNat_of_nonneg (by omega), Int.add_sub_cancel]

theorem mem_digits_iff {d : Char} : d ∈ "0123456789".toList ↔ d.isDigit = true := by
  constructor
  · exact List.all_eq_true.mp (by decide) d
  · intro h
    have hall : ∀ i < 10, Char.ofNat (48 + i) ∈ "0123456789".toList := by decide
    rw [Char.isDigit, Bool.and_eq_true, decide_eq_true_iff, decide_eq_true_iff] at h
    have hge : 48 ≤ d.toNat := h.1
    have hle : d.toNat ≤ 57 := h.2
    rw [← Char.ofNat_toNat d, ← Nat.add_sub_of_le hge]
    exact hall _ (by omega)

/-- The numbers of the grammar are the digits and -1. -/
theorem ofList_mem_keyTexts_iff {content : List Char} :
    String.ofList content ∈ grammar.keyTexts ↔
      (∃ d, d.isDigit = true ∧ content = [d]) ∨ content = ['-', '1'] := by
  have htexts : keyNumbers = "-1" :: "0123456789".toList.map fun d => String.ofList [d] := by
    decide +kernel
  have hminus : "-1" = String.ofList ['-', '1'] := by decide
  rw [keyTexts_grammar, htexts, List.mem_cons, List.mem_map, hminus, String.ofList_inj, or_comm]
  refine or_congr_left (exists_congr fun d => ?_)
  rw [mem_digits_iff, String.ofList_inj, eq_comm (a := content)]

end Bundled

namespace Summary

/-! ## Numbers that the inspection accepts -/

/-- Some finding says of the key behind `before` that it is invalid. -/
def KeyReported (source : String) (row : Nat) (before content : List Char) : Prop :=
  ∃ finding ∈ inspect source, finding.kind = .invalidKey ∧
    finding.start = ⟨row, before.length⟩ ∧
    finding.finish = ⟨row, before.length + ('<' :: content ++ ['>']).length⟩

theorem isInvalidKey_iff {content : List Char} :
    Line.isInvalidKey ('<' :: content ++ ['>']) = true ↔
      ¬ ∃ d, d.isDigit = true ∧ (content = [d] ∨ content = ['-', d]) := by
  have hcontent : keyContent ('<' :: content ++ ['>']) = content := List.dropLast_concat
  rw [Line.isInvalidKey, hcontent, Bool.not_eq_true', ← Bool.not_eq_true, isKeyNumber_iff]

/-- On a line the inspection finds the keys that are no numbers. -/
theorem mem_inspect_invalidKey_iff {source : String} {above below : List (List Char)}
    {raw : List Char} (hlines : Text.lines source.toList = above ++ raw :: below)
    {finding : Finding} (hkind : finding.kind = .invalidKey)
    (hrow : finding.start.row = above.length) :
    finding ∈ inspect source ↔ ∃ span ∈ keySpans raw, Line.isInvalidKey (span.text raw) = true ∧
      finding = .about .invalidKey ⟨above.length, span.start⟩ ⟨above.length, span.stop⟩
        (span.text raw) := by
  have hbrace : finding.kind.isBrace = false := by
    rw [hkind]
    rfl
  rw [mem_inspect_iff_of_row hbrace hlines hrow, ← mem_spanFindings_iff, ← keyFindings_trimmed]
  exact ⟨fun h => Line.mem_keyFindings_of_kind h hkind, fun h =>
    List.mem_append_left _ (List.mem_append_right _ h)⟩

/-- The inspection reports a key that is neither a digit nor a minus sign and a
digit. -/
theorem keyReported_iff_not_digit {source : String} {row : Nat} {before content behind : List Char}
    (hline : (Text.lines source.toList)[row]? =
      some (before ++ ('<' :: content ++ ['>']) ++ behind))
    (hkey : KeyBetween before content) :
    KeyReported source row before content ↔
      ¬ ∃ d, d.isDigit = true ∧ (content = [d] ∨ content = ['-', d]) := by
  obtain ⟨above, below, hlines, rfl⟩ := Text.exists_lines_around hline
  have htext := Span.text_append before ('<' :: content ++ ['>']) behind
  rw [← isInvalidKey_iff]
  constructor
  · rintro ⟨finding, hmem, hkind, hstart, hfinish⟩
    have hrow : finding.start.row = above.length := congrArg Position.row hstart
    obtain ⟨⟨start, stop⟩, -, hbad, rfl⟩ :=
      (mem_inspect_invalidKey_iff hlines hkind hrow).mp hmem
    have hstart : start = before.length := congrArg Position.column hstart
    have hstop : stop = before.length + ('<' :: content ++ ['>']).length :=
      congrArg Position.column hfinish
    rw [hstart, hstop, htext] at hbad
    exact hbad
  · intro hbad
    rw [← htext] at hbad
    exact ⟨_, (mem_inspect_invalidKey_iff hlines rfl rfl).mpr
      ⟨_, mem_keySpans_of_keyBetween hkey behind, hbad, rfl⟩, rfl, rfl, rfl⟩

/-- The inspection reports a key that the grammar has no number for, but not with a
minus sign in front of one digit; and the grammar has the numbers from -1 to 9. -/
theorem keyReported_iff {source : String} {row : Nat} {before content behind : List Char}
    (hline : (Text.lines source.toList)[row]? =
      some (before ++ ('<' :: content ++ ['>']) ++ behind))
    (hkey : KeyBetween before content) :
    (KeyReported source row before content ↔
      String.ofList content ∉ Bundled.grammar.keyTexts ∧
        ¬ ∃ d, d.isDigit = true ∧ content = ['-', d]) ∧
    (String.ofList content ∈ Bundled.grammar.keyTexts ↔
      ∃ n : Int, -1 ≤ n ∧ n ≤ 9 ∧ String.ofList content = toString n) := by
  refine ⟨?_, Bundled.mem_keyTexts_iff⟩
  have hone : content = ['-', '1'] → ∃ d, d.isDigit = true ∧ content = ['-', d] :=
    fun h => ⟨'1', by decide, h⟩
  rw [keyReported_iff_not_digit hline hkey, Bundled.ofList_mem_keyTexts_iff, ← not_or, not_iff_not]
  simp only [and_or_left, exists_or]
  rw [or_assoc, or_iff_right_of_imp hone]

/-- A bracket too many behind a sound key, on the second row. -/
theorem keyReported_iff_doubledBracket :
    let source := "\x7b\n  transitive(<1>, <<7>) \x7d"
    let before := "  transitive(<1>, ".toList
    let content := "<7".toList
    (Text.lines source.toList)[1]? =
        some (before ++ ('<' :: content ++ ['>']) ++ ") \x7d".toList) ∧
      KeyBetween before content ∧ KeyReported source 1 before content := by
  have hline : (Text.lines "\x7b\n  transitive(<1>, <<7>) \x7d".toList)[1]? =
      some ("  transitive(<1>, ".toList ++ ('<' :: "<7".toList ++ ['>']) ++ ") \x7d".toList) := by
    decide
  have hkey : KeyBetween "  transitive(<1>, ".toList "<7".toList := by
    refine ⟨by decide, by decide, "  transitive(<1>".toList, ", ".toList, by decide, ?_, by decide,
      by decide⟩
    exact fun c hc => (Option.some_inj.mp hc).symm
  have hminus : ¬ ∃ d, d.isDigit = true ∧ "<7".toList = ['-', d] := by
    rintro ⟨d, -, h⟩
    have hhead : some '<' = some '-' := congrArg List.head? h
    exact absurd hhead (by decide)
  exact ⟨hline, hkey, (keyReported_iff hline hkey).1.mpr ⟨by decide +kernel, hminus⟩⟩

/-- The inspection and the grammar do not agree on the numbers of keys. -/
theorem not_keyReported_iff_not_mem_keyTexts :
    ¬ ∀ (source : String) (row : Nat) (before content behind : List Char),
      (Text.lines source.toList)[row]? = some (before ++ ('<' :: content ++ ['>']) ++ behind) →
      KeyBetween before content →
      (KeyReported source row before content ↔
        String.ofList content ∉ Bundled.grammar.keyTexts) := by
  intro h
  have hkey : KeyBetween "\x7b setSink(".toList "-5".toList := by
    refine ⟨by decide, by decide, [], "\x7b setSink(".toList, by decide, ?_, by decide, by decide⟩
    exact fun c hc => nomatch hc
  have hiff := h "\x7b setSink(<-5>) \x7d" 0 "\x7b setSink(".toList "-5".toList ") \x7d".toList
    (by decide) hkey
  obtain ⟨finding, hmem, -⟩ := hiff.mpr (by decide +kernel)
  have hnone : inspect "\x7b setSink(<-5>) \x7d" = [] := by decide +kernel
  rw [hnone] at hmem
  cases hmem

end Summary
end TaintFlow
