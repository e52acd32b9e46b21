/-
A comma left out between two calls.

The line of a call that should have a comma behind it, and has none, is judged by
whether any comma is on it.  A call with one key has none, so the comma is missed
at the end of its line; a call with two keys has one between them, and nothing is
found (`Sheet.inspect_without_comma`).  So a comma left out is not always found
(`Sheet.not_inspect_without_comma`).
-/
import TaintFlow.Proofs.Summary.Around
import TaintFlow.Proofs.Summary.Rows

namespace TaintFlow
namespace Summary

/-! ## Calls -/

/-- The only commas of a call are between its keys. -/
theorem CallText.comma_mem_iff {call : Call} {text : List Char} (h : CallText call text) :
    ',' ∈ text ↔ call.keys.length ≠ 1 := by
  have hkey : ∀ text ∈ keyTexts, ',' ∉ text := by decide
  rw [h.mem_iff (by decide) (by decide)]
  cases call with
  | setSink key | sanitize key => simp [Call.argumentTokens, Call.keys, hkey _ key.text_mem]
  | transitive first second | swapTaint first second => simp [Call.argumentTokens, Call.keys]

theorem Operation.trimEnd_keyword_append (op : Operation) (rest : List Char) :
    Text.trimEnd (op.keyword.toList ++ rest) = op.keyword.toList ++ Text.trimEnd rest := by
  have hletter : ∀ keyword ∈ Operation.keywords, ∃ init last,
      keyword = init ++ [last] ∧ Text.isBlank last = false := by
    intro keyword hkeyword
    refine ⟨keyword.dropLast, keyword.getLastD ' ', ?_⟩
    revert keyword
    decide
  obtain ⟨init, last, hconcat, hlast⟩ := hletter _ op.keyword_mem
  rw [hconcat, List.append_assoc, List.append_assoc]
  exact Text.trimEnd_append_cons hlast init rest

/-- The line of a call starts with an operation. -/
theorem Row.startsOperation_line {row : Row} (h : row.IsCall) (comma : Bool) :
    startsOperation (Text.trim (row.line comma)) = true := by
  obtain ⟨gap, arguments, htext, -⟩ := h.exists_append
  obtain ⟨c, letters, hcons, hc⟩ := row.call.op.keyword_eq_cons
  have hblank : Text.isBlank c = false := Bool.eq_false_iff.mpr fun hblank => by
    rw [Text.isAlpha_of_isBlank hblank] at hc
    cases hc
  have hlead : ∀ c ∈ row.lead, Text.isBlank c = true := fun c hmem =>
    (isInlineBlank_iff.mp (row.isInlineBlank_of_mem (List.mem_append_left _ hmem))).1
  have hstart : Text.trimStart (row.line comma) =
      row.call.op.keyword.toList ++ (gap ++ arguments ++ row.toMargin.behind comma) := by
    rw [line, Margin.line, htext, List.append_assoc, List.append_assoc, hcons, List.cons_append]
    exact Text.trimStart_append_cons hlead hblank _
  have htrim : Text.trim (row.line comma) = row.call.op.keyword.toList ++
      Text.trimEnd (gap ++ arguments ++ row.toMargin.behind comma) := by
    rw [Text.trim, hstart, Operation.trimEnd_keyword_append]
  rw [htrim]
  refine List.any_eq_true.mpr ⟨_, row.call.op.keyword_mem, ?_⟩
  exact List.isPrefixOf_iff_prefix.mpr (List.prefix_append _ _)

/-- Without a comma behind it, a call with one key misses one if an operation is on
the next line. -/
theorem Row.commaFindings_trimmed {row : Row} (h : row.IsCall) {next : List Char}
    (hnext : startsOperation (Text.trim next) = true) (index : Nat) :
    (Line.trimmed index (row.line false)).commaFindings next =
      if row.call.keys.length = 1 then
        [.about .missingComma (lineEnd index (row.line false)) (lineEnd index (row.line false))
          (Text.trim (row.line false))]
      else [] := by
  have hmem : ∀ c, isInlineBlank c = false → (c ∈ row.line false ↔ c ∈ row.text) :=
    fun c hc => row.mem_line_iff false hc nofun
  have hclose : ')' ∈ row.line false := by
    obtain ⟨written, htext⟩ := h.exists_append_close
    rw [hmem ')' (by decide), htext]
    exact List.mem_concat_self
  have hbrace : '\x7d' ∉ row.line false := by
    rw [hmem '\x7d' (by decide)]
    exact CallText.not_mem h (by decide) (by decide) (by decide) (by decide)
  -- the test for a comma looks at the whole line, so it finds the one between two keys
  have hcomma : ',' ∉ row.line false ↔ row.call.keys.length = 1 := by
    rw [hmem ',' (by decide), CallText.comma_mem_iff h, Decidable.not_not]
  rw [Summary.commaFindings_trimmed]
  simp only [hclose, hbrace, hnext, hcomma, true_and, not_false_eq_true, and_true]

namespace Sheet

variable {sheet : Sheet}

theorem startsOperation_next (hrows : ∀ row ∈ sheet.behind, row.IsCall)
    (hbehind : sheet.behind ≠ []) : startsOperation (Text.trim sheet.next) = true := by
  obtain ⟨next, rest, hnext⟩ := List.exists_cons_of_ne_nil hbehind
  rw [hnext, List.forall_mem_cons] at hrows
  rw [Sheet.next, hnext]
  cases rest with
  | nil => exact Row.startsOperation_line hrows.1 false
  | cons => exact Row.startsOperation_line hrows.1 true

/-- The summary with no comma behind the call of the row. -/
def sourceWithoutComma (sheet : Sheet) : String :=
  sheet.ofLines (sheet.before.map (·.line true) ++ sheet.row.line false :: rowLines sheet.behind)

/-- Of a sheet on which the comma behind a call is left out, that comma is found
to be missing at the end of the line, unless the call has two keys: then nothing
is. -/
theorem inspect_without_comma (hrows : ∀ row ∈ sheet.rows, row.IsCall)
    (hbehind : sheet.behind ≠ []) :
    inspect sheet.sourceWithoutComma =
      if sheet.row.call.keys.length = 1 then
        [.about .missingComma (lineEnd sheet.index (sheet.row.line false))
          (lineEnd sheet.index (sheet.row.line false)) (Text.trim (sheet.row.line false))]
      else [] := by
  rw [rows, List.forall_mem_append, List.forall_mem_cons] at hrows
  obtain ⟨hbefore, hcall, hrest⟩ := hrows
  have hwoven : Woven false (Line.trimmed sheet.index (sheet.row.line false)).text true :=
    (Row.woven hcall false).trim
  have hcommas := Row.commaFindings_trimmed hcall (startsOperation_next hrest hbehind) sheet.index
  rw [sourceWithoutComma, inspect_ofLines hbefore hrest (Row.newline_not_mem hcall false),
    Line.findings, hcommas, parenthesisFindings_eq_nil hwoven, keyFindings_eq_nil hwoven,
    wordFindings_eq_nil hwoven, List.append_nil, List.append_nil, List.append_nil]

/-- A call on the line above `sanitize(<3>)`. -/
def aboveSanitize (row : Row) : Sheet where
  opening := .ofChars [] [] []
  before := []
  row := row
  behind := [⟨.ofChars [' ', ' '] [] [], .sanitize (.above 4), "sanitize(<3>)".toList⟩]
  closing := .ofChars [] [] []

theorem isCall_aboveSanitize {row : Row} (h : row.IsCall) :
    ∀ other ∈ (aboveSanitize row).rows, other.IsCall := by
  have hsanitize : CallText (.sanitize (.above 4)) "sanitize(<3>)".toList :=
    .cons [] (by decide) (.cons [] (by decide) (.cons [] (by decide) .last))
  exact List.forall_mem_cons.mpr ⟨h, List.forall_mem_singleton.mpr hsanitize⟩

def sink : Row where
  toMargin := .ofChars ['\u3000'] [' '] ['\u0085']
  call := .setSink (.above 0)
  text := "setSink( <-1>)".toList

theorem isCall_sink : sink.IsCall :=
  .cons [] (by decide) (.cons [' '] (by decide) (.cons [] (by decide) .last))

/-- Behind a call with one key the comma is missed. -/
theorem inspect_without_comma_sink :
    (∀ row ∈ (aboveSanitize sink).rows, row.IsCall) ∧ (aboveSanitize sink).behind ≠ [] ∧
    inspect (aboveSanitize sink).sourceWithoutComma =
      [.about .missingComma ⟨1, 15⟩ ⟨1, 15⟩ "setSink( <-1>)".toList] :=
  ⟨isCall_aboveSanitize isCall_sink, List.cons_ne_nil _ _,
    (inspect_without_comma (isCall_aboveSanitize isCall_sink) (List.cons_ne_nil _ _)).trans
      (by decide +kernel)⟩

def transfer : Row where
  toMargin := .ofChars [' ', ' '] [] []
  call := .transitive (.above 2) (.above 3)
  text := "transitive(<1>, <2>)".toList

theorem isCall_transfer : transfer.IsCall :=
  .cons [] (by decide) (.cons [] (by decide) (.cons [] (by decide) (.cons [' '] (by decide)
    (.cons [] (by decide) .last))))

/-- Not every comma left out is found: behind a call with two keys none is missed. -/
theorem not_inspect_without_comma :
    ¬ ∀ sheet : Sheet, (∀ row ∈ sheet.rows, row.IsCall) → sheet.behind ≠ [] →
      ∃ code, inspect sheet.sourceWithoutComma =
        [.about .missingComma (lineEnd sheet.index (sheet.row.line false))
          (lineEnd sheet.index (sheet.row.line false)) code] := by
  intro hfound
  obtain ⟨code, hcode⟩ :=
    hfound (aboveSanitize transfer) (isCall_aboveSanitize isCall_transfer) (List.cons_ne_nil _ _)
  have hsource : (aboveSanitize transfer).sourceWithoutComma =
      "\x7b\n  transitive(<1>, <2>)\n  sanitize(<3>)\n\x7d" := by decide +kernel
  have hsilent : inspect "\x7b\n  transitive(<1>, <2>)\n  sanitize(<3>)\n\x7d" = [] := by
    decide +kernel
  rw [hsource, hsilent] at hcode
  exact List.cons_ne_nil _ _ hcode.symm

end Sheet

end Summary
end TaintFlow
