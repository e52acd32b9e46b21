/-
Summaries with a row for each call.

A sheet is a summary whose braces and calls stand on lines of their own, with one
row singled out.  `Sheet.source` puts a text on that row in place of its call, so
a slip in one call is that text.  As long as all other rows hold the calls they
are for, the findings of the sheet are those of that row and no others
(`Sheet.inspect_source`).
-/
import TaintFlow.Proofs.Summary.Silence
import TaintFlow.Proofs.Summary.WholeLine

namespace TaintFlow
namespace Summary

/-- The blanks on a line: in front of a text, behind it, and behind the comma
that follows the text. -/
structure Margin where
  lead : List Char
  gap : List Char
  tail : List Char
  blank : (lead ++ (gap ++ tail)).all isInlineBlank = true

/-- The blanks among some characters. -/
def Margin.ofChars (lead gap tail : List Char) : Margin where
  lead := lead.filter isInlineBlank
  gap := gap.filter isInlineBlank
  tail := tail.filter isInlineBlank
  blank := by
    rw [← List.filter_append, ← List.filter_append]
    exact List.all_eq_true.mpr fun c hc => (List.mem_filter.mp hc).2

/-- The key that many steps above -1. -/
def Key.above (steps : Nat) : Key where
  number := (steps % 11 : Nat) - 1
  least := by omega
  greatest := by omega

/-- What stands behind the text of a line. -/
def Margin.behind (margin : Margin) (comma : Bool) : List Char :=
  margin.gap ++ ((if comma then [','] else []) ++ margin.tail)

def Margin.line (margin : Margin) (text : List Char) (comma : Bool) : List Char :=
  margin.lead ++ text ++ margin.behind comma

/-- A line for a call, with a text in place of it. -/
structure Row extends Margin where
  call : Call
  text : List Char

namespace Row

def line (row : Row) (comma : Bool) : List Char := row.toMargin.line row.text comma

/-- The row holds the call it is for. -/
def IsCall (row : Row) : Prop := CallText row.call row.text

end Row

/-- The lines of some rows, with a comma on each but the last. -/
def rowLines : List Row → List (List Char)
  | [] => []
  | [row] => [row.line false]
  | row :: next :: rest => row.line true :: rowLines (next :: rest)

/-- A summary with a line for each brace and each call, and one row singled out. -/
structure Sheet where
  opening : Margin
  before : List Row
  row : Row
  behind : List Row
  closing : Margin

namespace Sheet

variable (sheet : Sheet)

def rows : List Row := sheet.before ++ sheet.row :: sheet.behind

/-- A text that has the rows' lines between those of the braces. -/
def ofLines (lines : List (List Char)) : String :=
  String.ofList (['\n'].intercalate
    (sheet.opening.line ['\x7b'] false :: (lines ++ [sheet.closing.line ['\x7d'] false])))

/-- The summary with a text in place of the call of the row. -/
def source (text : List Char) : String :=
  sheet.ofLines (rowLines (sheet.before ++ { sheet.row with text } :: sheet.behind))

/-- The line of the row, with a text in place of its call. -/
def line (text : List Char) : List Char :=
  { sheet.row with text }.line (!sheet.behind.isEmpty)

/-- The number of lines above the row. -/
def index : Nat := sheet.before.length + 1

/-- The line under the row. -/
def next : List Char :=
  (rowLines sheet.behind ++ [sheet.closing.line ['\x7d'] false]).headD []

/-- The place on the line of the row that many characters behind its indent. -/
def place (column : Nat) : Position := ⟨sheet.index, sheet.row.lead.length + column⟩

end Sheet

/-! ## Lines between margins -/

namespace Margin

variable (margin : Margin) (comma : Bool)

theorem isInlineBlank_of_mem {c : Char} (h : c ∈ margin.lead ++ (margin.gap ++ margin.tail)) :
    isInlineBlank c = true :=
  List.all_eq_true.mp margin.blank c h

theorem mem_behind {c : Char} (h : c ∈ margin.behind comma) :
    isInlineBlank c = true ∨ comma = true ∧ c = ',' := by
  rcases List.mem_append.mp h with h | h
  · exact .inl (margin.isInlineBlank_of_mem (List.mem_append_right _ (List.mem_append_left _ h)))
  · rcases List.mem_append.mp h with h | h
    · cases comma with
      | false => cases h
      | true => exact .inr ⟨rfl, List.mem_singleton.mp h⟩
    · exact .inl (margin.isInlineBlank_of_mem
        (List.mem_append_right _ (List.mem_append_right _ h)))

/-- Only blanks and the comma are in a margin. -/
theorem not_mem {c : Char} (hc : isInlineBlank c = false) (hcomma : comma = true → c ≠ ',') :
    c ∉ margin.lead ∧ c ∉ margin.behind comma := by
  constructor
  · intro h
    rw [margin.isInlineBlank_of_mem (List.mem_append_left _ h)] at hc
    cases hc
  · intro h
    rcases margin.mem_behind comma h with hblank | ⟨htrue, rfl⟩
    · rw [hblank] at hc
      cases hc
    · exact hcomma htrue rfl

theorem mem_line_iff {c : Char} (hc : isInlineBlank c = false) (hcomma : comma = true → c ≠ ',')
    {text : List Char} : c ∈ margin.line text comma ↔ c ∈ text := by
  obtain ⟨hlead, hbehind⟩ := margin.not_mem comma hc hcomma
  simp only [line, List.mem_append, hlead, hbehind, false_or, or_false]

end Margin

theorem Margin.newline_not_mem {margin : Margin} {text : List Char} (h : '\n' ∉ text)
    (comma : Bool) : '\n' ∉ margin.line text comma :=
  mt (margin.mem_line_iff comma (by decide) fun _ => by decide).mp h

/-- Blanks and a comma can stand around any stretch of a summary. -/
theorem Woven.margin {owed last : Bool} {text : List Char} (h : Woven owed text last)
    (margin : Margin) (comma : Bool) :
    Woven owed (margin.line text comma) (!comma && last) := by
  have hblank : ∀ blanks : List Char, (∀ c ∈ blanks, c ∈ margin.lead ++ (margin.gap ++ margin.tail)) →
      ∀ owed, Woven owed blanks owed := by
    intro blanks hblanks
    refine Woven.of_blank (List.all_eq_true.mpr fun c hc => ?_)
    exact (isInlineBlank_iff.mp (margin.isInlineBlank_of_mem (hblanks c hc))).1
  have hlead := hblank margin.lead fun c hc => List.mem_append_left _ hc
  have hgap := hblank margin.gap fun c hc => List.mem_append_right _ (List.mem_append_left _ hc)
  have htail := hblank margin.tail fun c hc => List.mem_append_right _ (List.mem_append_right _ hc)
  refine ((hlead owed).append h).append ((hgap last).append ?_)
  cases comma with
  | false => exact htail last
  | true => exact .comma (htail false)

/-! ## Rows of calls -/

theorem rowLines_append_cons (before : List Row) (row : Row) (behind : List Row) :
    rowLines (before ++ row :: behind) =
      before.map (·.line true) ++ row.line (!behind.isEmpty) :: rowLines behind := by
  induction before with
  | nil => cases behind <;> rfl
  | cons first before ih =>
    obtain ⟨next, rest, hrest⟩ :=
      List.exists_cons_of_ne_nil (List.append_ne_nil_of_right_ne_nil before (List.cons_ne_nil row behind))
    rw [hrest] at ih
    rw [List.cons_append, hrest, rowLines, ih]
    rfl

theorem Row.newline_not_mem {row : Row} (h : row.IsCall) (comma : Bool) : '\n' ∉ row.line comma :=
  Margin.newline_not_mem (CallText.newline_not_mem h) comma

theorem Row.woven {row : Row} (h : row.IsCall) (comma : Bool) : Woven false (row.line comma) (!comma) := by
  have hcall : Woven false (row.text ++ []) true := .call h .nil
  rw [List.append_nil] at hcall
  have hline := hcall.margin row.toMargin comma
  rw [Bool.and_true] at hline
  exact hline

theorem wovenLines_rowLines {rows : List Row} (h : ∀ row ∈ rows, row.IsCall) (closing : Margin) :
    WovenLines false (rowLines rows ++ [closing.line ['\x7d'] false]) := by
  have hclosing : ∀ owed, Woven owed (closing.line ['\x7d'] false) owed := fun owed =>
    Woven.margin (.filler (by decide) .nil) closing false
  induction rows with
  | nil => exact .last (hclosing false)
  | cons row rest ih =>
    rw [List.forall_mem_cons] at h
    cases rest with
    | nil => exact .cons (Row.woven h.1 false) (.last (hclosing true))
    | cons next rest => exact .cons (Row.woven h.1 true) (ih h.2)

/-! ## The row singled out -/

/-- Lines that owe no comma are silent, whatever follows them. -/
theorem lineFindings_append_of_woven {front : List (List Char)}
    (h : ∀ line ∈ front, Woven false line false) (row : Nat) (rest : List (List Char)) :
    lineFindings row (front ++ rest) = lineFindings (row + front.length) rest := by
  induction front generalizing row with
  | nil => rfl
  | cons line front ih =>
    rw [List.forall_mem_cons] at h
    rw [List.cons_append, lineFindings, findings_eq_nil row h.1 fun _ => rfl, List.nil_append,
      ih h.2, List.length_cons, Nat.add_assoc, Nat.add_comm 1]

namespace Sheet

variable {sheet : Sheet}

theorem newline_not_mem_rowLines {rows : List Row} (h : ∀ row ∈ rows, row.IsCall) :
    ∀ line ∈ rowLines rows, '\n' ∉ line := by
  induction rows with
  | nil => exact List.forall_mem_nil _
  | cons row rest ih =>
    rw [List.forall_mem_cons] at h
    cases rest with
    | nil => exact List.forall_mem_singleton.mpr (Row.newline_not_mem h.1 false)
    | cons next rest =>
      exact List.forall_mem_cons.mpr ⟨Row.newline_not_mem h.1 true, ih h.2⟩

theorem lines_ofLines {lines : List (List Char)} (h : ∀ line ∈ lines, '\n' ∉ line) :
    Text.lines (sheet.ofLines lines).toList =
      sheet.opening.line ['\x7b'] false :: (lines ++ [sheet.closing.line ['\x7d'] false]) := by
  rw [ofLines, String.toList_ofList]
  refine List.splitOn_intercalate '\n' (List.forall_mem_cons.mpr ⟨?_, ?_⟩) (List.cons_ne_nil _ _)
  · exact Margin.newline_not_mem (by decide) false
  · refine List.forall_mem_append.mpr ⟨h, List.forall_mem_singleton.mpr ?_⟩
    exact Margin.newline_not_mem (by decide) false

theorem braceFindings_ofLines (sheet : Sheet) {lines : List (List Char)}
    (h : ∀ line ∈ lines, '\n' ∉ line) :
    braceFindings (Text.lines (sheet.ofLines lines).toList) = [] := by
  have hbrace : ∀ (margin : Margin) (brace : Char),
      (margin.line [brace] false).contains brace = true := fun _ _ =>
    List.contains_iff_mem.mpr
      (List.mem_append_left _ (List.mem_append_right _ (List.mem_singleton_self _)))
  have hopen : (Text.lines (sheet.ofLines lines).toList).any (·.contains '\x7b') = true := by
    rw [lines_ofLines h]
    exact List.any_eq_true.mpr ⟨_, List.mem_cons_self, hbrace sheet.opening '\x7b'⟩
  have hclose : (Text.lines (sheet.ofLines lines).toList).any (·.contains '\x7d') = true := by
    rw [lines_ofLines h]
    exact List.any_eq_true.mpr
      ⟨_, List.mem_cons_of_mem _ List.mem_concat_self, hbrace sheet.closing '\x7d'⟩
  rw [braceFindings, hopen, hclose]
  rfl

/-- With any text on the line of the row, its findings are all there are. -/
theorem inspect_ofLines (hbefore : ∀ row ∈ sheet.before, row.IsCall)
    (hbehind : ∀ row ∈ sheet.behind, row.IsCall) {line : List Char} (hline : '\n' ∉ line) :
    inspect (sheet.ofLines
        (sheet.before.map (·.line true) ++ line :: rowLines sheet.behind)) =
      (Line.trimmed sheet.index line).findings sheet.next := by
  have hlines : ∀ written ∈ sheet.before.map (·.line true) ++ line :: rowLines sheet.behind,
      '\n' ∉ written := by
    refine List.forall_mem_append.mpr ⟨?_, List.forall_mem_cons.mpr ⟨hline, ?_⟩⟩
    · exact List.forall_mem_map.mpr fun row hrow => Row.newline_not_mem (hbefore row hrow) true
    · exact newline_not_mem_rowLines hbehind
  have hopening : Woven false (sheet.opening.line ['\x7b'] false) false :=
    Woven.margin (.filler (by decide) .nil) sheet.opening false
  have hfront : ∀ written ∈ sheet.opening.line ['\x7b'] false :: sheet.before.map (·.line true),
      Woven false written false :=
    List.forall_mem_cons.mpr ⟨hopening, List.forall_mem_map.mpr fun row hrow =>
      Row.woven (hbefore row hrow) true⟩
  have hrest := lineFindings_eq_nil (wovenLines_rowLines hbehind sheet.closing)
  have hbrace := braceFindings_ofLines sheet hlines
  rw [inspect, hbrace, lines_ofLines hlines, List.append_nil, List.append_assoc, List.cons_append,
    ← List.cons_append, lineFindings_append_of_woven hfront, lineFindings, hrest, List.append_nil,
    List.length_cons, List.length_map, Nat.zero_add]
  rfl

theorem inspect_source (hbefore : ∀ row ∈ sheet.before, row.IsCall)
    (hbehind : ∀ row ∈ sheet.behind, row.IsCall) {text : List Char} (htext : '\n' ∉ text) :
    inspect (sheet.source text) =
      (Line.trimmed sheet.index (sheet.line text)).findings sheet.next := by
  rw [source, rowLines_append_cons]
  exact inspect_ofLines hbefore hbehind (Margin.newline_not_mem htext _)

end Sheet

end Summary
end TaintFlow
