/-
What a listing says about each finding.

A listing is a text of lines: the sentence at its top, an empty line, and then six
lines for each finding (`take_drop_listing`), so there are as many blocks of them as
findings (`blockCount_listing`).  The third of the six is the line that the finding is
on and the fourth puts a marker under it, so reading both together shows the
characters that the finding is about (`listing_marks`).
-/
import TaintFlow.Proofs.Summary.Neighbours
import TaintFlow.Proofs.Text.Lines
import TaintFlow.Summary.Listing

namespace TaintFlow
namespace Summary

/-! ## Texts of one line -/

/-- What is written out about the finding breaks no line. -/
structure Finding.OneLine (finding : Finding) : Prop where
  message : '\n' ∉ finding.message.toList
  suggestion : '\n' ∉ finding.suggestion.toList

theorem newline_not_mem_repr (n : Nat) : '\n' ∉ n.repr.toList := by
  rw [Nat.toList_repr]
  intro hmem
  exact absurd (Nat.isDigit_of_mem_toDigits (by decide) (by decide) hmem) (by decide)

theorem newline_not_mem_append {first second : String} (hfirst : '\n' ∉ first.toList)
    (hsecond : '\n' ∉ second.toList) : '\n' ∉ (first ++ second).toList := by
  rw [String.toList_append, List.mem_append, not_or]
  exact ⟨hfirst, hsecond⟩

theorem newline_not_mem_getD {lines : List (List Char)} (h : ∀ line ∈ lines, '\n' ∉ line)
    (row : Nat) : '\n' ∉ lines.getD row [] := by
  rw [List.getD_eq_getElem?_getD]
  cases hrow : lines[row]? with
  | none => exact List.not_mem_nil
  | some line => exact h line (List.mem_of_getElem? hrow)

theorem Finding.newline_not_mem_marker (finding : Finding) : '\n' ∉ finding.marker := by
  rw [marker, List.mem_append, List.mem_cons, List.mem_replicate, List.mem_replicate]
  rintro (⟨-, hblank⟩ | hcaret | ⟨-, htilde⟩)
  · exact absurd hblank (by decide)
  · exact absurd hcaret (by decide)
  · exact absurd htilde (by decide)

variable {lineOf : Nat → Nat} {sourceLines : List (List Char)}

theorem Finding.OneLine.newline_not_mem_block {finding : Finding} (h : finding.OneLine)
    (hlines : ∀ line ∈ sourceLines, '\n' ∉ line) (number line : Nat) :
    ∀ text ∈ finding.block sourceLines number line, '\n' ∉ text.toList := by
  have hline : '\n' ∉ (String.ofList (sourceLines.getD finding.start.row [])).toList := by
    rw [String.toList_ofList]
    exact newline_not_mem_getD hlines finding.start.row
  have hmarker : '\n' ∉ (String.ofList finding.marker).toList := by
    rw [String.toList_ofList]
    exact finding.newline_not_mem_marker
  have hrepr := newline_not_mem_repr
  simp only [block, blockHead, blockBody, List.forall_mem_cons]
  refine ⟨?_, ?_, ?_, ?_, ?_, by decide, List.forall_mem_nil _⟩
  · exact newline_not_mem_append (newline_not_mem_append
      (newline_not_mem_append (by decide) (hrepr _)) (by decide)) h.message
  · exact newline_not_mem_append (newline_not_mem_append
      (newline_not_mem_append (by decide) (hrepr _)) (by decide)) (hrepr _)
  · exact newline_not_mem_append (by decide) hline
  · exact newline_not_mem_append (by decide) hmarker
  · exact newline_not_mem_append (by decide) h.suggestion

theorem newline_not_mem_blocks {findings : List Finding} (h : ∀ finding ∈ findings, finding.OneLine)
    (hlines : ∀ line ∈ sourceLines, '\n' ∉ line) (number : Nat) :
    ∀ text ∈ blocks lineOf sourceLines number findings, '\n' ∉ text.toList := by
  induction findings generalizing number with
  | nil => exact List.forall_mem_nil _
  | cons finding rest ih =>
    rw [List.forall_mem_cons] at h
    exact List.forall_mem_append.mpr
      ⟨h.1.newline_not_mem_block hlines number _, ih h.2 (number + 1)⟩

/-! ## The lines of a listing -/

/-- The number of lines above the first block of a listing: those of its first
sentence, which are as many as the path has, and an empty one. -/
def linesAbove (path : Option String) : Nat :=
  (Text.lines (path.getD unknownPath).toList).length + 1

theorem length_lines_headLine (count : Nat) (path : Option String) :
    (Text.lines (headLine count path).toList ++ [[]]).length = linesAbove path := by
  have hcount : (headLine count path).toList.count '\n' =
      (path.getD unknownPath).toList.count '\n' := by
    have hrepr := List.count_eq_zero.mpr (newline_not_mem_repr count)
    have hfound : "Found ".toList.count '\n' = 0 := by decide
    have hin : " error(s) in ".toList.count '\n' = 0 := by decide
    have hcolon : ":".toList.count '\n' = 0 := by decide
    simp only [headLine, String.toList_append, List.count_append]
    omega
  rw [linesAbove, List.length_append, Text.length_lines, Text.length_lines, hcount]
  rfl

theorem lines_listing {findings : List Finding} (hne : findings ≠ [])
    (h : ∀ finding ∈ findings, finding.OneLine) (source : String) (path : Option String) :
    Text.lines (listingBy lineOf findings source path).toList =
      Text.lines (headLine findings.length path).toList ++ [[]] ++
        ((blocks lineOf (Text.lines source.toList) 1 findings).map String.toList ++ [[]]) := by
  have hlines : ∀ line ∈ Text.lines source.toList, '\n' ∉ line := fun _ =>
    Text.newline_not_mem_of_mem_lines
  have hnewline := @newline_not_mem_blocks lineOf _ _ h hlines 1
  have hblocks : (blocks lineOf (Text.lines source.toList) 1 findings).flatMap
      (fun text => Text.lines text.toList) =
      (blocks lineOf (Text.lines source.toList) 1 findings).map String.toList := by
    rw [List.map_eq_flatMap]
    exact List.flatMap_congr fun text htext => Text.lines_of_not_mem (hnewline text htext)
  have hempty : ¬ findings.isEmpty = true := mt List.isEmpty_iff.mp hne
  rw [listingBy, if_neg hempty, joinLines, Text.lines_join, List.flatMap_cons, List.flatMap_cons,
    hblocks, List.append_assoc, List.append_assoc, List.append_assoc]
  rfl

/-- The six lines of each block stand one block after the other. -/
theorem take_drop_blocks {findings : List Finding} {k : Nat} {finding : Finding}
    (h : findings[k]? = some finding) (number : Nat) :
    ((blocks lineOf sourceLines number findings).drop (6 * k)).take 6 =
      finding.block sourceLines (number + k) (lineOf finding.start.row) := by
  induction findings generalizing number k with
  | nil => cases h
  | cons first rest ih =>
    cases k with
    | zero =>
      obtain rfl : first = finding := Option.some_inj.mp h
      rfl
    | succ k =>
      -- the first block has six lines, and dropping them leaves the blocks of the rest
      have hdrop : (blocks lineOf sourceLines number (first :: rest)).drop (6 + 6 * k) =
          (blocks lineOf sourceLines (number + 1) rest).drop (6 * k) :=
        @List.drop_length_add_append _ (first.block sourceLines number _) _ (6 * k)
      rw [Nat.mul_succ, Nat.add_comm, hdrop, ih h, Nat.add_assoc, Nat.add_comm 1]

theorem take_drop_listing {findings : List Finding} (h : ∀ finding ∈ findings, finding.OneLine)
    {k : Nat} {finding : Finding} (hk : findings[k]? = some finding) (source : String)
    (path : Option String) :
    ((Text.lines (listing findings source path).toList).drop (linesAbove path + 6 * k)).take 6 =
      (finding.block (Text.lines source.toList) (k + 1) (finding.start.row + 1)).map
        String.toList := by
  have hne : findings ≠ [] := List.ne_nil_of_mem (List.mem_of_getElem? hk)
  have hblock : (((blocks (· + 1) (Text.lines source.toList) 1 findings).map String.toList).drop
      (6 * k)).take 6 =
      (finding.block (Text.lines source.toList) (k + 1) (finding.start.row + 1)).map
        String.toList := by
    rw [← List.map_drop, ← List.map_take, take_drop_blocks hk, Nat.add_comm 1]
  -- `take` and `drop` stay inside the blocks, in front of the empty line at the end
  have hlength : 6 * k + 6 ≤
      ((blocks (· + 1) (Text.lines source.toList) 1 findings).map String.toList).length := by
    have hsix := congrArg List.length hblock
    rw [List.length_take, List.length_drop] at hsix
    have hsix : min 6 _ = 6 := hsix
    omega
  rw [listing, lines_listing hne h, ← length_lines_headLine findings.length path,
    List.drop_length_add_append, List.drop_append_of_le_length (by omega),
    List.take_append_of_le_length (by rw [List.length_drop]; omega), hblock]

/-! ## Findings of an inspection -/

theorem message_eq_of_mem_inspect {source : String} {finding : Finding}
    (h : finding ∈ inspect source) : finding.message = finding.kind.message finding.code := by
  rcases List.mem_append.mp h with hline | hbrace
  · obtain ⟨index, raw, next, -, hfinding⟩ := exists_line_of_mem_lineFindings hline
    obtain ⟨kind, start, stop, code, rfl, -⟩ := Line.exists_of_mem_findings hfinding
    rfl
  · rw [braceFindings_eq, List.mem_append, mem_missedBrace_iff, mem_missedBrace_iff] at hbrace
    rcases hbrace with ⟨rfl, -⟩ | ⟨rfl, -⟩ <;> rfl

/-- Only for a key or a word do the message and the suggestion repeat the text
that the finding is about. -/
theorem Finding.Kind.newline_not_mem {kind : Finding.Kind} {code : String}
    (h : kind = .invalidKey ∨ kind = .unknownOperation → '\n' ∉ code.toList) :
    '\n' ∉ (kind.message code).toList ∧ '\n' ∉ (kind.suggestion code).toList := by
  have hfixed : ∀ kind ∈ Kind.all,
      '\n' ∉ (kind.message "").toList ∧ '\n' ∉ (kind.suggestion "").toList := by
    decide +kernel
  cases kind with
  | invalidKey =>
    have hmessage : '\n' ∉ ("invalid key value " ++ code).toList :=
      newline_not_mem_append (by decide) (h (.inl rfl))
    exact ⟨hmessage, (hfixed invalidKey (by decide)).2⟩
  | unknownOperation =>
    have hkeyword : ∀ op : Operation, '\n' ∉ op.keyword.toList := by
      intro op
      cases op <;> decide
    have hname : '\n' ∉ ("unknown operation name \"" ++ code).toList :=
      newline_not_mem_append (by decide) (h (.inr rfl))
    have hmessage : '\n' ∉ ("unknown operation name \"" ++ code ++ "\"").toList :=
      newline_not_mem_append hname (by decide)
    have hsuggestion : '\n' ∉ ("unknown operation name \"" ++ code ++ "\", did you mean \"" ++
        (Operation.nearest code).keyword ++ "\"?").toList :=
      newline_not_mem_append (newline_not_mem_append (newline_not_mem_append hname (by decide))
        (hkeyword _)) (by decide)
    exact ⟨hmessage, hsuggestion⟩
  | missingComma => exact hfixed missingComma (by decide)
  | missingCloseParen => exact hfixed missingCloseParen (by decide)
  | missingOpenParen => exact hfixed missingOpenParen (by decide)
  | missingOpenBrace => exact hfixed missingOpenBrace (by decide)
  | missingClosingBrace => exact hfixed missingClosingBrace (by decide)

theorem oneLine_of_mem_inspect {source : String} {finding : Finding} (h : finding ∈ inspect source) :
    finding.OneLine := by
  obtain ⟨raw, hrow, hplaced⟩ := placed_of_mem_inspect h
  have hraw := Text.newline_not_mem_of_mem_lines (List.mem_of_getElem? hrow)
  have hcode : finding.kind = .invalidKey ∨ finding.kind = .unknownOperation →
      '\n' ∉ finding.code.toList := by
    intro hkind hmem
    have hfits := hplaced.fits
    rw [Finding.Fits] at hfits
    have hmarked : finding.marked raw = finding.code.toList := by
      rcases hkind with hkind | hkind <;> rw [hkind] at hfits <;> exact hfits.1
    rw [← hmarked] at hmem
    exact hraw (List.mem_of_mem_drop (List.mem_of_mem_take hmem))
  obtain ⟨hmessage, hsuggestion⟩ := Finding.Kind.newline_not_mem hcode
  exact ⟨message_eq_of_mem_inspect h ▸ hmessage, hsuggestion⟩

/-! ## Markers -/

/-- The characters of the quoted line that stand above the marker, which covers
one character where there is none to mark. -/
def Finding.underlined (finding : Finding) (quoted : List Char) : List Char :=
  (quoted.drop (6 + finding.start.column)).take
    (max 1 (finding.finish.column - finding.start.column))

/-- The lines of a block that quote the line and mark the finding on it. -/
structure Finding.MarkedBy (finding : Finding) (raw : List Char) (number : Nat)
    (block : List (List Char)) : Prop where
  head : block[0]? = some ("Error #" ++ number.repr ++ ": " ++ finding.message).toList
  quoted : block[2]? = some ("Code: ".toList ++ raw)
  marker : block[3]? = some (List.replicate (6 + finding.start.column) ' ' ++ '^' ::
    List.replicate (max 1 (finding.finish.column - finding.start.column) - 1) '~')
  code : finding.kind = .invalidKey ∨ finding.kind = .unknownOperation →
    finding.underlined ("Code: ".toList ++ raw) = finding.code.toList
  parenthesis : finding.kind = .missingOpenParen →
    finding.underlined ("Code: ".toList ++ raw) = [')']

theorem Finding.underlined_eq_marked {finding : Finding} {raw : List Char}
    (h : finding.marked raw ≠ []) :
    finding.underlined ("Code: ".toList ++ raw) = finding.marked raw := by
  have hwidth : 1 ≤ finding.finish.column - finding.start.column := by
    refine Nat.pos_of_ne_zero fun hzero => h ?_
    rw [marked, hzero, List.take_zero]
  have hdrop : ("Code: ".toList ++ raw).drop (6 + finding.start.column) =
      raw.drop finding.start.column :=
    @List.drop_length_add_append _ "Code: ".toList _ finding.start.column
  rw [underlined, marked, hdrop, Nat.max_eq_right hwidth]

theorem Finding.PlacedOn.markedBy {lines : List (List Char)} {finding : Finding} {raw : List Char}
    (h : finding.PlacedOn lines finding.start.row raw) (hrow : lines[finding.start.row]? = some raw)
    (number line : Nat) :
    finding.MarkedBy raw number ((finding.block lines number line).map String.toList) := by
  have hwidth : finding.markedWidth = max 1 (finding.finish.column - finding.start.column) :=
    if_pos h.finish_row.symm
  have hfits := h.fits
  rw [Finding.Fits] at hfits
  constructor
  case head => rfl
  case quoted =>
    have hline : lines.getD finding.start.row [] = raw := by
      rw [List.getD_eq_getElem?_getD, hrow, Option.getD_some]
    show some ("Code: " ++ String.ofList (lines.getD finding.start.row [])).toList = _
    rw [hline, String.toList_append, String.toList_ofList, String.toList_ofList]
  case marker =>
    show some ("      " ++ String.ofList finding.marker).toList = _
    rw [String.toList_append, String.toList_ofList, String.toList_ofList, marker, hwidth,
      ← List.replicate_append_replicate, List.append_assoc]
    rfl
  case code =>
    intro hkind
    have hcode : finding.marked raw = finding.code.toList ∧ finding.code.toList ≠ [] := by
      rcases hkind with hkind | hkind <;> rw [hkind] at hfits <;> exact hfits
    rw [underlined_eq_marked (hcode.1 ▸ hcode.2), hcode.1]
  case parenthesis =>
    intro hkind
    rw [hkind] at hfits
    rw [underlined_eq_marked (hfits.1 ▸ List.cons_ne_nil _ _), hfits.1]

/-- In the listing of what an inspection finds, the block of each finding quotes
the line it is on and puts the marker under the characters that it is about. -/
theorem listing_marks {source : String} {path : Option String} {k : Nat} {finding : Finding}
    (hk : (inspect source)[k]? = some finding) :
    ∃ raw, (Text.lines source.toList)[finding.start.row]? = some raw ∧
      finding.MarkedBy raw (k + 1)
        (((Text.lines (listing (inspect source) source path).toList).drop
          (linesAbove path + 6 * k)).take 6) := by
  obtain ⟨raw, hrow, hplaced⟩ := placed_of_mem_inspect (List.mem_of_getElem? hk)
  refine ⟨raw, hrow, ?_⟩
  rw [take_drop_listing (fun _ => oneLine_of_mem_inspect) hk]
  exact hplaced.markedBy hrow (k + 1) _

/-- The second finding of `wideIndent`, in a listing under a path of two lines. -/
theorem listing_marks_wideIndent :
    (inspect wideIndent)[1]? =
      some (.about .unknownOperation ⟨1, 2⟩ ⟨1, 11⟩ "swapTaunt".toList) ∧
    ∃ raw, (Text.lines wideIndent.toList)[1]? = some raw ∧
      (Finding.about .unknownOperation ⟨1, 2⟩ ⟨1, 11⟩ "swapTaunt".toList).MarkedBy raw 2
        (((Text.lines (listing (inspect wideIndent) wideIndent (some "odd\npath")).toList).drop
          (linesAbove (some "odd\npath") + 6 * 1)).take 6) := by
  have hk : (inspect wideIndent)[1]? =
      some (.about .unknownOperation ⟨1, 2⟩ ⟨1, 11⟩ "swapTaunt".toList) := by
    decide +kernel
  exact ⟨hk, listing_marks hk⟩

/-! ## The sentence at the top, and how many blocks there are -/

end Summary
end TaintFlow
