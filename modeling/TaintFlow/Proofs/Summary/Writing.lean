/-
What a machine writes as a listing.

A machine comes to a listing or stops.  It writes the listing with each line counted in
words, and does so exactly if it can hold all of it and, where it checks its sums, if
each line is a word (`writes_write`).  Nothing else can go wrong: a marker is drawn
only as far as the machine can hold it, and columns are taken from one another only
after they were compared.

The findings of an inspection are all on lines that are words, so for a text that the
machine holds, their listing is written as it is (`writes_inspect`).
-/
import TaintFlow.Proofs.Machine
import TaintFlow.Proofs.Summary.Places
import TaintFlow.Proofs.Text.Lines
import TaintFlow.Summary.Writing

namespace TaintFlow
namespace Summary

variable {machine : Machine} {sourceLines : List (List Char)}

/-- The line of a row, as far as a word can say it. -/
def wordLine (row : Nat) : Nat := (row + 1) % wordCount

theorem wordLine_eq_iff {row : Nat} : wordLine row = row + 1 ↔ row + 1 < wordCount :=
  Nat.mod_eq_iff_lt (by decide)

theorem joinLines_cons (line : String) (lines : List String) :
    joinLines (line :: lines) = line ++ "\n" ++ joinLines lines := by
  rw [joinLines, List.map_cons, String.join_cons]
  rfl

theorem joinLines_append (lines more : List String) :
    joinLines (lines ++ more) = joinLines lines ++ joinLines more := by
  rw [joinLines, List.map_append, String.join_append]
  rfl

theorem utf8ByteSize_le_joinLines {line : String} {lines : List String} (h : line ∈ lines) :
    line.utf8ByteSize ≤ (joinLines lines).utf8ByteSize := by
  induction lines with
  | nil => cases h
  | cons first lines ih =>
    rw [joinLines_cons, String.utf8ByteSize_append]
    rcases List.mem_cons.mp h with rfl | h
    · exact (Machine.utf8ByteSize_le_append_left line "\n").trans (Nat.le_add_right _ _)
    · exact (ih h).trans (Nat.le_add_left _ _)

namespace Finding

theorem ofList_marker (finding : Finding) :
    String.ofList finding.marker =
      String.ofList (List.replicate finding.start.column ' ') ++ "^" ++
        String.ofList (List.replicate (finding.markedWidth - 1) '~') := by
  rw [marker, List.append_cons, String.ofList_append, String.ofList_append]

/-- The blanks of a marker take a byte each. -/
theorem utf8ByteSize_blanks (finding : Finding) :
    (String.ofList (List.replicate finding.start.column ' ')).utf8ByteSize =
      finding.start.column :=
  (Machine.utf8ByteSize_fill ' ' finding.start.column).trans (Nat.mul_one _)

theorem column_le_marker (finding : Finding) :
    finding.start.column ≤ (String.ofList finding.marker).utf8ByteSize := by
  rw [ofList_marker, String.utf8ByteSize_append, String.utf8ByteSize_append, utf8ByteSize_blanks]
  exact Nat.le_add_right_of_le (Nat.le_add_right _ _)

theorem marker_le_block (finding : Finding) (number line : Nat) :
    (String.ofList finding.marker).utf8ByteSize ≤
      (joinLines (finding.block sourceLines number line)).utf8ByteSize := by
  have hmem : "      " ++ String.ofList finding.marker ∈
      finding.block sourceLines number line := by
    simp only [block, blockBody, List.mem_cons, true_or, or_true]
  exact (Machine.utf8ByteSize_le_append_right "      " _).trans (utf8ByteSize_le_joinLines hmem)

/-- A marker is drawn as far as the machine can hold it. -/
theorem writes_marker (finding : Finding) :
    machine.Writes (finding.writeMarker machine) True (String.ofList finding.marker) := by
  rw [ofList_marker, writeMarker]
  refine (Machine.writes_fill ' ' finding.start.column).andThen ?_ fun hcolumn => ?_
  · exact (Machine.utf8ByteSize_le_append_left _ "^").trans
      (Machine.utf8ByteSize_le_append_left _ _)
  rw [utf8ByteSize_blanks] at hcolumn
  refine (Machine.writes_append _ "^").andThen
    (Machine.utf8ByteSize_le_append_left _ _) fun hcaret => ?_
  have hnext := Machine.add_one_of_le hcolumn
  by_cases hwide : finding.start.row = finding.finish.row ∧
      finding.start.column + 1 < finding.finish.column
  case pos =>
    have hwidth : finding.markedWidth = finding.finish.column - finding.start.column := by
      rw [markedWidth, if_pos hwide.1]
      omega
    have hle : finding.start.column ≤ finding.finish.column := by omega
    have hone : 1 ≤ finding.finish.column - finding.start.column := by omega
    rw [if_pos hwide.1, hwidth]
    refine .afterOk hnext ?_
    rw [if_pos hwide.2]
    refine .afterOk (Machine.sub_of_le hle) (.afterOk (Machine.sub_of_le hone) ?_)
    exact (Machine.writes_fill '~' _).andThen (Machine.utf8ByteSize_le_append_right _ _)
      fun _ => Machine.writes_append _ _
  case neg =>
    have hwidth : finding.markedWidth - 1 = 0 := by
      rw [markedWidth]
      split <;> omega
    rw [hwidth, List.replicate_zero, String.ofList_nil, String.append_empty]
    split
    case isTrue hrow =>
      refine .afterOk hnext ?_
      rw [if_neg fun hlt => hwide ⟨hrow, hlt⟩]
      exact Machine.writes_self hcaret
    case isFalse => exact Machine.writes_self hcaret

/-- A block is written with the line of its row as a word. -/
theorem writes_block (finding : Finding) (number : Nat) (text : String) :
    machine.Writes (finding.writeBlock machine sourceLines number text)
      (machine.checked = true → finding.start.row + 1 < wordCount)
      (text ++ joinLines (finding.block sourceLines number (wordLine finding.start.row))) := by
  have hsplit : finding.block sourceLines number (wordLine finding.start.row) =
      [finding.blockHead number] ++ finding.blockBody sourceLines (wordLine finding.start.row)
        (finding.start.column + 1) (String.ofList finding.marker) := rfl
  rw [writeBlock]
  refine finding.writes_marker.andThen ((finding.marker_le_block number _).trans
    (Machine.utf8ByteSize_le_append_right text _)) fun hmarker => ?_
  rw [hsplit, joinLines_append, ← String.append_assoc]
  refine (Machine.writes_append text _).andThen
    (Machine.utf8ByteSize_le_append_left _ _) fun _ => ?_
  refine (Machine.Writes.afterAdd ?_).congr (and_iff_left trivial)
  exact .afterOk (Machine.add_one_of_le (finding.column_le_marker.trans hmarker))
    (Machine.writes_append _ _)

end Finding

/-- The blocks are written one behind the other. -/
theorem writes_blocks {findings : List Finding} {text : String}
    (htext : text.utf8ByteSize ≤ machine.capacity) (number : Nat) :
    machine.Writes (writeBlocks machine sourceLines number text findings)
      (machine.checked = true → ∀ finding ∈ findings, finding.start.row + 1 < wordCount)
      (text ++ joinLines (blocks wordLine sourceLines number findings)) := by
  induction findings generalizing number text with
  | nil =>
    have hnil : text ++ joinLines (blocks wordLine sourceLines number []) = text :=
      String.append_empty
    rw [hnil]
    exact (Machine.writes_self htext).congr ⟨fun _ _ => List.forall_mem_nil _, fun _ => trivial⟩
  | cons finding findings ih =>
    rw [blocks, joinLines_append, ← String.append_assoc]
    refine ((finding.writes_block number text).bind (Machine.utf8ByteSize_le_append_left _ _)
      fun hblock => ih hblock (number + 1)).congr ?_
    rw [List.forall_mem_cons, ← imp_and]

/-- A machine writes the listing with its lines counted in words, if it can hold it.
If it checks its sums, each line has to be a word, too. -/
theorem writes_write (findings : List Finding) (source : String) (path : Option String) :
    machine.Writes (write machine findings source path)
      (machine.checked = true → ∀ finding ∈ findings, finding.start.row + 1 < wordCount)
      (listingBy wordLine findings source path) := by
  rw [write, listingBy]
  split
  case isTrue hempty =>
    rw [List.isEmpty_iff.mp hempty]
    exact (Machine.writes_append "" _).congr ⟨fun _ _ => List.forall_mem_nil _, fun _ => trivial⟩
  case isFalse =>
    have hsplit : joinLines (headLine findings.length path :: "" ::
        blocks wordLine (Text.lines source.toList) 1 findings) =
        "" ++ joinLines [headLine findings.length path, ""] ++
          joinLines (blocks wordLine (Text.lines source.toList) 1 findings) := by
      rw [String.empty_append, ← joinLines_append]
      rfl
    rw [hsplit]
    exact (Machine.writes_append "" _).andThen (Machine.utf8ByteSize_le_append_left _ _)
      fun hhead => writes_blocks hhead 1

/-- Where every line is a word, the lines of a listing are counted in words. -/
theorem listingBy_wordLine {findings : List Finding}
    (h : ∀ finding ∈ findings, finding.start.row + 1 < wordCount) (source : String)
    (path : Option String) :
    listingBy wordLine findings source path = listing findings source path := by
  have hblocks : ∀ number, blocks wordLine (Text.lines source.toList) number findings =
      blocks (· + 1) (Text.lines source.toList) number findings := by
    induction findings with
    | nil => exact fun _ => rfl
    | cons finding findings ih =>
      rw [List.forall_mem_cons] at h
      intro number
      rw [blocks, blocks, ih h.2, wordLine_eq_iff.mpr h.1]
  rw [listing, listingBy, listingBy, hblocks]

/-- A text that the machine holds has its findings on lines that are words. -/
theorem lines_of_mem_inspect {source : String} (h : source.utf8ByteSize ≤ machine.capacity)
    {finding : Finding} (hmem : finding ∈ inspect source) :
    finding.start.row + 1 < wordCount := by
  obtain ⟨raw, hrow, -⟩ := placed_of_mem_inspect hmem
  have hlines : finding.start.row < (Text.lines source.toList).length :=
    (List.getElem?_eq_some_iff.mp hrow).1
  have hcount : source.toList.count '\n' ≤ source.utf8ByteSize :=
    List.count_le_length.trans (Machine.length_le_utf8ByteSize source)
  rw [Text.length_lines] at hlines
  exact Machine.add_one_lt ((Nat.le_of_lt_succ hlines).trans (hcount.trans h))

/-- The listing of what an inspection finds is written as it is, if the machine can hold
it together with the text that was inspected. -/
theorem writes_inspect {source : String} (h : source.utf8ByteSize ≤ machine.capacity)
    (path : Option String) :
    machine.Writes (write machine (inspect source) source path) True
      (listing (inspect source) source path) := by
  have hlines : ∀ finding ∈ inspect source, finding.start.row + 1 < wordCount := fun _ =>
    lines_of_mem_inspect h
  rw [← listingBy_wordLine hlines]
  exact (writes_write (inspect source) source path).congr ⟨fun _ => trivial, fun _ _ => hlines⟩

end Summary
end TaintFlow
